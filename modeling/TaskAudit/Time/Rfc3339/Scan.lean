import TaskAudit.Decimal.Digits
import TaskAudit.Text.Blank
import TaskAudit.Time.Timestamp

/-!
# Parts of a written timestamp

What can be wrong with a written timestamp, and the readers for its parts. Each
takes the characters still to be read and returns what it found with the rest.
-/
namespace TaskAudit.Time

inductive TimeFault where
  | tooShort
  | invalid
  | outOfRange
  | tooLong
  | impossible
  deriving DecidableEq, Repr

def TimeFault.message : TimeFault → String
  | .tooShort => "premature end of input"
  | .invalid => "input contains invalid characters"
  | .outOfRange => "input is out of range"
  | .tooLong => "trailing input"
  | .impossible => "no possible date and time matching input"

namespace Scan

open Decimal

def exactly : Nat → List Char → Except TimeFault (Nat × List Char)
  | n, s =>
    let ds := s.take n
    if ds.any (fun c => !c.isDigit) then .error .invalid
    else if ds.length < n then .error .tooShort
    else .ok (value ds, s.drop n)

def upTo (n : Nat) (s : List Char) : Except TimeFault (Nat × List Char) :=
  match s with
  | [] => .error .tooShort
  | c :: _ =>
    if c.isDigit then
      let ds := (s.take n).takeWhile Char.isDigit
      .ok (value ds, s.drop ds.length)
    else .error .invalid

def oneOf (cs : List Char) : List Char → Except TimeFault (Char × List Char)
  | [] => .error .tooShort
  | c :: rest => if c ∈ cs then .ok (c, rest) else .error .invalid

/-- Decimals of a second as nanoseconds; from the tenth on they are dropped. -/
def nanoseconds (s : List Char) : Except TimeFault (Nat × List Char) := do
  let (n, rest) ← upTo 9 s
  let places := s.length - rest.length
  return (n * Nat.pow 10 (9 - places), rest.dropWhile Char.isDigit)

/-- Two digits, given as a number, where the input must hold two more bytes. -/
def twoDigits : List Char → Except TimeFault (Nat × List Char)
  | [] => .error .tooShort
  | [c] => if c.utf8Size < 2 then .error .tooShort else .error .invalid
  | a :: b :: rest =>
    if a.isDigit && b.isDigit then .ok (value [a, b], rest) else .error .invalid

def offsetSign : List Char → Except TimeFault (Bool × List Char)
  | [] => .error .tooShort
  | c :: rest =>
    if c = '+' then .ok (false, rest)
    else if c = '-' ∨ c = '−' then .ok (true, rest)
    else .error .invalid

/-- How far local time is ahead of universal time, in seconds: `Z`, or a sign, two
digits, a separator and two digits. -/
def offset (separator : List Char → Except TimeFault (List Char)) :
    List Char → Except TimeFault (Int × List Char)
  | 'Z' :: rest => .ok (0, rest)
  | 'z' :: rest => .ok (0, rest)
  | s => do
    let (behind, s) ← offsetSign s
    let (hours, s) ← twoDigits s
    let s ← separator s
    let (minutes, s) ← twoDigits s
    if 60 ≤ minutes then .error .outOfRange
    else
      let seconds : Int := hours * 3600 + minutes * 60
      return (if behind then -seconds else seconds, s)

/-- An offset of a whole day or more is none. -/
def IsOffset (seconds : Int) : Prop := -86400 < seconds ∧ seconds < 86400

instance (seconds : Int) : Decidable (IsOffset seconds) := by unfold IsOffset; infer_instance

end Scan

end TaskAudit.Time
