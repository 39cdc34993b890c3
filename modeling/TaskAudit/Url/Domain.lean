import TaskAudit.Text.Hidden
import TaskAudit.Text.Parts
import TaskAudit.Text.Percent
import TaskAudit.Text.Word

/-!
# Names of hosts

A name on the web is a list of labels between dots. A label with characters beyond
ASCII has a second form: `xn--`, its ASCII characters, and a list of insertions that
puts the other characters into their places. `domain?` gives the name that a text
stands for, in lower case.
-/
namespace TaskAudit.Url

open Text

def insertionDigit? (c : Char) : Option Nat :=
  if 'a' ≤ c ∧ c ≤ 'z' then some (c.toNat - 'a'.toNat)
  else if c.isDigit then some (c.toNat - '0'.toNat + 26)
  else none

/-- How often a distance is divided by 35 until it is small, times 36, and what is left. -/
def shrink (distance : Nat) : Nat × Nat :=
  if 455 < distance then
    let r := shrink (distance / 35)
    (r.1 + 36, r.2)
  else (0, distance)
termination_by distance
decreasing_by omega

/-- The bias of the next insertion, after one over some distance into a text that now
has `count` characters. -/
def nextBias (distance count : Nat) (isFirst : Bool) : Nat :=
  let d := if isFirst then distance / 700 else distance / 2
  let (k, d) := shrink (d + d / count)
  k + 36 * d / (d + 38)

/-- What has been read: the characters so far, the last one inserted, the place of the
next insertion and where the search for it began, and how far its number is read. -/
structure Inserting where
  chars : List Char
  code : Nat := 0x80
  place : Nat := 0
  start : Nat := 0
  bias : Nat := 72
  weight : Nat := 1
  position : Nat := 36
  deriving DecidableEq, Repr

/-- The least digit that does not end a number. -/
def Inserting.threshold (s : Inserting) : Nat :=
  if s.position ≤ s.bias then 1 else min 26 (s.position - s.bias)

def Inserting.step (s : Inserting) (c : Char) : Option Inserting := do
  let digit ← insertionDigit? c
  let place := s.place + digit * s.weight
  if s.threshold ≤ digit then
    return { s with place, weight := s.weight * (36 - s.threshold), position := s.position + 36 }
  else
    let count := s.chars.length + 1
    let code := s.code + place / count
    let place' := place % count
    if code.isValidChar then
      return {
        chars := s.chars.take place' ++ Char.ofNat code :: s.chars.drop place'
        code
        place := place' + 1
        start := place' + 1
        bias := nextBias (place - s.start) count (s.start = 0) }
    else none

/-- The label that ASCII characters and insertions stand for. -/
def inserted? (cs : List Char) : Option (List Char) := do
  let front := (cs.reverse.dropWhile (· ≠ '-')).drop 1 |>.reverse
  let digits := (cs.reverse.takeWhile (· ≠ '-')).reverse
  let s ← digits.foldlM Inserting.step { chars := front }
  if s.position = 36 then return s.chars else none

/-- What a character of a name stands for: a wide form for the usual one, a capital for
the small letter, an invisible character for nothing. -/
def plain (c : Char) : List Char :=
  let n := c.toNat
  if 0xFF01 ≤ n ∧ n ≤ 0xFF5E then [(Char.ofNat (n - 0xFEE0)).toLower]
  else if n = 0x3002 ∨ n = 0xFF61 then ['.']
  else if [0xAD, 0x34F, 0x200B, 0x2060, 0x2064, 0xFEFF].contains n ∨ 0xFE00 ≤ n ∧ n ≤ 0xFE0F then []
  else [c.toLower]

/-- The ASCII characters that stand in no name, besides controls and blanks. -/
def outsideName : List Char := "%#/:<>?@[\\]^|".toList

/-- Is the character an accent that stands on the character before it? -/
def isAccent (c : Char) : Bool := 0x300 ≤ c.toNat && c.toNat ≤ 0x36F

/-- May the character stand in a name? -/
def inName (c : Char) : Bool :=
  if c.toNat < 0x80 then 0x20 < c.toNat && c.toNat ≠ 0x7F && !outsideName.contains c
  else c ≠ '\uFFFD' && (!isHidden c || isWordPart c || isAccent c)

def isLabel (cs : List Char) : Bool :=
  cs.all inName && !(cs.head?.any isAccent) &&
    (!"xn--".toList.isPrefixOf cs ||
      match inserted? (cs.drop 4) with
      | none => false
      | some label => label.any (fun c => 0x80 ≤ c.toNat) && label.all inName &&
          !(label.head?.any isAccent))

/-- The name of a host that a text stands for. -/
def domain? (cs : List Char) : Option (List Char) :=
  let bytes := ofPercent cs
  let name := (lossy bytes).toList.flatMap plain
  if (firstIll bytes).isNone ∧ (split '.' name).all isLabel then some name else none

end TaskAudit.Url
