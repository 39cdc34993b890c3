import TaskAudit.Time.Rfc3339.Scan

/-!
# Reading a timestamp from a record

A record may come from another writer, so blanks may stand before and between
the parts, the year may have a sign and more than four digits, the other parts
may lack their leading zero, and the offset may be written `UTC` or without a
colon.
-/
namespace TaskAudit.Timestamp

open Time Time.Scan Text

def within (low high n : Nat) : Except TimeFault Unit :=
  if low ≤ n ∧ n ≤ high then .ok () else .error .outOfRange

/-- A year: at most four digits, or a sign and any number of them. -/
def relaxedYear (s : List Char) : Except TimeFault (Int × List Char) := do
  let (year, rest) ← match s with
    | '-' :: s => do
      let (n, rest) ← upTo s.length s
      pure (-(n : Int), rest)
    | '+' :: s => do
      let (n, rest) ← upTo s.length s
      pure ((n : Int), rest)
    | s => do
      let (n, rest) ← upTo 4 s
      pure ((n : Int), rest)
  if -2147483648 ≤ year ∧ year < 2147483648 then .ok (year, rest) else .error .outOfRange

/-- A part of at most two digits after blanks, within its bounds. -/
def relaxedPart (low high : Nat) (s : List Char) : Except TimeFault (Nat × List Char) := do
  let (n, rest) ← upTo 2 (trimStart s)
  within low high n
  return (n, rest)

def relaxedMark (c : Char) (s : List Char) : Except TimeFault (List Char) :=
  (oneOf [c] (trimStart s)).map Prod.snd

/-- An offset is separated by any colons and blanks, or by nothing. -/
def looseSeparator (s : List Char) : Except TimeFault (List Char) :=
  .ok (s.dropWhile fun c => c = ':' || isBlank c)

def relaxedOffset : List Char → Except TimeFault (Int × List Char)
  | a :: b :: c :: rest =>
    if [a, b, c].map Char.toUpper = ['U', 'T', 'C'] then .ok (0, rest)
    else offset looseSeparator (a :: b :: c :: rest)
  | s => offset looseSeparator s

/-- The timestamp that a text of a record stands for. -/
def ofRelaxed (text : String) : Except TimeFault Timestamp := do
  let (year, s) ← relaxedYear (trimStart text.toList)
  let s ← relaxedMark '-' s
  let (month, s) ← relaxedPart 1 12 s
  let s ← relaxedMark '-' s
  let (day, s) ← relaxedPart 1 31 s
  let (_, s) ← oneOf ['T', 't', ' '] s
  let (hour, s) ← relaxedPart 0 23 s
  let s ← relaxedMark ':' s
  let (minute, s) ← relaxedPart 0 59 s
  let s ← relaxedMark ':' s
  let (second, s) ← relaxedPart 0 60 s
  let (nanos, s) ← match s with
    | '.' :: rest => nanoseconds rest
    | _ => .ok (0, s)
  let (ahead, s) ← relaxedOffset (trimStart s)
  if trimStart s ≠ [] then .error .tooLong
  else
    let date : Date := ⟨year, month, day⟩
    if year < -262143 ∨ 262142 < year ∨ ¬ date.Valid ∨ ¬ IsOffset ahead then .error .outOfRange
    else
      let leap := if second = 60 then 1 else 0
      match ofLocal? date (hour * 3600 + minute * 60 + (second - leap))
          (nanos + leap * nanosPerSecond) ahead with
      | some t => .ok t
      | none => .error .impossible

end TaskAudit.Timestamp
