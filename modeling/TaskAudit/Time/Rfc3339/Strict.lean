import TaskAudit.Time.Rfc3339.Scan

/-!
# Reading a stored timestamp

The date and the time of day have a fixed number of digits. Between them stands
`T`, `t` or a blank, and after them optional decimals and an offset from universal
time, in which a minus sign may be the typographic one.
-/
namespace TaskAudit.Timestamp

open Time Time.Scan

/-- The timestamp that a stored text stands for. -/
def ofStored (text : String) : Except TimeFault Timestamp := do
  if text.utf8ByteSize < 19 then .error .tooShort
  else
    let (year, s) ← exactly 4 text.toList
    let (_, s) ← oneOf ['-'] s
    let (month, s) ← exactly 2 s
    let (_, s) ← oneOf ['-'] s
    let (day, s) ← exactly 2 s
    let date : Date := ⟨year, month, day⟩
    if ¬ date.Valid then .error .outOfRange
    else
      let (_, s) ← oneOf ['T', 't', ' '] s
      let (hour, s) ← exactly 2 s
      let (_, s) ← oneOf [':'] s
      let (minute, s) ← exactly 2 s
      let (_, s) ← oneOf [':'] s
      let (second, s) ← exactly 2 s
      let (nanos, s) ← match s with
        | '.' :: rest => nanoseconds rest
        | _ => .ok (0, s)
      if 23 < hour ∨ 59 < minute ∨ 60 < second then .error .outOfRange
      else
        let (ahead, s) ← offset (fun s => (oneOf [':'] s).map Prod.snd) s
        if s ≠ [] then .error .tooLong
        else if ¬ IsOffset ahead then .error .outOfRange
        else
          let leap := if second = 60 then 1 else 0
          match ofLocal? date (hour * 3600 + minute * 60 + (second - leap))
              (nanos + leap * nanosPerSecond) ahead with
          | some t => .ok t
          | none => .error .impossible

end TaskAudit.Timestamp
