import TaskAudit.Text.Parts
import TaskAudit.Text.Utf8

/-!
# Percent encoding

An address writes a byte that would end a part of it as a percent sign and two
hexadecimal digits. A percent sign without them stands for itself. In a form a
plus sign is a blank.
-/
namespace TaskAudit.Text

/-- The value of a hexadecimal digit given as a byte. -/
def hexByte? (b : UInt8) : Option UInt8 :=
  if 0x30 ≤ b ∧ b ≤ 0x39 then some (b - 0x30)
  else if 0x41 ≤ b ∧ b ≤ 0x46 then some (b - 0x41 + 10)
  else if 0x61 ≤ b ∧ b ≤ 0x66 then some (b - 0x61 + 10)
  else none

/-- The bytes that percent encoded bytes stand for. -/
def percentDecode : List UInt8 → List UInt8
  | [] => []
  | [b] => [b]
  | [b, c] => [b, c]
  | b :: c :: d :: rest =>
    if b = 0x25 then
      match hexByte? c, hexByte? d with
      | some high, some low => (high * 16 + low) :: percentDecode rest
      | _, _ => b :: percentDecode (c :: d :: rest)
    else b :: percentDecode (c :: d :: rest)

/-- The bytes that a part of an address stands for. -/
def ofPercent (cs : List Char) : ByteArray :=
  ⟨(percentDecode (String.ofList cs).toUTF8.toList).toArray⟩

/-- The text that a part of an address stands for, or its first bytes that are none. -/
def textOfPercent (cs : List Char) : Except Ill String :=
  let bytes := ofPercent cs
  match firstIll bytes with
  | some ill => .error ill
  | none => .ok (lossy bytes)

/-- The text that a part of a form stands for. -/
def ofForm (cs : List Char) : String :=
  lossy (ofPercent (cs.map fun c => if c = '+' then ' ' else c))

/-- The names and values of a form: parts between ampersands with an equals sign. -/
def formFields (cs : List Char) : List (String × String) :=
  ((split '&' cs).filter (· ≠ [])).map fun part =>
    let (name, value) := cut '=' part
    (ofForm name, ofForm (value.getD []))

end TaskAudit.Text
