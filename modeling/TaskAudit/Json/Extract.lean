import TaskAudit.Json.Decode

/-!
# Taking values out of JSON values

Where a text, a count or an optional value is wanted and another kind of value
stands, the mismatch says what was found.
-/
namespace TaskAudit.Json

def found : Json → Found
  | .null => .null
  | .bool b => .bool b
  | .int n => .int n
  | .float x => .ofNumber (.float x)
  | .str s => .str s
  | .arr _ => .list
  | .obj _ => .object

def toText : Json → Except Mismatch String
  | .str s => .ok s
  | v => .error (.wrongType v.found "a string")

def toCount : Json → Except Mismatch UInt32
  | .int n =>
    if 0 ≤ n ∧ n < (Nat.pow 2 32 : Nat) then .ok (UInt32.ofNat n.toNat)
    else .error (.wrongValue (.int n) "u32")
  | v => .error (.wrongType v.found "u32")

def toOption {α : Type} (reader : Json → Except Mismatch α) : Json → Except Mismatch (Option α)
  | .null => .ok none
  | v => (reader v).map some

end TaskAudit.Json
