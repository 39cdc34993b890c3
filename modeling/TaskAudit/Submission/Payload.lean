import TaskAudit.Json.Error
import TaskAudit.Json.Printer

/-!
# What a submitter hands over

Whatever a submitter hands over is written as a JSON text. A JSON value always has
one; a table has one if all its keys can be written as names.
-/
namespace TaskAudit

/-- A type whose values can be submitted. -/
class Submittable (α : Type) where
  /-- The JSON text of a value. -/
  text : α → Except Json.Error String

instance : Submittable Json := ⟨fun v => .ok v.compact⟩

inductive TableKey where
  | text (s : String)
  | int (n : Int)
  | composite
  deriving DecidableEq, Repr

def TableKey.name : TableKey → Except Json.Error String
  | text s => .ok s
  | int n => .ok (Decimal.signedText n)
  | composite => .error ⟨.malformed .keyNotText, none⟩

/-- A table whose keys need not be texts. -/
structure Table where
  entries : List (TableKey × Json)

def Table.toJson (t : Table) : Except Json.Error Json := do
  let members ← t.entries.mapM fun (key, v) => do
    let name ← key.name
    return (name, v)
  return .obj members

instance : Submittable Table := ⟨fun t => t.toJson.map Json.compact⟩

end TaskAudit
