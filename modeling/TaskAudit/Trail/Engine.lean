import TaskAudit.Trail.Embedded

/-!
# Engines

An engine is a database together with what makes the table of the audit trail in it.
A bare server is one that accepts every query and knows nothing: a write counts as one
row, a search finds none, and the table cannot be made, since the server does not even
tell the name of its database.
-/
namespace TaskAudit

/-- A database and what makes its table. -/
structure Engine (δ : Type) where
  database : Database δ
  migrate : Action δ (Except Error Unit)

def Embedded.engine : Engine Embedded := ⟨Embedded.database, Embedded.migrate⟩

/-- A server that accepts every query and knows nothing. -/
def bareServer : Engine Unit where
  database := {
    execute := fun _ s => (.answered (.ok 1), s)
    select := fun _ s => (.answered (.ok []), s) }
  migrate := pure (.error (.migration .noRow))

end TaskAudit
