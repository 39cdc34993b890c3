import TaskAudit.Trail.Row

/-!
# An audit trail in a database

The trail sends one query for each operation. A write that matches no record is
told and succeeds. A connection that nobody gives back within a time limit ends
the operation, either by the limit of the trail or by that of the connections.
-/
namespace TaskAudit

/-- What a database does with a query. -/
inductive Reply (α : Type) where
  | answered (answer : Except DatabaseFault α)
  | stalled

/-- The operations of a database with a state of type `δ`: one answers with the
number of rows that it touched, the other with rows. -/
structure Database (δ : Type) where
  execute : Query → δ → Reply Nat × δ
  select : Query → δ → Reply (List Row) × δ

namespace AuditTable

structure Settings where
  dialect : Dialect
  statementTimeout : Option Span := none
  deriving DecidableEq, Repr

def defaultConnections : Nat := 10

def connectionTimeout : Span := .seconds 30

variable {δ : Type}

def bounded {α : Type} (limit : Option Span) : Reply α → Except Error α
  | .answered answer => answer.mapError .storage
  | .stalled =>
    match limit with
    | some d => if d.nanos < connectionTimeout.nanos then .error (.timeout d)
      else .error (.storage .exhausted)
    | none => .error (.storage .exhausted)

def execute (db : Database δ) (settings : Settings) (q : Query) :
    Action δ (Except Error Nat) := fun s =>
  let (reply, s) := db.execute q s
  ⟨bounded settings.statementTimeout reply, s, []⟩

def select (db : Database δ) (settings : Settings) (q : Query) :
    Action δ (Except Error (List Row)) := fun s =>
  let (reply, s) := db.select q s
  ⟨bounded settings.statementTimeout reply, s, []⟩

def write (db : Database δ) (settings : Settings) (w : Write) :
    Action δ (Except Error Unit) := do
  match ← execute db settings (.ofWrite settings.dialect w) with
  | .error e => return .error e
  | .ok rows =>
    match w with
    | .created _ => .count (.transition w.target)
    | _ =>
      if rows = 0 then .note (.noRecordMatched w.id w.target)
      else .count (.transition w.target)
    return .ok ()

def trail (db : Database δ) (settings : Settings) : Trail δ where
  write := write db settings

def recordOf (id : String) : List Row → Except Error Record
  | [] => .error (.notFound id)
  | row :: _ => do
    let stored ← row.toStored.mapError .storage
    stored.toRecord

def get (db : Database δ) (settings : Settings) (id : String) :
    Action δ (Except Error Record) := do
  match ← select db settings (.byId settings.dialect id) with
  | .error e => return .error e
  | .ok rows => return recordOf id rows

/-- The records of some rows, or the first fault: that of a missing value before
that of a status or a time. -/
def recordsOf (rows : List Row) : Except Error (List Record) := do
  let stored ← (rows.mapM Row.toStored).mapError .storage
  stored.mapM StoredRecord.toRecord

/-- Asks for the newest records that a filter accepts. A negative limit is none. -/
def list (db : Database δ) (settings : Settings) (filter : Record.Filter) (limit : Int) :
    Action δ (Except Error (List Record)) := do
  match ← select db settings (.recent settings.dialect filter limit) with
  | .error e => return .error e
  | .ok rows => return recordsOf rows

def probe (db : Database δ) (settings : Settings) : Action δ (Except Error Unit) := do
  match ← execute db settings (.ping settings.dialect) with
  | .error e => return .error e
  | .ok _ => return .ok ()

end AuditTable

end TaskAudit
