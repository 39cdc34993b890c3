import TaskAudit.Trail.Table

/-!
# An embedded database

A database that lives in the process, with the one table of the audit trail and a
single connection. Rows stand in the order in which they were inserted; no two of
them have the same id. It knows the present time only in the positional dialect.
-/
namespace TaskAudit

/-- The state of the database: the rows if there is a table, whether the table was
ever made, whether the connection was closed or is taken, whether it is only for
reading, and the present time. -/
structure Embedded where
  rows : Option (List Row) := none
  migrated : Bool := false
  closed : Bool := false
  held : Bool := false
  readOnly : Bool := false
  now : String := ""
  deriving DecidableEq, Repr

namespace Embedded

def noTable : DatabaseFault := .engine s!"(code: 1) no such table: {Statement.table}"

def noNow : DatabaseFault := .engine "(code: 1) no such function: NOW"

def notWritable : DatabaseFault := .engine "(code: 8) attempt to write a readonly database"

def idTaken : DatabaseFault :=
  .engine s!"(code: 1555) UNIQUE constraint failed: {Statement.table}.id"

def valueMissing (c : Column) : DatabaseFault :=
  .engine s!"(code: 1299) NOT NULL constraint failed: {Statement.table}.{c.name}"

def cell : Value → Option String
  | .null => none
  | .text s => some s
  | .int n => some (Decimal.signedText n)

def hasId (id : Option String) (row : Row) : Bool := id.isSome && row.id = id

def insert (now : String) (cells : List (Column × Option String)) (rows : List Row) :
    Except DatabaseFault (List Row) :=
  let row := Row.assign (cells ++ [(.updatedAt, some now)]) {}
  match Column.all.find? fun c => c.isRequired && (row.get c).isNone with
  | some c => .error (valueMissing c)
  | none => if rows.any (hasId row.id) then .error idTaken else .ok (rows ++ [row])

def update (now : String) (cells : List (Column × Option String)) (id : Option String)
    (rows : List Row) : Except DatabaseFault (Nat × List Row) :=
  let cells := cells ++ [(.updatedAt, some now)]
  match cells.find? fun p => p.1.isRequired && p.2.isNone with
  | some p => if rows.any (hasId id) then .error (valueMissing p.1) else .ok (0, rows)
  | none =>
    .ok ((rows.filter (hasId id)).length,
      rows.map fun row => if hasId id row then row.assign cells else row)

/-- Is the row made before another one? Times are compared as texts. -/
def isNewer (a b : Row) : Bool := decide (b.createdAt.getD "" ≤ a.createdAt.getD "")

/-- At most `limit` of some rows, or all if it is negative. -/
def atMost (limit : Int) (rows : List Row) : List Row :=
  if limit < 0 then rows else rows.take limit.toNat

/-- The newest rows that meet some conditions. Without a condition they are found
from the latest time backwards, so that of equal times the later row comes first;
otherwise they are sorted as they stand. -/
def newest (conditions : List (Column × Option String)) (limit : Int) (rows : List Row) :
    List Row :=
  let found :=
    if conditions.isEmpty then rows.reverse
    else rows.filter fun row => conditions.all fun p => p.2.isSome && row.get p.1 = p.2
  atMost limit (found.mergeSort isNewer)

/-- What the connection allows before a query is looked at. -/
def allow {α : Type} (s : Embedded) (k : Except DatabaseFault α × Embedded) :
    Reply α × Embedded :=
  if s.closed then (.answered (.error .closed), s)
  else if s.held then (.stalled, s)
  else (.answered k.1, k.2)

def perform (q : Query) (s : Embedded) : Except DatabaseFault Nat × Embedded :=
  match s.rows with
  | none => if q.statement = .ping then (.ok 0, s) else (.error noTable, s)
  | some rows =>
    let values := q.values.map cell
    match q.statement with
    | .insert columns =>
      if q.dialect = .numbered then (.error noNow, s)
      else if s.readOnly then (.error notWritable, s)
      else match insert s.now (columns.zip values) rows with
        | .ok rows => (.ok 1, { s with rows := some rows })
        | .error fault => (.error fault, s)
    | .update columns =>
      if q.dialect = .numbered then (.error noNow, s)
      else if s.readOnly then (.error notWritable, s)
      else match update s.now (columns.zip values) (values.getLast?.getD none) rows with
        | .ok (n, rows) => (.ok n, { s with rows := some rows })
        | .error fault => (.error fault, s)
    | _ => (.ok 0, s)

def find (q : Query) (s : Embedded) : Except DatabaseFault (List Row) :=
  match s.rows with
  | none => .error noTable
  | some rows =>
    match q.statement, q.values with
    | .fetch, [v] => .ok (rows.filter (hasId (cell v)))
    | .list columns, values =>
      let limit := match values.getLast? with
        | some (.int n) => n
        | _ => 0
      .ok (newest (columns.zip (values.map cell)) limit rows)
    | _, _ => .ok []

def database : Database Embedded where
  execute q s := s.allow (perform q s)
  select q s := s.allow (find q s, s)

def migrate : Action Embedded (Except Error Unit) := fun s =>
  if s.closed then ⟨.error (.migration .closed), s, []⟩
  else if s.held then ⟨.error (.migration .exhausted), s, []⟩
  else if s.migrated then ⟨.ok (), s, []⟩
  else if s.readOnly then ⟨.error (.migration notWritable), s, []⟩
  else ⟨.ok (), { s with rows := some (s.rows.getD []), migrated := true }, []⟩

def close : Action Embedded Unit := fun s => ⟨(), { s with closed := true }, []⟩

def hold : Action Embedded Unit := fun s => ⟨(), { s with held := true }, []⟩

def fresh (now : String) : Embedded := { rows := some [], migrated := true, now }

/-- The rows after a column of the one with an id was set, and how many it were. -/
def overwritten (id : String) (c : Column) (value : Option String) (rows : List Row) :
    Except DatabaseFault (Nat × List Row) :=
  let touched := (rows.filter (hasId (some id))).length
  if touched = 0 then .ok (0, rows)
  else if c.isRequired && value.isNone then .error (valueMissing c)
  else if c = .id && value ≠ some id && rows.any (hasId value) then .error idTaken
  else .ok (touched, rows.map fun row =>
    if hasId (some id) row then row.set c value else row)

/-- Sets a column of the row with an id, past the trail. The answer is the number of
rows. -/
def overwrite (id : String) (c : Column) (value : Option String) :
    Action Embedded (Except Error Nat) := fun s =>
  if s.closed then ⟨.error (.storage .closed), s, []⟩
  else if s.held then ⟨.error (.storage .exhausted), s, []⟩
  else match s.rows with
    | none => ⟨.error (.storage noTable), s, []⟩
    | some rows =>
      match overwritten id c value rows with
      | .error fault => ⟨.error (.storage fault), s, []⟩
      | .ok (n, rows) => ⟨.ok n, { s with rows := some rows }, []⟩

/-- Drops the table, past the trail. That it was made once is not forgotten. -/
def drop : Action Embedded (Except Error Unit) := fun s =>
  if s.closed then ⟨.error (.storage .closed), s, []⟩
  else if s.held then ⟨.error (.storage .exhausted), s, []⟩
  else if s.rows.isNone then ⟨.error (.storage noTable), s, []⟩
  else ⟨.ok (), { s with rows := none }, []⟩

def row? (s : Embedded) (id : String) : Option Row :=
  (s.rows.getD []).find? (hasId (some id))

end Embedded

end TaskAudit
