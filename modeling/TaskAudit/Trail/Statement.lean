import TaskAudit.Time.Rfc3339
import TaskAudit.Trail
import TaskAudit.Trail.Dialect

/-!
# Statements of the audit trail

The trail keeps its records in one table and needs seven statements for it. A
statement names columns and never a value; the values go beside it, one for every
question mark, in the order of the marks. The column `updated_at` is always set
to the present time by the database itself.
-/
namespace TaskAudit

inductive Column where
  | id
  | taskType
  | queue
  | payload
  | status
  | error
  | result
  | createdAt
  | updatedAt
  | enqueuedAt
  | startedAt
  | finishedAt
  deriving DecidableEq, Repr

namespace Column

def name : Column → String
  | id => "id"
  | taskType => "task_type"
  | queue => "queue"
  | payload => "payload_json"
  | status => "status"
  | error => "error_msg"
  | result => "result_json"
  | createdAt => "created_at"
  | updatedAt => "updated_at"
  | enqueuedAt => "enqueued_at"
  | startedAt => "started_at"
  | finishedAt => "finished_at"

def all : List Column :=
  [id, taskType, queue, payload, status, error, result, createdAt, updatedAt, enqueuedAt,
    startedAt, finishedAt]

def selected : List Column :=
  [id, taskType, queue, payload, status, error, result, createdAt, enqueuedAt, startedAt,
    finishedAt]

def isRequired : Column → Bool
  | taskType | queue | payload | status | createdAt => true
  | _ => false

end Column

inductive Statement where
  | insert (columns : List Column)
  | update (columns : List Column)
  | fetch
  | list (conditions : List Column)
  | ping
  deriving DecidableEq, Repr

/-- What the mark of a value stands for. -/
inductive Slot where
  | cell (c : Column)
  | key
  | condition (c : Column)
  | limit
  deriving DecidableEq, Repr

namespace Statement

def table : String := "tasktrail_tasks"

def names (cs : List Column) : String := ", ".intercalate (cs.map Column.name)

def reading : String := s!"SELECT {names Column.selected} FROM {table}"

/-- A statement with a question mark for every value. -/
def template (now : String) : Statement → String
  | insert cs =>
    let marks := ", ".intercalate (cs.map fun _ => "?")
    s!"INSERT INTO {table} ({names cs}, updated_at)\n             VALUES ({marks}, {now})"
  | update cs =>
    let cells := ", ".intercalate (cs.map fun c => c.name ++ " = ?")
    s!"UPDATE {table} SET {cells}, updated_at = {now} WHERE id = ?"
  | fetch => s!"{reading} WHERE id = ?"
  | list [] => s!"{reading} ORDER BY created_at DESC LIMIT ?"
  | list cs =>
    let conditions := " AND ".intercalate (cs.map fun c => c.name ++ " = ?")
    s!"{reading} WHERE {conditions} ORDER BY created_at DESC LIMIT ?"
  | ping => "SELECT 1"

/-- What the marks of a statement stand for, in their order. -/
def slots : Statement → List Slot
  | insert cs => cs.map .cell
  | update cs => cs.map .cell ++ [.key]
  | fetch => [.key]
  | list cs => cs.map .condition ++ [.limit]
  | ping => []

end Statement

inductive Value where
  | null
  | text (s : String)
  | int (n : Int)
  deriving DecidableEq, Repr

def Value.ofOption : Option String → Value
  | none => .null
  | some s => .text s

/-- A statement with its values, in a dialect. -/
structure Query where
  dialect : Dialect
  statement : Statement
  values : List Value
  deriving DecidableEq, Repr

namespace Query

def text (q : Query) : String := q.dialect.express (q.statement.template q.dialect.now)

def ofWrite (d : Dialect) : Write → Query
  | .created r =>
    ⟨d, .insert [.id, .taskType, .queue, .payload, .status, .createdAt],
      [.text r.id, .text r.taskType, .text r.queue, .text r.payload, .text Status.created.name,
        .text r.createdAt.stored]⟩
  | .enqueued id queue time =>
    ⟨d, .update [.status, .queue, .enqueuedAt],
      [.text Status.created.name, .text queue, .text time.stored, .text id]⟩
  | .started id time =>
    ⟨d, .update [.status, .startedAt],
      [.text Status.inProgress.name, .text time.stored, .text id]⟩
  | .completed id result time =>
    ⟨d, .update [.status, .result, .finishedAt],
      [.text Status.completed.name, .ofOption result, .text time.stored, .text id]⟩
  | .failed id message time =>
    ⟨d, .update [.status, .error, .finishedAt],
      [.text Status.failed.name, .text message, .text time.stored, .text id]⟩

def byId (d : Dialect) (id : String) : Query := ⟨d, .fetch, [.text id]⟩

/-- The conditions of a filter with their values. -/
def conditions (f : Record.Filter) : List (Column × String) :=
  (f.status.toList.map fun s => (.status, s.name)) ++ f.taskType.toList.map fun t => (.taskType, t)

/-- The query for the newest records that a filter accepts. -/
def recent (d : Dialect) (f : Record.Filter) (limit : Int) : Query :=
  ⟨d, .list ((conditions f).map Prod.fst),
    (conditions f).map (fun c => .text c.2) ++ [.int limit]⟩

def ping (d : Dialect) : Query := ⟨d, .ping, []⟩

end Query

end TaskAudit
