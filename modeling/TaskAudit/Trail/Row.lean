import TaskAudit.Time.Rfc3339.Strict
import TaskAudit.Trail.Statement

/-!
# Rows of the audit table

A row gives every column a text or nothing. It is read in two steps: first the
columns that must hold a value are required, then the status and the times are
decoded. A row without a time of queueing was queued at the start of 1970.
-/
namespace TaskAudit

structure Row where
  id : Option String := none
  taskType : Option String := none
  queue : Option String := none
  payload : Option String := none
  status : Option String := none
  error : Option String := none
  result : Option String := none
  createdAt : Option String := none
  updatedAt : Option String := none
  enqueuedAt : Option String := none
  startedAt : Option String := none
  finishedAt : Option String := none
  deriving DecidableEq, Repr

/-- A row whose required columns hold a value. -/
structure StoredRecord where
  id : String
  taskType : String
  queue : String
  payload : String
  status : String
  errorMessage : Option String
  resultPayload : Option String
  createdAt : String
  enqueuedAt : Option String
  startedAt : Option String
  finishedAt : Option String
  deriving DecidableEq, Repr

namespace Row

def get (r : Row) : Column → Option String
  | .id => r.id
  | .taskType => r.taskType
  | .queue => r.queue
  | .payload => r.payload
  | .status => r.status
  | .error => r.error
  | .result => r.result
  | .createdAt => r.createdAt
  | .updatedAt => r.updatedAt
  | .enqueuedAt => r.enqueuedAt
  | .startedAt => r.startedAt
  | .finishedAt => r.finishedAt

def set (r : Row) (c : Column) (v : Option String) : Row :=
  match c with
  | .id => { r with id := v }
  | .taskType => { r with taskType := v }
  | .queue => { r with queue := v }
  | .payload => { r with payload := v }
  | .status => { r with status := v }
  | .error => { r with error := v }
  | .result => { r with result := v }
  | .createdAt => { r with createdAt := v }
  | .updatedAt => { r with updatedAt := v }
  | .enqueuedAt => { r with enqueuedAt := v }
  | .startedAt => { r with startedAt := v }
  | .finishedAt => { r with finishedAt := v }

def assign (cells : List (Column × Option String)) (r : Row) : Row :=
  cells.foldl (fun r p => r.set p.1 p.2) r

def ofCells (columns : List Column) (cells : List (Option String)) : Row :=
  assign (columns.zip cells) {}

def required (r : Row) (c : Column) : Except DatabaseFault String :=
  match r.get c with
  | some s => .ok s
  | none => .error (.column (Text.quoted c.name) "expected TEXT, got Null(Text)")

def toStored (r : Row) : Except DatabaseFault StoredRecord := do
  let id ← r.required .id
  let taskType ← r.required .taskType
  let queue ← r.required .queue
  let payload ← r.required .payload
  let status ← r.required .status
  let createdAt ← r.required .createdAt
  return {
    id, taskType, queue, payload, status, createdAt
    errorMessage := r.error
    resultPayload := r.result
    enqueuedAt := r.enqueuedAt
    startedAt := r.startedAt
    finishedAt := r.finishedAt }

end Row

namespace StoredRecord

def time (c : Column) (text : String) : Except Error Timestamp :=
  match Timestamp.ofStored text with
  | .ok t => .ok t
  | .error fault =>
    .error (.other s!"bad {c.name} timestamp {Text.quoted text}: {fault.message}")

def time? (c : Column) : Option String → Except Error (Option Timestamp)
  | none => .ok none
  | some text => (time c text).map some

def toRecord (s : StoredRecord) : Except Error Record := do
  let status ← Status.ofName s.status
  let createdAt ← time .createdAt s.createdAt
  let enqueuedAt ← time? .enqueuedAt s.enqueuedAt
  let startedAt ← time? .startedAt s.startedAt
  let finishedAt ← time? .finishedAt s.finishedAt
  return {
    id := s.id
    taskType := s.taskType
    queue := s.queue
    payload := s.payload
    status
    errorMessage := s.errorMessage
    resultPayload := s.resultPayload
    createdAt
    enqueuedAt := enqueuedAt.getD Timestamp.epoch
    startedAt
    finishedAt }

end StoredRecord

end TaskAudit
