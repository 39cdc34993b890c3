import TaskAudit.Json.Printer
import TaskAudit.Json.Skip
import TaskAudit.Record
import TaskAudit.Status.Json
import TaskAudit.Time.Rfc3339
import TaskAudit.Time.Rfc3339.Relaxed

/-!
# Task records in JSON

A record is written as an object with a member for every field, in a fixed order.
It is read from an object whose members stand in any order, among others that are
passed over, or from a list of the fields' values. A field that may be empty may
also be missing.
-/
namespace TaskAudit.Record

open Json Text

inductive Field where
  | id
  | taskType
  | queue
  | payload
  | status
  | errorMessage
  | resultPayload
  | createdAt
  | enqueuedAt
  | startedAt
  | finishedAt
  deriving DecidableEq, Repr

namespace Field

def all : List Field :=
  [id, taskType, queue, payload, status, errorMessage, resultPayload, createdAt, enqueuedAt,
    startedAt, finishedAt]

def name : Field → String
  | id => "id"
  | taskType => "task_type"
  | queue => "queue"
  | payload => "payload"
  | status => "status"
  | errorMessage => "error_message"
  | resultPayload => "result_payload"
  | createdAt => "created_at"
  | enqueuedAt => "enqueued_at"
  | startedAt => "started_at"
  | finishedAt => "finished_at"

abbrev Value : Field → Type
  | id | taskType | queue | payload => String
  | status => Status
  | errorMessage | resultPayload => Option String
  | createdAt | enqueuedAt => Timestamp
  | startedAt | finishedAt => Option Timestamp

def absent? : (f : Field) → Option f.Value
  | errorMessage | resultPayload => some none
  | startedAt | finishedAt => some none
  | id | taskType | queue | payload => none
  | status => none
  | createdAt | enqueuedAt => none

end Field

def get (r : Record) : (f : Field) → f.Value
  | .id => r.id
  | .taskType => r.taskType
  | .queue => r.queue
  | .payload => r.payload
  | .status => r.status
  | .errorMessage => r.errorMessage
  | .resultPayload => r.resultPayload
  | .createdAt => r.createdAt
  | .enqueuedAt => r.enqueuedAt
  | .startedAt => r.startedAt
  | .finishedAt => r.finishedAt

def ofValues (v : (f : Field) → f.Value) : Record where
  id := v .id
  taskType := v .taskType
  queue := v .queue
  payload := v .payload
  status := v .status
  errorMessage := v .errorMessage
  resultPayload := v .resultPayload
  createdAt := v .createdAt
  enqueuedAt := v .enqueuedAt
  startedAt := v .startedAt
  finishedAt := v .finishedAt

def orNull {α : Type} (f : α → Json) : Option α → Json
  | none => .null
  | some a => f a

def timeJson (t : Timestamp) : Json := .str t.brief

def fieldJson (r : Record) : Field → Json
  | .id => .str r.id
  | .taskType => .str r.taskType
  | .queue => .str r.queue
  | .payload => .str r.payload
  | .status => r.status.toJson
  | .errorMessage => orNull .str r.errorMessage
  | .resultPayload => orNull .str r.resultPayload
  | .createdAt => timeJson r.createdAt
  | .enqueuedAt => timeJson r.enqueuedAt
  | .startedAt => orNull timeJson r.startedAt
  | .finishedAt => orNull timeJson r.finishedAt

def toJson (r : Record) : Json := .obj (Field.all.map fun f => (f.name, r.fieldJson f))

def jsonText (r : Record) : String := r.toJson.compact

def readTime (s : List Piece) : Except Stop (Timestamp × List Piece) := do
  let (text, rest) ← Json.text "an RFC 3339 formatted date and time string" s
  match Timestamp.ofRelaxed text with
  | .ok t => return (t, rest)
  | .error fault => .error (.misfit (.reason fault.message) rest)

def readField : (f : Field) → List Piece → Except Stop (f.Value × List Piece)
  | .id, s | .taskType, s | .queue, s | .payload, s => Json.text "a string" s
  | .status, s => Status.reader s
  | .errorMessage, s | .resultPayload, s => optional (Json.text "a string") s
  | .createdAt, s | .enqueuedAt, s => readTime s
  | .startedAt, s | .finishedAt, s => optional readTime s

abbrev Draft := (f : Field) → Option f.Value

def Draft.set (d : Draft) (f : Field) (v : f.Value) : Draft :=
  fun g => if h : f = g then some (h ▸ v) else d g

def readMembers : Nat → Bool → Draft → List Piece → Except Stop (Draft × List Piece)
  | 0, _, _, s => .error (.here .endInObject s)
  | fuel + 1, isFirst, d, s => do
    match ← nextName isFirst s with
    | .done rest => return (d, rest)
    | .more s =>
      let (name, rest) ← string s
      match Field.all.find? fun f => f.name = name with
      | none =>
        let rest ← colon rest
        let rest ← skip rest
        readMembers fuel false d rest
      | some f =>
        if (d f).isSome then .error (.misfit (.repeated name) rest)
        else
          let rest ← colon rest
          let (v, rest) ← readField f rest
          readMembers fuel false (d.set f v) rest

def readItems (isFirst : Bool) (n : Nat) : List Field → Draft → List Piece →
    Except Stop (Draft × List Piece)
  | [], d, s => .ok (d, s)
  | f :: fs, d, s => do
    match ← nextItem isFirst s with
    | .done rest =>
      .error (.misfit (.wrongLength n "struct TaskRecord with 11 elements") rest)
    | .more s =>
      let (v, rest) ← readField f s
      readItems false (n + 1) fs (d.set f v) rest

def listEnd (s : List Piece) : Except Stop (List Piece) :=
  match skipGap s with
  | [] => .error (.next .endInList [])
  | p :: rest => if p = .char ']' then .ok rest else .error (.next .trailingText (p :: rest))

/-- The value of a field after all members have been read. -/
def settle (d : Draft) (rest : List Piece) (f : Field) : Except Stop f.Value :=
  match d f with
  | some v => .ok v
  | none =>
    match f.absent? with
    | some v => .ok v
    | none => .error (.misfit (.missing f.name) rest)

def ofDraft (d : Draft) (rest : List Piece) : Except Stop (Record × List Piece) := do
  let id ← settle d rest .id
  let taskType ← settle d rest .taskType
  let queue ← settle d rest .queue
  let payload ← settle d rest .payload
  let status ← settle d rest .status
  let errorMessage ← settle d rest .errorMessage
  let resultPayload ← settle d rest .resultPayload
  let createdAt ← settle d rest .createdAt
  let enqueuedAt ← settle d rest .enqueuedAt
  let startedAt ← settle d rest .startedAt
  let finishedAt ← settle d rest .finishedAt
  return (⟨id, taskType, queue, payload, status, errorMessage, resultPayload, createdAt,
    enqueuedAt, startedAt, finishedAt⟩, rest)

def reader (s : List Piece) : Except Stop (Record × List Piece) :=
  match skipGap s with
  | [] => .error (.next .endInValue [])
  | p :: rest =>
    if p = .char '[' then do
      let (d, rest) ← readItems true 0 Field.all (fun _ => none) rest
      let rest ← listEnd rest
      ofDraft d rest
    else if p = .char '\x7b' then do
      let (d, rest) ← readMembers (rest.length + 1) true (fun _ => none) rest
      ofDraft d rest
    else .error (unwanted "struct TaskRecord" (p :: rest))

def ofJsonText (text : String) : Except Json.Error Record :=
  readAll reader (Piece.ofText text)

end TaskAudit.Record
