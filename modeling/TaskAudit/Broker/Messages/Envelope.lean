import TaskAudit.Json.Extract
import TaskAudit.Task

/-!
# Envelopes

A message carries a task in an envelope, a JSON object with the id, the type, the
payload and the retries of the task. Only the type is required. An envelope may
also be a list of these values in that order, cut short behind the type or later.
-/
namespace TaskAudit

/-- A task as a message carries it. -/
structure Envelope where
  taskId : Option String := none
  taskType : String
  payload : Json := .null
  maxRetry : UInt32 := defaultMaxRetry

namespace Envelope

def toJson (e : Envelope) : Json :=
  .obj [("max_retry", .int e.maxRetry.toNat), ("payload", e.payload),
    ("task_id", match e.taskId with
      | none => .null
      | some id => .str id),
    ("task_type", .str e.taskType)]

structure Draft where
  taskId : Option String := none
  taskType : Option String := none
  payload : Json := .null
  maxRetry : UInt32 := defaultMaxRetry

def Draft.toEnvelope (d : Draft) (fault : Json.Mismatch) : Except Json.Mismatch Envelope :=
  match d.taskType with
  | none => .error fault
  | some taskType => .ok { d with taskType }

/-- Adds a member to a draft; a member of another name says nothing. -/
def Draft.withMember (d : Draft) (name : String) (v : Json) : Except Json.Mismatch Draft :=
  if name = "task_id" then do
    let taskId ← v.toOption Json.toText
    return { d with taskId }
  else if name = "task_type" then do
    let taskType ← v.toText
    return { d with taskType := some taskType }
  else if name = "payload" then .ok { d with payload := v }
  else if name = "max_retry" then do
    let maxRetry ← v.toCount
    return { d with maxRetry }
  else .ok d

def names : List String := ["task_id", "task_type", "payload", "max_retry"]

def wanted : String := "struct Envelope"

/-- The envelope that a JSON value stands for. -/
def ofJson : Json → Except Json.Mismatch Envelope
  | .obj members => do
    let d ← members.foldlM (fun d m => Draft.withMember d m.1 m.2) {}
    d.toEnvelope (.missing "task_type")
  | .arr items => do
    let d ← (names.zip items).foldlM (fun d m => Draft.withMember d m.1 m.2) {}
    let e ← d.toEnvelope (.wrongLength 1 (wanted ++ " with 4 elements"))
    if names.length < items.length then
      .error (.wrongLength items.length "fewer elements in array")
    else .ok e
  | v => .error (.wrongType v.found wanted)

end Envelope

end TaskAudit
