import TaskAudit.Status
import TaskAudit.Time.Timestamp

/-!
# Task records

A task record is what the audit trail knows about one task: what it is, where it
was queued and how far it came.
-/
namespace TaskAudit

/-- The record of one task. -/
structure Record where
  id : String
  taskType : String
  queue : String
  payload : String
  status : Status
  errorMessage : Option String
  resultPayload : Option String
  createdAt : Timestamp
  enqueuedAt : Timestamp
  startedAt : Option Timestamp
  finishedAt : Option Timestamp
  deriving DecidableEq, Repr

namespace Record

/-- The record of a task that a broker has just accepted. -/
def ofNewTask (id taskType queue payload : String) (now : Timestamp) : Record where
  id := id
  taskType := taskType
  queue := queue
  payload := payload
  status := .created
  errorMessage := none
  resultPayload := none
  createdAt := now
  enqueuedAt := now
  startedAt := none
  finishedAt := none

/-- Which records a listing wants; an absent condition holds of every record. -/
structure Filter where
  status : Option Status := none
  taskType : Option String := none
  deriving DecidableEq, Repr

def Filter.Accepts (f : Filter) (r : Record) : Prop :=
  (∀ s ∈ f.status, r.status = s) ∧ (∀ t ∈ f.taskType, r.taskType = t)

end Record

end TaskAudit
