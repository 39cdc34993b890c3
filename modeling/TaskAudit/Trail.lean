import TaskAudit.Action
import TaskAudit.Record

/-!
# The audit trail

Five writes follow a task through its life. The queue decides what happens to a
task; the trail only keeps what happened, so a write that fails is told and
counted and then forgotten.
-/
namespace TaskAudit

/-- A write to the audit trail. -/
inductive Write where
  | created (record : Record)
  | enqueued (id queue : String) (time : Timestamp)
  | started (id : String) (time : Timestamp)
  | completed (id : String) (result : Option String) (time : Timestamp)
  | failed (id message : String) (time : Timestamp)
  deriving DecidableEq, Repr

namespace Write

def operation : Write → String
  | created .. => "insert_created"
  | enqueued .. => "mark_enqueued"
  | started .. => "mark_started"
  | completed .. => "mark_completed"
  | failed .. => "mark_failed"

def id : Write → String
  | created r => r.id
  | enqueued id .. | started id .. | completed id .. | failed id .. => id

def target : Write → Status
  | created .. | enqueued .. => .created
  | started .. => .inProgress
  | completed .. => .completed
  | failed .. => .failed

end Write

/-- The operations of an audit trail with a state of type `σ`. -/
structure Trail (σ : Type) where
  write : Write → Action σ (Except Error Unit)

/-- Does a write and forgets its error. The answer is whether it succeeded. -/
def tolerate {σ : Type} (operation id : String) (write : Action σ (Except Error Unit)) :
    Action σ Bool := do
  match ← write with
  | .ok () => return true
  | .error e =>
    .note (.writeFailed operation id e.message)
    .count (.writeFailure operation)
    return false

namespace Trail

variable {σ : Type}

/-- Does a write to a trail and forgets its error. -/
def record (trail : Trail σ) (w : Write) : Action σ Bool :=
  tolerate w.operation w.id (trail.write w)

/-- Does a write if there is a trail and the task has an id. -/
def track (trail : Option (Trail σ)) (id : Option String) (w : String → Write) :
    Action σ Unit :=
  match trail, id with
  | some trail, some id => do
    let _ ← trail.record (w id)
  | _, _ => pure ()

end Trail

end TaskAudit
