import TaskAudit.Broker
import TaskAudit.Submission.Payload
import TaskAudit.Trail

/-!
# Submitting tasks

A submitter writes the payload as JSON and hands the task to the broker. Whether the
task was submitted is for the broker to say; the record that the submitter then
leaves in the trail is a matter of best effort.
-/
namespace TaskAudit

structure SubmitOptions where
  queue : Option String := none
  maxRetry : Option UInt32 := none
  deriving DecidableEq, Repr

/-- What a submission takes from outside: the id for the task and the readings of
the clocks, at the broker and before each write to the trail. -/
structure Surroundings where
  id : String
  atBroker : Now
  atInsert : Timestamp
  atMark : Timestamp
  deriving DecidableEq, Repr

/-- A submitter's way to a broker and perhaps to a trail. -/
structure Submitter (β σ : Type) where
  broker : Broker β
  trail : Option (Trail σ)
  defaultQueue : String

namespace Submitter

variable {β σ α : Type}

/-- A submitter; an empty default queue stands for the usual one. -/
def new (broker : Broker β) (trail : Option (Trail σ)) (defaultQueue : String := "") :
    Submitter β σ where
  broker := broker
  trail := trail
  defaultQueue := if defaultQueue = "" then TaskAudit.defaultQueue else defaultQueue

def queueOf (c : Submitter β σ) (options : SubmitOptions) : String :=
  (options.queue.filter (· ≠ "")).getD c.defaultQueue

def writes (accepted : Accepted) (taskType payload : String) (around : Surroundings) :
    List Write :=
  [.created (.ofNewTask accepted.id taskType accepted.queue payload around.atInsert),
    .enqueued accepted.id accepted.queue around.atMark]

def leaveRecord (trail : Option (Trail σ)) (id : String) (writes : List Write) :
    Action σ Unit :=
  match trail with
  | none => .note (.notRecorded id)
  | some trail => writes.forM fun w => do
    let _ ← trail.record w

/-- Submits a task whose payload is written already. -/
def submitText (c : Submitter β σ) (around : Surroundings) (taskType payload : String)
    (options : SubmitOptions) : Action (β × σ) (Except Error Accepted) := do
  let task : Task := ⟨taskType, payload.toUTF8⟩
  let maxRetry := options.maxRetry.getD defaultMaxRetry
  match ← .onFst (c.broker.enqueue around.id around.atBroker task (c.queueOf options) maxRetry) with
  | .error e =>
    .count (.enqueued taskType false)
    return .error e
  | .ok accepted =>
    .count (.enqueued taskType true)
    .note (.taskEnqueued accepted.id taskType accepted.queue)
    .onSnd (leaveRecord c.trail accepted.id (writes accepted taskType payload around))
    return .ok accepted

def submit [Submittable α] (c : Submitter β σ) (around : Surroundings) (taskType : String)
    (payload : α) (options : SubmitOptions) : Action (β × σ) (Except Error Accepted) :=
  match Submittable.text payload with
  | .error fault => return .error (.serialization fault)
  | .ok text => c.submitText around taskType text options

def close (c : Submitter β σ) : Action (β × σ) (Except Error Unit) := .onFst c.broker.close

end Submitter

end TaskAudit
