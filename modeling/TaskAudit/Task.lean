import TaskAudit.Time.Timestamp

/-!
# Tasks and their deliveries

A task is a type, which decides who handles it, and a payload of bytes. A broker
accepts tasks and delivers them; a delivery tells the handler its context and the
worker the receipt by which the outcome is reported.
-/
namespace TaskAudit

/-- The queue of tasks for which nobody names one. -/
def defaultQueue : String := "default"

/-- The number of deliveries after the first that a task gets if nobody names one. -/
def defaultMaxRetry : UInt32 := 25

/-- A unit of work. -/
@[ext]
structure Task where
  taskType : String
  payload : ByteArray

instance : DecidableEq Task := fun a b =>
  decidable_of_iff (a.taskType = b.taskType ∧ a.payload.data = b.payload.data)
    ⟨fun h => Task.ext h.1 (ByteArray.ext h.2), fun h => by simp [h]⟩

structure Accepted where
  id : String
  queue : String
  taskType : String
  maxRetry : UInt32
  acceptedAt : Timestamp
  deriving DecidableEq, Repr

/-- What a handler can learn about a delivery. -/
structure Context where
  taskId : Option String := none
  queue : String := ""
  retryCount : UInt32 := 0
  maxRetry : UInt32 := 0
  deriving DecidableEq, Repr

/-- The handle by which one delivery is reported; `retryCount` is the number of
deliveries before it. -/
structure Receipt where
  queue : String
  msgId : Int
  retryCount : UInt32
  maxRetry : UInt32
  deriving DecidableEq, Repr

/-- A task handed to a worker. -/
structure Delivery where
  task : Task
  context : Context
  receipt : Receipt
  deriving DecidableEq

end TaskAudit
