import TaskAudit.Action
import TaskAudit.Task

/-!
# Brokers

A broker accepts tasks, delivers them and decides what becomes of a task whose
handler failed. Everything that it takes from outside is an argument of its
operations: the id of a task that it accepts and the readings of the clocks. A
report of a failure may be aborted, and then nobody gets an answer.
-/
namespace TaskAudit

/-- A reading of a clock that never goes back, in nanoseconds. -/
abbrev Moment := Nat

structure Now where
  moment : Moment
  time : Timestamp
  deriving DecidableEq, Repr

/-- How a report of a failure ends: settled, refused, or aborted without an answer. -/
inductive Verdict where
  | settled
  | refused (error : Error)
  | aborted
  deriving DecidableEq, Repr

def Verdict.ofAnswer : Except Error Unit → Verdict
  | .ok () => settled
  | .error e => refused e

/-- The operations of a broker with a state of type `β`. -/
structure Broker (β : Type) where
  enqueue : (id : String) → Now → Task → (queue : String) → (maxRetry : UInt32) →
    Action β (Except Error Accepted)
  dequeue : Now → (queues : List String) → Action β (Except Error (Option Delivery))
  ack : Receipt → Action β (Except Error Unit)
  fail : Now → Receipt → (error : String) → Action β Verdict
  close : Action β (Except Error Unit)

end TaskAudit
