import TaskAudit.Action

/-!
# Servers of message queues

A server keeps messages in queues. A message that was read stays where it is and
is out of sight for some seconds; it is gone only when it is archived. All times
are in seconds.
-/
namespace TaskAudit

structure Message where
  msgId : Int
  readCount : Int32
  body : String
  deriving DecidableEq, Repr

/-- The operations of a server with a state of type `δ`. -/
structure QueueServer (δ : Type) where
  create : (queue : String) → Action δ (Except DatabaseFault Unit)
  send : (queue body : String) → (delay : Int) → Action δ (Except DatabaseFault Unit)
  read : (queue : String) → (outOfSight : Int) → Action δ (Except DatabaseFault (Option Message))
  archive : (queue : String) → (msgId : Int) → Action δ (Except DatabaseFault Unit)
  hide : (queue : String) → (msgId : Int) → (delay : Int) → Action δ (Except DatabaseFault Unit)
  close : Action δ Unit

end TaskAudit
