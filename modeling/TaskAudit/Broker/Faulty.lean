import TaskAudit.Broker

/-!
# Brokers that fail

`refusing` takes no task. `Faulty` stands before another broker: a number of
deliveries are not even asked for, a number of reports are passed on and their
answers lost, and the ids of the delivered tasks can be withheld.
-/
namespace TaskAudit

/-- A broker that takes no task and has none. -/
def Broker.refusing {β : Type} : Broker β where
  enqueue _ _ _ queue _ := return .error (.broker s!"queue {queue} unavailable")
  dequeue _ _ := return .ok none
  ack _ := return .ok ()
  fail _ _ _ := return .settled
  close := return .ok ()

/-- The broker behind, and how many deliveries and reports are still to fail. -/
structure Faulty (β : Type) where
  inner : β
  dequeueFaults : Nat := 0
  reportFaults : Nat := 0

namespace Faulty

variable {β α : Type}

def pass (a : Action β α) : Action (Faulty β) α := fun s =>
  let e := a s.inner
  ⟨e.value, { s with inner := e.state }, e.events⟩

def losesAnswer : Action (Faulty β) Bool := do
  let s ← .get
  if s.reportFaults = 0 then return false
  else
    .set { s with reportFaults := s.reportFaults - 1 }
    return true

def ack (b : Broker β) (receipt : Receipt) : Action (Faulty β) (Except Error Unit) := do
  let answer ← pass (b.ack receipt)
  if ← losesAnswer then return .error (.broker "ack lost") else return answer

def fail (b : Broker β) (now : Now) (receipt : Receipt) (error : String) :
    Action (Faulty β) Verdict := do
  match ← pass (b.fail now receipt error) with
  | .aborted => return .aborted
  | verdict =>
    if ← losesAnswer then return .refused (.broker "fail lost") else return verdict

def withoutId (d : Delivery) : Delivery := { d with context := { d.context with taskId := none } }

def dequeue (b : Broker β) (keepIds : Bool) (now : Now) (queues : List String) :
    Action (Faulty β) (Except Error (Option Delivery)) := do
  let s ← .get
  if s.dequeueFaults = 0 then
    let answer ← pass (b.dequeue now queues)
    return if keepIds then answer else answer.map (·.map withoutId)
  else
    .set { s with dequeueFaults := s.dequeueFaults - 1 }
    return .error (.broker "connection lost")

def broker (b : Broker β) (keepIds : Bool) : Broker (Faulty β) where
  enqueue id now task queue maxRetry := pass (b.enqueue id now task queue maxRetry)
  dequeue := dequeue b keepIds
  ack := ack b
  fail := fail b
  close := pass b.close

end Faulty

end TaskAudit
