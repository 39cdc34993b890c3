import TaskAudit.Broker.Messages.Queues

/-!
# A server under observation

Message queues in the process whose statements are written down and can be made to
fail. A fault is looked at before the queue, and a closed server is not asked at
all. It also counts how many readings in a row have found nothing.
-/
namespace TaskAudit

inductive Call where
  | create (queue : String)
  | send (queue body : String) (delay : Int)
  | read (queue : String) (outOfSight : Int)
  | archive (queue : String) (msgId : Int)
  | hide (queue : String) (msgId delay : Int)
  deriving DecidableEq, Repr

def Call.function : Call → String
  | create .. => "create"
  | send .. => "send"
  | read .. => "read"
  | archive .. => "archive"
  | hide .. => "set_vt"

/-- How often a function will fail, and with what message. -/
structure Planned where
  times : Nat
  text : String
  deriving DecidableEq, Repr

structure Rehearsal where
  queues : Queues := {}
  faults : List (String × Planned) := []
  calls : List Call := []
  emptyReads : Nat := 0
  closed : Bool := false
  deriving DecidableEq, Repr

namespace Rehearsal

/-- The message of the fault that a statement meets, and the faults left, if it meets
one. -/
def due (s : Rehearsal) (call : Call) : Option (String × List (String × Planned)) :=
  match Named.find? call.function s.faults with
  | none => none
  | some p =>
    if p.times = 0 then none
    else some (p.text, Named.insert call.function { p with times := p.times - 1 } s.faults)

/-- Plans faults of a function, in place of those planned before. -/
def plan (s : Rehearsal) (function text : String) (times : Nat) : Rehearsal :=
  { s with faults := Named.insert function ⟨times, text⟩ s.faults }

def sending {α : Type} (call : Call) (a : Action Queues (Except DatabaseFault α)) :
    Action Rehearsal (Except DatabaseFault α) := fun s =>
  if s.closed then ⟨.error .closed, s, []⟩
  else
    let s := { s with calls := s.calls ++ [call] }
    match s.due call with
    | some (text, faults) => ⟨.error (.engine text), { s with faults }, []⟩
    | none =>
      let e := a s.queues
      ⟨e.value, { s with queues := e.state }, e.events⟩

/-- Counts the readings that found nothing since the last that found something. -/
def watching (a : Action Rehearsal (Except DatabaseFault (Option Message))) :
    Action Rehearsal (Except DatabaseFault (Option Message)) := fun s =>
  let e := a s
  let emptyReads := match e.value with
    | .ok none => e.state.emptyReads + 1
    | .ok (some _) => 0
    | .error _ => e.state.emptyReads
  { e with state := { e.state with emptyReads } }

def server : QueueServer Rehearsal where
  create name := sending (.create name) (Queues.server.create name)
  send name body delay := sending (.send name body delay) (Queues.server.send name body delay)
  read name outOfSight :=
    watching (sending (.read name outOfSight) (Queues.server.read name outOfSight))
  archive name msgId := sending (.archive name msgId) (Queues.server.archive name msgId)
  hide name msgId delay := sending (.hide name msgId delay) (Queues.server.hide name msgId delay)
  close := fun s => ⟨(), { s with closed := true }, []⟩

end Rehearsal

end TaskAudit
