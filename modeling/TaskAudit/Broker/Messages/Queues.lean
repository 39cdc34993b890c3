import TaskAudit.Broker.Messages.Server
import TaskAudit.Named

/-!
# Message queues in the process

A server of message queues with a clock of its own. The messages of a queue are
numbered from one and stand in the order of their numbers; reading takes the first
one that is in sight and puts it out of sight.
-/
namespace TaskAudit

/-- A message in a queue; it is in sight from `visibleAt` on. -/
structure QueuedMessage where
  msgId : Int
  readCount : Int32
  visibleAt : Int
  body : String
  deriving DecidableEq, Repr

/-- A queue: its messages, the numbers of those archived, and how many there were. -/
structure MessageQueue where
  messages : List QueuedMessage := []
  archived : List Int := []
  issued : Nat := 0
  deriving DecidableEq, Repr

namespace MessageQueue

def push (q : MessageQueue) (readCount : Int32) (visibleAt : Int) (body : String) :
    MessageQueue :=
  { q with
    messages := q.messages ++ [⟨q.issued + 1, readCount, visibleAt, body⟩]
    issued := q.issued + 1 }

/-- A count of reads after one more, unless it is as high as it can be. -/
def oneMore (n : Int32) : Int32 := if n = Int32.maxValue then n else n + 1

def readFirst (clock outOfSight : Int) :
    List QueuedMessage → Option (Message × List QueuedMessage)
  | [] => none
  | m :: ms =>
    if m.visibleAt ≤ clock then
      let m := { m with readCount := oneMore m.readCount, visibleAt := clock + outOfSight }
      some (⟨m.msgId, m.readCount, m.body⟩, m :: ms)
    else (readFirst clock outOfSight ms).map fun r => (r.1, m :: r.2)

def archive (q : MessageQueue) (msgId : Int) : MessageQueue :=
  if q.messages.any (·.msgId = msgId) then
    { q with
      messages := q.messages.filter (·.msgId ≠ msgId)
      archived := q.archived ++ [msgId] }
  else q

def hide (q : MessageQueue) (msgId time : Int) : MessageQueue :=
  { q with
    messages := q.messages.map fun m =>
      if m.msgId = msgId then { m with visibleAt := time } else m }

end MessageQueue

/-- The queues of a server and its clock. -/
structure Queues where
  clock : Int := 0
  queues : List (String × MessageQueue) := []
  deriving DecidableEq, Repr

namespace Queues

def noQueue (queue : String) : DatabaseFault :=
  .engine ("relation \"pgmq.q_" ++ queue ++ "\" does not exist")

def queue (s : Queues) (name : String) : MessageQueue := (Named.find? name s.queues).getD {}

def put (s : Queues) (name : String) (q : MessageQueue) : Queues :=
  { s with queues := Named.insert name q s.queues }

def within {α : Type} (name : String) (f : Int → MessageQueue → α × MessageQueue) :
    Action Queues (Except DatabaseFault α) := fun s =>
  match Named.find? name s.queues with
  | none => ⟨.error (noQueue name), s, []⟩
  | some q =>
    let (answer, q) := f s.clock q
    ⟨.ok answer, s.put name q, []⟩

def server : QueueServer Queues where
  create name := fun s => ⟨.ok (), s.put name (s.queue name), []⟩
  send name body delay := within name fun clock q => ((), q.push 0 (clock + delay) body)
  read name outOfSight := within name fun clock q =>
    match MessageQueue.readFirst clock outOfSight q.messages with
    | none => (none, q)
    | some (m, messages) => (some m, { q with messages })
  archive name msgId := within name fun _ q => ((), q.archive msgId)
  hide name msgId delay := within name fun clock q => ((), q.hide msgId (clock + delay))
  close := pure ()

def seed (s : Queues) (name : String) (body : String) (readCount : Int32) : Queues :=
  s.put name ((s.queue name).push readCount s.clock body)

def tick (s : Queues) (seconds : Int) : Queues := { s with clock := s.clock + seconds }

end Queues

end TaskAudit
