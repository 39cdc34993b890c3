import TaskAudit.Broker

/-!
# A broker in memory

The tasks that wait stand in one list in the order of their arrival; a queue is
the part of it that bears its name. A delivery moves a task from there to the
deliveries in flight, under a number that was never used before. A report of a
delivery that is not in flight changes nothing, so a receipt can be used once. A
task whose delivery failed goes back to the end of its queue, to be delivered
after a delay, until its retries are used up and it is dead.
-/
namespace TaskAudit

structure Entry where
  taskId : String
  task : Task
  maxRetry : UInt32
  retryCount : UInt32
  readyAt : Moment
  deriving DecidableEq

structure Waiting where
  queue : String
  entry : Entry
  deriving DecidableEq

def Waiting.isReady (queue : String) (now : Moment) (w : Waiting) : Bool :=
  w.queue = queue && w.entry.readyAt ≤ now

/-- The state of the broker. `issued` counts the deliveries; it is meant to stay
below 2^63, the numbers that a receipt can show. -/
structure Backlog where
  waiting : List Waiting := []
  inFlight : List (Int × Entry) := []
  dead : List Entry := []
  issued : Nat := 0
  closed : Bool := false
  deriving DecidableEq

namespace Backlog

/-- The tasks that wait in a queue, ready or not, in the order of their arrival. -/
def inQueue (s : Backlog) (queue : String) : List Entry :=
  (s.waiting.filter (·.queue = queue)).map Waiting.entry

def length (s : Backlog) (queue : String) : Nat := (s.inQueue queue).length

def isEmpty (s : Backlog) (queue : String) : Bool := s.length queue = 0

def inFlightCount (s : Backlog) : Nat := s.inFlight.length

def deadCount (s : Backlog) : Nat := s.dead.length

def takeReady (queue : String) (now : Moment) : List Waiting → Option (Entry × List Waiting)
  | [] => none
  | w :: ws =>
    if w.isReady queue now then some (w.entry, ws)
    else (takeReady queue now ws).map fun r => (r.1, w :: r.2)

/-- Takes the first ready task of the first queue that has one. -/
def takeFirst (now : Moment) (ws : List Waiting) :
    List String → Option (String × Entry × List Waiting)
  | [] => none
  | q :: qs =>
    match takeReady q now ws with
    | some (e, rest) => some (q, e, rest)
    | none => takeFirst now ws qs

def takeFlight (msgId : Int) : List (Int × Entry) → Option (Entry × List (Int × Entry))
  | [] => none
  | f :: fs =>
    if f.1 = msgId then some (f.2, fs)
    else (takeFlight msgId fs).map fun r => (r.1, f :: r.2)

def delivery (queue : String) (msgId : Int) (e : Entry) : Delivery where
  task := e.task
  context := ⟨some e.taskId, queue, e.retryCount, e.maxRetry⟩
  receipt := ⟨queue, msgId, e.retryCount, e.maxRetry⟩

/-- The first moment that a clock cannot show: its seconds are 63 bits wide. -/
def endOfTime : Moment := Nat.pow 2 63 * 1000000000

/-- The moment after a delay, if a clock can show it. -/
def after? (now : Moment) (delay : Span) : Option Moment :=
  if now + delay.nanos < endOfTime then some (now + delay.nanos) else none

def enqueue (id : String) (now : Now) (task : Task) (queue : String) (maxRetry : UInt32) :
    Action Backlog (Except Error Accepted) := fun s =>
  if s.closed then ⟨.error (.broker "memory broker is closed"), s, []⟩
  else
    let entry : Entry := ⟨id, task, maxRetry, 0, now.moment⟩
    ⟨.ok ⟨id, queue, task.taskType, maxRetry, now.time⟩,
      { s with waiting := s.waiting ++ [⟨queue, entry⟩] }, []⟩

def dequeue (now : Now) (queues : List String) :
    Action Backlog (Except Error (Option Delivery)) := fun s =>
  if s.closed then ⟨.ok none, s, []⟩
  else match takeFirst now.moment s.waiting queues with
    | none => ⟨.ok none, s, []⟩
    | some (queue, entry, rest) =>
      let msgId : Int := s.issued + 1
      ⟨.ok (some (delivery queue msgId entry)),
        { s with
          waiting := rest
          inFlight := s.inFlight ++ [(msgId, entry)]
          issued := s.issued + 1 }, []⟩

def ack (receipt : Receipt) : Action Backlog (Except Error Unit) := fun s =>
  match takeFlight receipt.msgId s.inFlight with
  | none => ⟨.ok (), s, [.notice (.unknownAck receipt.msgId)]⟩
  | some (_, rest) => ⟨.ok (), { s with inFlight := rest }, []⟩

/-- A delivery failed: its task waits again or is dead. The delivery leaves those
in flight before the moment of the next one is worked out; if no clock can show
that moment, the report is aborted there. -/
def fail (delay : Span) (now : Now) (receipt : Receipt) (error : String) :
    Action Backlog Verdict := fun s =>
  match takeFlight receipt.msgId s.inFlight with
  | none => ⟨.settled, s, [.notice (.unknownFail receipt.msgId)]⟩
  | some (entry, rest) =>
    if entry.maxRetry ≤ entry.retryCount then
      ⟨.settled, { s with inFlight := rest, dead := s.dead ++ [entry] },
        [.notice (.retriesExhausted entry.taskId receipt.queue error)]⟩
    else match after? now.moment delay with
      | none => ⟨.aborted, { s with inFlight := rest }, []⟩
      | some readyAt =>
        let entry := { entry with retryCount := entry.retryCount + 1, readyAt }
        ⟨.settled,
          { s with inFlight := rest, waiting := s.waiting ++ [⟨receipt.queue, entry⟩] }, []⟩

def close : Action Backlog (Except Error Unit) := fun s => ⟨.ok (), { s with closed := true }, []⟩

def broker (delay : Span) : Broker Backlog where
  enqueue := enqueue
  dequeue := dequeue
  ack := ack
  fail := fail delay
  close := close

end Backlog

end TaskAudit
