import TaskAudit.Broker
import TaskAudit.Broker.Messages.Envelope
import TaskAudit.Broker.Messages.Server
import TaskAudit.Json.Printer

/-!
# A broker over message queues

A task is sent as a message. A delivery is a message that was read and is out of
sight until it is archived, because its task is done or given up, or seen again,
because its task failed or nobody reported. How often the task failed before
follows from how often its message was read. A message without an envelope is
archived, and the next queue is asked.
-/
namespace TaskAudit.Messages

/-- For how many seconds a message is out of sight after it was read, and after
its task failed. -/
structure Settings where
  visibilityTimeout : Int := 60
  retryDelay : Int := 10
  deriving DecidableEq, Repr

variable {δ : Type} (server : QueueServer δ) (settings : Settings)

def countUse (queue : String) (use : QueueUse) : Action δ Unit := .count (.queueUse queue use)

def counted (queue : String) (use : QueueUse) (a : Action δ (Except DatabaseFault Unit)) :
    Action δ (Except Error Unit) := do
  match ← a with
  | .error fault => return .error (.storage fault)
  | .ok () =>
    countUse queue use
    return .ok ()

def makeQueue (queue : String) : Action δ (Except Error Unit) :=
  counted queue .create (server.create queue)

def archive (queue : String) (msgId : Int) : Action δ (Except Error Unit) :=
  counted queue .archive (server.archive queue msgId)

/-- The value of a message; it is the third column of what is read. -/
def bodyOf (m : Message) : Except DatabaseFault Json :=
  (Json.read m.body).mapError fun e => .column "2" e.message

def readNext (queue : String) : Action δ (Except Error (Option (Message × Json))) := do
  match ← server.read queue settings.visibilityTimeout with
  | .error fault => return .error (.storage fault)
  | .ok none =>
    countUse queue .readEmpty
    return .ok none
  | .ok (some m) =>
    match bodyOf m with
    | .error fault => return .error (.storage fault)
    | .ok body =>
      countUse queue .read
      return .ok (some (m, body))

/-- How often the task of a message was delivered before. -/
def retryCount (m : Message) : UInt32 := UInt32.ofNat (m.readCount.toInt - 1).toNat

def delivery (queue : String) (m : Message) (e : Envelope) : Delivery where
  task := ⟨e.taskType, e.payload.compact.toUTF8⟩
  context := ⟨e.taskId, queue, retryCount m, e.maxRetry⟩
  receipt := ⟨queue, m.msgId, retryCount m, e.maxRetry⟩

/-- Delivers the message of the first queue whose message has an envelope. -/
def dequeue : List String → Action δ (Except Error (Option Delivery))
  | [] => return .ok none
  | queue :: queues => do
    match ← readNext server settings queue with
    | .error e => return .error e
    | .ok none => dequeue queues
    | .ok (some (m, body)) =>
      match Envelope.ofJson body with
      | .ok e => return .ok (some (delivery queue m e))
      | .error fault =>
        .note (.unroutable queue m.msgId fault.message)
        match ← archive server queue m.msgId with
        | .error e => return .error e
        | .ok () => dequeue queues

def enqueue (id : String) (now : Now) (task : Task) (queue : String) (maxRetry : UInt32) :
    Action δ (Except Error Accepted) := do
  match Json.readBytes task.payload with
  | .error fault => return .error (.serialization fault)
  | .ok payload =>
    let envelope : Envelope := ⟨some id, task.taskType, payload, maxRetry⟩
    match ← server.send queue envelope.toJson.compact 0 with
    | .error fault =>
      return .error (.broker s!"pgmq.send to {queue} failed: {fault.message}")
    | .ok () =>
      countUse queue .send
      return .ok ⟨id, queue, task.taskType, maxRetry, now.time⟩

def ack (receipt : Receipt) : Action δ (Except Error Unit) :=
  archive server receipt.queue receipt.msgId

/-- A delivery failed: its message is seen again after a delay, or archived if the
retries are used up. -/
def fail (receipt : Receipt) (error : String) : Action δ (Except Error Unit) := do
  if receipt.maxRetry ≤ receipt.retryCount then
    .note (.archivedExhausted receipt.queue receipt.msgId receipt.retryCount error)
    archive server receipt.queue receipt.msgId
  else
    counted receipt.queue .retry
      (server.hide receipt.queue receipt.msgId settings.retryDelay)

def close : Action δ (Except Error Unit) := do
  server.close
  return .ok ()

def broker : Broker δ where
  enqueue := enqueue server
  dequeue _ queues := dequeue server settings queues
  ack := ack server
  fail _ receipt error := return .ofAnswer (← fail server settings receipt error)
  close := close server

end TaskAudit.Messages
