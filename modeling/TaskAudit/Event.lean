import TaskAudit.Status
import TaskAudit.Time.Span
import TaskAudit.Weights

/-!
# What the operations tell

Operations report what they did: notices for a log, measures for counters, and
the span of each delivery. An event is data; its wording is here and nowhere
else, so that a statement about an operation can speak of its events.
-/
namespace TaskAudit

inductive Level where
  | debug
  | info
  | warn
  | error
  deriving DecidableEq, Repr

def Level.name : Level → String
  | debug => "debug"
  | info => "info"
  | warn => "warn"
  | error => "error"

/-- Something worth a line in a log. -/
inductive Notice where
  | taskEnqueued (id taskType queue : String)
  | notRecorded (id : String)
  | writeFailed (operation id error : String)
  | noRecordMatched (id : String) (status : Status)
  | unknownAck (msgId : Int)
  | unknownFail (msgId : Int)
  | retriesExhausted (id queue error : String)
  | unroutable (queue : String) (msgId : Int) (reason : String)
  | archivedExhausted (queue : String) (msgId : Int) (retryCount : UInt32) (error : String)
  | poolStarted (concurrency : Nat) (queues : Weights)
  | dequeueFailed (error : String)
  | handlerFailed (error : String) (retryCount : UInt32)
  | reportFailed (queue : String) (msgId : Int) (error : String)
  | poolDraining
  | poolStopped
  | poolAbandoned (timeout : Span)
  | echoed (id taskType payload : String)
  deriving DecidableEq, Repr

namespace Notice

def level : Notice → Level
  | notRecorded .. | noRecordMatched .. | unknownAck .. | unknownFail .. => .debug
  | taskEnqueued .. | poolStarted .. | poolDraining | poolStopped | echoed .. => .info
  | reportFailed .. => .error
  | _ => .warn

def message : Notice → String
  | taskEnqueued .. => "task enqueued"
  | notRecorded .. => "no store configured, skipping audit record"
  | writeFailed .. => "audit write failed, continuing"
  | noRecordMatched .. => "update matched no task record"
  | unknownAck .. => "ack for unknown delivery"
  | unknownFail .. => "fail for unknown delivery"
  | retriesExhausted .. => "retries exhausted"
  | unroutable _ _ reason => s!"unroutable pgmq message, archiving: {reason}"
  | archivedExhausted .. => "retries exhausted, archiving"
  | poolStarted .. => "processor started"
  | dequeueFailed error => s!"dequeue failed: {error}, retrying after poll interval"
  | handlerFailed .. => "task handler failed"
  | reportFailed _ _ error => s!"broker outcome report failed: {error}"
  | poolDraining => "processor shutting down, waiting for in-flight tasks"
  | poolStopped => "processor stopped"
  | poolAbandoned .. => "shutdown timeout elapsed with tasks still running"
  | echoed .. => "echo"

def queuesText (queues : Weights) : String :=
  "[" ++ ", ".intercalate (queues.map fun q =>
    "(" ++ Text.quoted q.1 ++ ", " ++ Decimal.text q.2.toNat ++ ")") ++ "]"

def fields : Notice → List (String × String)
  | taskEnqueued id taskType queue =>
    [("task_id", id), ("task_type", taskType), ("queue", queue)]
  | notRecorded id => [("task_id", id)]
  | writeFailed operation id error =>
    [("operation", operation), ("task_id", id), ("error", error)]
  | noRecordMatched id status =>
    [("task_id", id), ("status", status.name), ("rows_affected", "0")]
  | unknownAck msgId | unknownFail msgId => [("msg_id", Decimal.signedText msgId)]
  | retriesExhausted id queue error => [("task_id", id), ("queue", queue), ("error", error)]
  | unroutable queue msgId _ => [("queue", queue), ("msg_id", Decimal.signedText msgId)]
  | archivedExhausted queue msgId retryCount error =>
    [("queue", queue), ("msg_id", Decimal.signedText msgId),
      ("retry_count", Decimal.text retryCount.toNat), ("error", error)]
  | poolStarted concurrency queues =>
    [("concurrency", Decimal.text concurrency), ("queues", queuesText queues)]
  | handlerFailed error retryCount =>
    [("error", error), ("retry_count", Decimal.text retryCount.toNat)]
  | reportFailed queue msgId _ => [("queue", queue), ("msg_id", Decimal.signedText msgId)]
  | poolAbandoned timeout => [("timeout", timeout.text)]
  | echoed id taskType payload =>
    [("task_id", id), ("task_type", taskType), ("payload", payload)]
  | dequeueFailed .. | poolDraining | poolStopped => []

end Notice

/-- What a queue of messages was used for. -/
inductive QueueUse where
  | create
  | read
  | readEmpty
  | archive
  | send
  | retry
  deriving DecidableEq, Repr

def QueueUse.name : QueueUse → String
  | create => "create"
  | read => "read"
  | readEmpty => "read_empty"
  | archive => "archive"
  | send => "send"
  | retry => "retry"

/-- Something that is counted. -/
inductive Measure where
  | enqueued (taskType : String) (accepted : Bool)
  | transition (status : Status)
  | writeFailure (operation : String)
  | queueUse (queue : String) (use : QueueUse)
  | duration (taskType : String) (outcome : Status)
  deriving DecidableEq, Repr

namespace Measure

def instrument : Measure → String
  | enqueued .. => "tasktrail.tasks.enqueued"
  | transition .. => "tasktrail.lifecycle.transitions"
  | writeFailure .. => "tasktrail.audit.write_failures"
  | queueUse .. => "tasktrail.queue.operations"
  | duration .. => "tasktrail.task.duration_ms"

def attributes : Measure → List (String × String)
  | enqueued taskType accepted =>
    [("result", if accepted then "ok" else "error"), ("task_type", taskType)]
  | transition status => [("to", status.name)]
  | writeFailure operation => [("operation", operation)]
  | queueUse queue use => [("operation", use.name), ("queue", queue)]
  | duration taskType outcome => [("outcome", outcome.name), ("task_type", taskType)]

end Measure

inductive Event where
  | notice (n : Notice)
  | measure (m : Measure)
  | spanOpened (taskType id queue : String)
  | spanOutcome (outcome : String)
  deriving DecidableEq, Repr

namespace Event

def spanName : String := "task.process"

def measures (es : List Event) : List Measure :=
  es.filterMap fun
    | .measure m => some m
    | _ => none

def notices (es : List Event) : List Notice :=
  es.filterMap fun
    | .notice n => some n
    | _ => none

end Event

end TaskAudit
