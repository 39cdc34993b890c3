import TaskAudit.Broker
import TaskAudit.Worker.Lottery
import TaskAudit.Worker.Plan
import TaskAudit.Worker.Tracking

/-!
# The worker pool

The pool asks the broker for deliveries as long as a worker slot is free, and every
delivery has an execution of its own. What happens next is a choice: the loop
polls or wakes up, some execution takes its next step, the shutdown is heard, or
its time is over. A choice that is not possible does nothing, so every list of
choices is a run of the pool, and every interleaving is such a list.

A worker slot is taken by an execution from its delivery to the end of its report,
with an answer or without one.
-/
namespace TaskAudit.Worker

/-- How far an execution has come: its delivery arrived; its record is marked as
started; its handler will never end; its handler ended; its record is marked. -/
inductive Stage where
  | arrived
  | started
  | stuck
  | ended (outcome : Outcome)
  | marked (outcome : Outcome)
  deriving DecidableEq, Repr

structure Execution where
  number : Nat
  delivery : Delivery
  stage : Stage := .arrived
  deriving DecidableEq

/-- What the loop of the pool does: it looks for work, waits for the next poll,
waits for the executions after a shutdown, or has ended, with all executions done
or without them. -/
inductive Mode where
  | polling
  | idle
  | draining
  | stopped
  | abandoned
  deriving DecidableEq, Repr

/-- The state of a pool together with the states of what it works with. -/
structure Pool (β σ η : Type) where
  broker : β
  trail : σ
  handler : η
  mode : Mode := .polling
  running : List Execution := []
  taken : Nat := 0

/-- What a pool works with. -/
structure Crew (β σ η : Type) where
  broker : Broker β
  trail : Option (Trail σ)
  handler : Handler η
  plan : Plan

/-- What happens next. -/
inductive Choice where
  | poll (now : Now) (words : Words)
  | wake
  | advance (number : Nat) (now : Now)
  | shutdown
  | finish
  | expire
  deriving DecidableEq, Repr

namespace Pool

variable {β σ η α : Type}

def onBroker (a : Action β α) : Action (Pool β σ η) α := fun s =>
  let e := a s.broker
  ⟨e.value, { s with broker := e.state }, e.events⟩

def onTrail (a : Action σ α) : Action (Pool β σ η) α := fun s =>
  let e := a s.trail
  ⟨e.value, { s with trail := e.state }, e.events⟩

def onHandler (a : Action η α) : Action (Pool β σ η) α := fun s =>
  let e := a s.handler
  ⟨e.value, { s with handler := e.state }, e.events⟩

def enter (mode : Mode) : Action (Pool β σ η) Unit := fun s => ⟨(), { s with mode }, []⟩

def take (d : Delivery) : Action (Pool β σ η) Unit := fun s =>
  ⟨(), { s with running := s.running ++ [⟨s.taken, d, .arrived⟩], taken := s.taken + 1 }, []⟩

def moveTo (number : Nat) (stage : Stage) : Action (Pool β σ η) Unit := fun s =>
  let move (x : Execution) : Execution := if x.number = number then { x with stage } else x
  ⟨(), { s with running := s.running.map move }, []⟩

def leave (number : Nat) : Action (Pool β σ η) Unit := fun s =>
  ⟨(), { s with running := s.running.filter (·.number ≠ number) }, []⟩

def HasSlot (s : Pool β σ η) (plan : Plan) : Prop := s.running.length < plan.concurrency

instance (s : Pool β σ η) (plan : Plan) : Decidable (s.HasSlot plan) :=
  inferInstanceAs (Decidable (_ < _))

/-- Are the slots free that a shutdown waits for? -/
def HasAwaited (s : Pool β σ η) (plan : Plan) : Prop :=
  s.running.length + plan.awaited ≤ plan.concurrency

instance (s : Pool β σ η) (plan : Plan) : Decidable (s.HasAwaited plan) :=
  inferInstanceAs (Decidable (_ ≤ _))

end Pool

namespace Crew

variable {β σ η : Type} (w : Crew β σ η)

/-- Asks the broker for a delivery, the queues in weighted random order. -/
def poll (now : Now) (words : Words) : Action (Pool β σ η) Unit := do
  let order := (pollingOrder w.plan.queues words).1
  match ← Pool.onBroker (w.broker.dequeue now order) with
  | .ok (some d) => Pool.take d
  | .ok none => Pool.enter .idle
  | .error e =>
    .note (.dequeueFailed e.message)
    Pool.enter .idle

def report (outcome : Outcome) (now : Now) (receipt : Receipt) : Action β Verdict :=
  match outcome with
  | .completed => do
    let answer ← w.broker.ack receipt
    return .ofAnswer answer
  | .failed text => w.broker.fail now receipt text

def tellOutcome {τ : Type} (outcome : Outcome) (d : Delivery) : Action τ Unit := do
  .count (.duration d.task.taskType outcome.status)
  .tell (.spanOutcome outcome.status.name)
  match outcome with
  | .completed => pure ()
  | .failed text => .note (.handlerFailed text d.context.retryCount)

def advance (x : Execution) (now : Now) : Action (Pool β σ η) Unit := do
  let d := x.delivery
  let id := d.context.taskId
  match x.stage with
  | .arrived =>
    .tell (.spanOpened d.task.taskType (id.getD "") d.context.queue)
    Pool.onTrail (Trail.track w.trail id (Tracking.opening now.time))
    Pool.moveTo x.number .started
  | .started =>
    let ending ← Pool.onHandler (w.handler.guarded d.context d.task)
    Pool.moveTo x.number (match ending.result? with
      | none => .stuck
      | some outcome => .ended outcome)
  | .stuck => pure ()
  | .ended outcome =>
    Pool.onTrail (Trail.track w.trail id (Tracking.closing outcome now.time))
    tellOutcome outcome d
    Pool.moveTo x.number (.marked outcome)
  | .marked outcome =>
    match ← Pool.onBroker (w.report outcome now d.receipt) with
    | .settled | .aborted => pure ()
    | .refused e => .note (.reportFailed d.receipt.queue d.receipt.msgId e.message)
    Pool.leave x.number

def step (choice : Choice) : Action (Pool β σ η) Unit := do
  let s ← .get
  match choice with
  | .poll now words =>
    if s.mode = .polling ∧ s.HasSlot w.plan then w.poll now words
  | .wake => if s.mode = .idle then Pool.enter .polling
  | .advance number now =>
    match s.running.find? (·.number = number) with
    | none => pure ()
    | some x => w.advance x now
  | .shutdown =>
    if s.mode = .polling ∨ s.mode = .idle then
      .note .poolDraining
      Pool.enter .draining
  | .finish =>
    if s.mode = .draining ∧ s.HasAwaited w.plan then
      .note .poolStopped
      Pool.enter .stopped
  | .expire =>
    if s.mode = .draining ∧ ¬s.HasAwaited w.plan then
      .note (.poolAbandoned w.plan.shutdownTimeout)
      Pool.enter .abandoned

def steps (choices : List Choice) : Action (Pool β σ η) Unit := choices.forM w.step

def start : Action (Pool β σ η) Unit :=
  .note (.poolStarted w.plan.concurrency w.plan.queues)

def run (choices : List Choice) : Action (Pool β σ η) Unit := do
  w.start
  w.steps choices

end Crew

end TaskAudit.Worker
