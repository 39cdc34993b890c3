import Mathlib
import TaskAudit.Worker.Pool

/-!
# What the steps of a pool do

One relation says everything that a step of a pool can do, whatever it works with: what is
asked of the broker, the trail and the handler, and which execution comes, moves on or leaves.
-/
namespace TaskAudit.Worker

def moved (number : Nat) (stage : Stage) (running : List Execution) : List Execution :=
  running.map fun x => if x.number = number then { x with stage } else x

def left (number : Nat) (running : List Execution) : List Execution :=
  running.filter (·.number ≠ number)

/-- The stage of an execution whose handler ended, or never will. -/
def Stage.ofEnding (ending : Ending) : Stage :=
  match ending.outcome? with
  | none => .stuck
  | some outcome => .ended outcome

section

variable (number : Nat) (stage : Stage) (running : List Execution) (id : String)

theorem filter_moved :
    (moved number stage running).filter (·.delivery.context.taskId = some id) =
      moved number stage (running.filter (·.delivery.context.taskId = some id)) := by
  rw [moved, List.filter_map]
  congr 1
  refine List.filter_congr fun x _ => ?_
  rw [Function.comp_apply]
  split <;> rfl

theorem filter_left :
    (left number running).filter (·.delivery.context.taskId = some id) =
      left number (running.filter (·.delivery.context.taskId = some id)) := by
  rw [left, left, List.filter_filter, List.filter_filter]
  exact List.filter_congr fun x _ => Bool.and_comm _ _

theorem moved_singleton (x : Execution) : moved x.number stage [x] = [{ x with stage }] := by
  simp [moved]

theorem left_singleton (x : Execution) : left x.number [x] = [] := by
  simp [left]

theorem map_number_moved : (moved number stage running).map Execution.number =
    running.map Execution.number := by
  rw [moved, List.map_map]
  refine List.map_congr_left fun x _ => ?_
  rw [Function.comp_apply]
  split <;> rfl

theorem map_number_left : (left number running).map Execution.number =
    (running.map Execution.number).filter (· ≠ number) := by
  rw [left, List.filter_map]
  rfl

variable {number stage running}

theorem moved_of_ne (h : ∀ x ∈ running, x.number ≠ number) :
    moved number stage running = running := by
  rw [moved]
  refine (List.map_congr_left fun x hx => ?_).trans (List.map_id running)
  rw [if_neg (h x hx), id_eq]

theorem left_of_ne (h : ∀ x ∈ running, x.number ≠ number) : left number running = running :=
  List.filter_eq_self.mpr fun x hx => decide_eq_true (h x hx)

theorem mem_moved {y : Execution} (h : y ∈ moved number stage running) :
    ∃ x ∈ running, y.number = x.number ∧ y.delivery = x.delivery ∧
      y.stage = if x.number = number then stage else x.stage := by
  obtain ⟨x, hx, rfl⟩ := List.mem_map.mp h
  refine ⟨x, hx, ?_⟩
  split <;> exact ⟨rfl, rfl, rfl⟩

end

def Choice.number? : Choice → Option Nat
  | .advance number _ => some number
  | _ => none

namespace Pool

variable {β σ η α : Type}

theorem run_onBroker (a : Action β α) (s : Pool β σ η) :
    (onBroker a : Action (Pool β σ η) α).run s =
      ⟨(a.run s.broker).value, { s with broker := (a.run s.broker).state },
        (a.run s.broker).events⟩ := rfl

def execution? (s : Pool β σ η) (number : Nat) : Option Execution :=
  s.running.find? (·.number = number)

theorem mem_of_execution? {s : Pool β σ η} {number : Nat} {x : Execution}
    (h : s.execution? number = some x) : x ∈ s.running := List.mem_of_find?_eq_some h

theorem number_of_execution? {s : Pool β σ η} {number : Nat} {x : Execution}
    (h : s.execution? number = some x) : x.number = number := by
  simpa using List.find?_some h

end Pool

theorem run_ite {τ α : Type} {c : Prop} [Decidable c] (a b : Action τ α) (s : τ) :
    (if c then a else b).run s = if c then a.run s else b.run s := by
  split <;> rfl

namespace Crew

variable {β σ η : Type} (w : Crew β σ η)

theorem step_poll_state (now : Now) (words : Words) (s : Pool β σ η) :
    ((w.step (.poll now words)).run s).state =
      if s.mode = .polling ∧ s.HasSlot w.plan then ((w.poll now words).run s).state else s := by
  change ((if s.mode = .polling ∧ s.HasSlot w.plan then w.poll now words
    else pure ()).run s).state = _
  rw [run_ite]
  split <;> rfl

theorem step_advance_state (number : Nat) (now : Now) (s : Pool β σ η) :
    ((w.step (.advance number now)).run s).state =
      match s.execution? number with
      | none => s
      | some x => ((w.advance x now).run s).state := by
  simp only [step, Action.run_bind, Action.run_get, Pool.execution?]
  cases s.running.find? (·.number = number) <;> rfl

/-- A reported execution leaves, whatever the broker says. -/
theorem advance_marked_state {x : Execution} {outcome : Outcome}
    (hstage : x.stage = .marked outcome) (now : Now) (s : Pool β σ η) :
    ((w.advance x now).run s).state =
      { s with
        broker := ((w.report outcome now x.delivery.receipt).run s.broker).state
        running := left x.number s.running } := by
  simp only [advance, hstage, Action.run_bind, Pool.run_onBroker]
  cases ((w.report outcome now x.delivery.receipt).run s.broker).value <;> rfl

/-- Everything that a step can do. -/
inductive Does (s : Pool β σ η) : Choice → Pool β σ η → Prop where
  | nothing {choice} (hchoice : choice.number? = none) : Does s choice s
  | woke (hmode : s.mode = .idle) : Does s .wake { s with mode := .polling }
  | heard (hmode : s.mode = .polling ∨ s.mode = .idle) :
    Does s .shutdown { s with mode := .draining }
  | stopped (hmode : s.mode = .draining) (hslots : s.HasAwaited w.plan) :
    Does s .finish { s with mode := .stopped }
  | abandoned (hmode : s.mode = .draining) : Does s .expire { s with mode := .abandoned }
  | missed {now words} (hmode : s.mode = .polling)
    (hmissed : ((w.broker.dequeue now (pollingOrder w.plan.queues words).1).run
      s.broker).value.toOption.join = none) :
    Does s (.poll now words)
      { s with
        broker :=
          ((w.broker.dequeue now (pollingOrder w.plan.queues words).1).run s.broker).state
        mode := .idle }
  | took {now words d} (hmode : s.mode = .polling) (hslot : s.HasSlot w.plan)
    (htook : ((w.broker.dequeue now (pollingOrder w.plan.queues words).1).run s.broker).value =
      .ok (some d)) :
    Does s (.poll now words)
      { s with
        broker :=
          ((w.broker.dequeue now (pollingOrder w.plan.queues words).1).run s.broker).state
        running := s.running ++ [⟨s.taken, d, .arrived⟩]
        taken := s.taken + 1 }
  | missing {number now} (hfind : s.execution? number = none) : Does s (.advance number now) s
  | stuck {now x} (hfind : s.execution? x.number = some x) (hstage : x.stage = .stuck) :
    Does s (.advance x.number now) s
  | opened {now x} (hfind : s.execution? x.number = some x) (hstage : x.stage = .arrived) :
    Does s (.advance x.number now)
      { s with
        trail := ((Trail.track w.trail x.delivery.context.taskId
          (Tracking.opening now.time)).run s.trail).state
        running := moved x.number .started s.running }
  | handled {now x} (hfind : s.execution? x.number = some x) (hstage : x.stage = .started) :
    Does s (.advance x.number now)
      { s with
        handler := ((w.handler x.delivery.context x.delivery.task).run s.handler).state
        running := moved x.number
          (.ofEnding ((w.handler x.delivery.context x.delivery.task).run s.handler).value)
          s.running }
  | closed {now x outcome} (hfind : s.execution? x.number = some x)
    (hstage : x.stage = .ended outcome) :
    Does s (.advance x.number now)
      { s with
        trail := ((Trail.track w.trail x.delivery.context.taskId
          (Tracking.closing outcome now.time)).run s.trail).state
        running := moved x.number (.marked outcome) s.running }
  | reported {now x outcome} (hfind : s.execution? x.number = some x)
    (hstage : x.stage = .marked outcome) :
    Does s (.advance x.number now)
      { s with
        broker := ((w.report outcome now x.delivery.receipt).run s.broker).state
        running := left x.number s.running }

theorem poll_does (now : Now) (words : Words) (s : Pool β σ η) :
    w.Does s (.poll now words) ((w.step (.poll now words)).run s).state := by
  rw [step_poll_state]
  by_cases hpoll : s.mode = .polling ∧ s.HasSlot w.plan
  · rw [if_pos hpoll]
    simp only [poll, Action.run_bind, Pool.run_onBroker]
    cases hanswer : ((w.broker.dequeue now (pollingOrder w.plan.queues words).1).run
        s.broker).value with
    | error e => exact .missed hpoll.1 (by rw [hanswer]; rfl)
    | ok answer =>
        cases answer with
        | none => exact .missed hpoll.1 (by rw [hanswer]; rfl)
        | some d => exact .took hpoll.1 hpoll.2 hanswer
  · rw [if_neg hpoll]
    exact .nothing rfl

theorem advance_does (number : Nat) (now : Now) (s : Pool β σ η) :
    w.Does s (.advance number now) ((w.step (.advance number now)).run s).state := by
  rw [step_advance_state]
  cases hfind : s.execution? number with
  | none => exact .missing hfind
  | some x =>
      obtain rfl := Pool.number_of_execution? hfind
      cases hstage : x.stage with
      | arrived =>
          simp only [advance, hstage]
          exact .opened hfind hstage
      | started =>
          simp only [advance, hstage]
          exact .handled hfind hstage
      | stuck =>
          simp only [advance, hstage]
          exact .stuck hfind hstage
      | ended outcome =>
          simp only [advance, hstage]
          cases outcome <;> exact .closed hfind hstage
      | marked outcome =>
          simp only [w.advance_marked_state hstage]
          exact .reported hfind hstage

theorem loop_does {choice : Choice} (hchoice : choice.number? = none)
    {s : Pool β σ η} {c : Prop} [Decidable c] {a : Action (Pool β σ η) Unit}
    (hstep : (w.step choice).run s = (if c then a else pure ()).run s)
    (ha : c → w.Does s choice (a.run s).state) :
    w.Does s choice ((w.step choice).run s).state := by
  rw [hstep, run_ite]
  by_cases hc : c
  · rw [if_pos hc]
    exact ha hc
  · rw [if_neg hc]
    exact .nothing hchoice

theorem step_does (choice : Choice) (s : Pool β σ η) :
    w.Does s choice ((w.step choice).run s).state := by
  cases choice with
  | poll now words => exact w.poll_does now words s
  | advance number now => exact w.advance_does number now s
  | wake => exact w.loop_does rfl rfl fun hmode => .woke hmode
  | shutdown => exact w.loop_does rfl rfl fun hmode => .heard hmode
  | finish => exact w.loop_does rfl rfl fun h => .stopped h.1 h.2
  | expire => exact w.loop_does rfl rfl fun h => .abandoned h.1

end Crew

end TaskAudit.Worker
