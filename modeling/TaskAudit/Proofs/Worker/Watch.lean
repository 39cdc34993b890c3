import Mathlib
import TaskAudit.Proofs.Broker.Conservation
import TaskAudit.Proofs.Trail.Recording
import TaskAudit.Proofs.Worker.Steps

/-!
# Watching a pool of workers

A pool that works with the broker in memory and with the trail in the embedded database,
together with what an onlooker sees of its run: the calls of the handler, the tasks whose
deliveries were acknowledged, and the readings of the clock. `Turns` says everything that
one step of such a pool can do.
-/
namespace TaskAudit.Worker

/-- A pool and what was seen of its run so far. -/
structure Watch (η : Type) where
  pool : Pool Backlog Embedded η
  attempts : List (Context × Task) := []
  acked : List Entry := []
  clock : List Timestamp := []

def Choice.reading? : Choice → Option Timestamp
  | .poll now _ | .advance _ now => some now.time
  | _ => none

namespace Pool

variable {σ η : Type}

def chosen (s : Pool Backlog σ η) : Choice → Option Execution
  | .advance number _ => s.running.find? (·.number = number)
  | _ => none

def attempt? (s : Pool Backlog σ η) (choice : Choice) : Option (Context × Task) :=
  (s.chosen choice).bind fun x =>
    if x.stage = .started then some (x.delivery.context, x.delivery.task) else none

def acked? (s : Pool Backlog σ η) (choice : Choice) : Option Entry :=
  (s.chosen choice).bind fun x =>
    if x.stage = .marked .completed then s.broker.inFlight? x.delivery.receipt.msgId else none

end Pool

namespace Watch

variable {η : Type}

def after (w : Crew Backlog Embedded η) (v : Watch η) (choice : Choice) : Watch η where
  pool := ((w.step choice).run v.pool).state
  attempts := v.attempts ++ (v.pool.attempt? choice).toList
  acked := v.acked ++ (v.pool.acked? choice).toList
  clock := v.clock ++ choice.reading?.toList

def run (w : Crew Backlog Embedded η) (choices : List Choice) (v : Watch η) : Watch η :=
  choices.foldl (after w) v

@[simp] theorem run_nil (w : Crew Backlog Embedded η) (v : Watch η) : run w [] v = v := rfl

@[simp] theorem run_cons (w : Crew Backlog Embedded η) (choice : Choice) (choices : List Choice)
    (v : Watch η) : run w (choice :: choices) v = run w choices (v.after w choice) := rfl

/-- Watching a pool does not change its run. -/
theorem run_pool (w : Crew Backlog Embedded η) (choices : List Choice) (v : Watch η) :
    (run w choices v).pool = ((w.run choices).run v.pool).state := by
  have hsteps : (run w choices v).pool = ((w.steps choices).run v.pool).state := by
    induction choices generalizing v with
    | nil => rfl
    | cons choice choices ih => exact ih (v.after w choice)
  exact hsteps

theorem run_clock (w : Crew Backlog Embedded η) (choices : List Choice) (v : Watch η) :
    (run w choices v).clock = v.clock ++ choices.filterMap Choice.reading? := by
  induction choices generalizing v with
  | nil => simp
  | cons choice choices ih =>
      rw [run_cons, ih, List.filterMap_cons, after, List.append_assoc]
      cases choice.reading? <;> rfl

end Watch

section

variable {η : Type} (delay : Span) (settings : AuditTable.Settings) (handler : Handler η)

def crew (plan : Plan) : Crew Backlog Embedded η where
  broker := Backlog.broker delay
  trail := some (AuditTable.trail Embedded.database settings)
  handler := handler
  plan := plan

/-- Everything that a step of the pool can do. -/
inductive Turns (v : Watch η) : Choice → Watch η → Prop where
  | rested {choice : Choice} {mode : Mode} :
    Turns v choice
      { v with pool.mode := mode, clock := v.clock ++ choice.reading?.toList }
  | took {now words queue entry before rest}
    (hwaiting : v.pool.broker.waiting = before ++ ⟨queue, entry⟩ :: rest) :
    Turns v (.poll now words)
      { v with
        pool.broker.waiting := before ++ rest
        pool.broker.inFlight :=
          v.pool.broker.inFlight ++ [((v.pool.broker.issued : Int) + 1, entry)]
        pool.broker.issued := v.pool.broker.issued + 1
        pool.running := v.pool.running ++
          [⟨v.pool.taken, Backlog.delivery queue (v.pool.broker.issued + 1) entry, .arrived⟩]
        pool.taken := v.pool.taken + 1
        clock := v.clock ++ [now.time] }
  | opened {now x} (hx : x ∈ v.pool.running) (hstage : x.stage = .arrived) :
    Turns v (.advance x.number now)
      { v with
        pool.trail := ((Trail.track (some (AuditTable.trail Embedded.database settings))
          x.delivery.context.taskId (Tracking.opening now.time)).run v.pool.trail).state
        pool.running := moved x.number .started v.pool.running
        clock := v.clock ++ [now.time] }
  | handled {now x} (hx : x ∈ v.pool.running) (hstage : x.stage = .started) :
    Turns v (.advance x.number now)
      { v with
        pool.handler := ((handler x.delivery.context x.delivery.task).run v.pool.handler).state
        pool.running := moved x.number
          (.ofEnding ((handler x.delivery.context x.delivery.task).run v.pool.handler).value)
          v.pool.running
        attempts := v.attempts ++ [(x.delivery.context, x.delivery.task)]
        clock := v.clock ++ [now.time] }
  | closed {now x outcome} (hx : x ∈ v.pool.running) (hstage : x.stage = .ended outcome) :
    Turns v (.advance x.number now)
      { v with
        pool.trail := ((Trail.track (some (AuditTable.trail Embedded.database settings))
          x.delivery.context.taskId (Tracking.closing outcome now.time)).run v.pool.trail).state
        pool.running := moved x.number (.marked outcome) v.pool.running
        clock := v.clock ++ [now.time] }
  | acked {now x} (hx : x ∈ v.pool.running) (hstage : x.stage = .marked .completed) :
    Turns v (.advance x.number now)
      { v with
        pool.broker := ((Backlog.ack x.delivery.receipt).run v.pool.broker).state
        pool.running := left x.number v.pool.running
        acked := v.acked ++ (v.pool.broker.inFlight? x.delivery.receipt.msgId).toList
        clock := v.clock ++ [now.time] }
  | failed {now x text} (hx : x ∈ v.pool.running) (hstage : x.stage = .marked (.failed text)) :
    Turns v (.advance x.number now)
      { v with
        pool.broker := ((Backlog.fail delay now x.delivery.receipt text).run v.pool.broker).state
        pool.running := left x.number v.pool.running
        clock := v.clock ++ [now.time] }

variable {delay settings handler}

theorem Watch.after_eq {v : Watch η} {w : Crew Backlog Embedded η} {choice : Choice}
    {pool : Pool Backlog Embedded η} {attempt : Option (Context × Task)} {acked : Option Entry}
    (hstate : ((w.step choice).run v.pool).state = pool)
    (hattempt : v.pool.attempt? choice = attempt) (hacked : v.pool.acked? choice = acked) :
    v.after w choice =
      { pool
        attempts := v.attempts ++ attempt.toList
        acked := v.acked ++ acked.toList
        clock := v.clock ++ choice.reading?.toList } := by
  rw [after, hstate, hattempt, hacked]

theorem Watch.after_quiet {v : Watch η} {w : Crew Backlog Embedded η} {choice : Choice}
    {pool : Pool Backlog Embedded η} (hstate : ((w.step choice).run v.pool).state = pool)
    (hattempt : v.pool.attempt? choice = none) (hacked : v.pool.acked? choice = none) :
    v.after w choice = { v with pool, clock := v.clock ++ choice.reading?.toList } := by
  rw [after_eq hstate hattempt hacked, Option.toList_none, Option.toList_none, List.append_nil,
    List.append_nil]

theorem Turns.of_rested {v : Watch η} {choice : Choice} {w : Crew Backlog Embedded η} (mode : Mode)
    (hstate : ((w.step choice).run v.pool).state = { v.pool with mode })
    (hattempt : v.pool.attempt? choice = none) (hacked : v.pool.acked? choice = none) :
    Turns delay settings handler v choice (v.after w choice) := by
  rw [Watch.after_quiet hstate hattempt hacked]
  exact .rested

/-- Every step of the pool is a turn. -/
theorem after_turns (plan : Plan) (v : Watch η) (choice : Choice) :
    Turns delay settings handler v choice (v.after (crew delay settings handler plan) choice) := by
  have hdoes := (crew delay settings handler plan).step_does choice v.pool
  generalize hstate : (((crew delay settings handler plan).step choice).run v.pool).state = pool
    at hdoes
  -- the call and the acknowledgement of an execution that takes a step
  have hseen : ∀ {x : Execution} {now}, v.pool.execution? x.number = some x →
      v.pool.attempt? (.advance x.number now) =
          (if x.stage = .started then some (x.delivery.context, x.delivery.task) else none) ∧
        v.pool.acked? (.advance x.number now) =
          if x.stage = .marked .completed then v.pool.broker.inFlight? x.delivery.receipt.msgId
          else none := by
    intro x now hfind
    have hchosen : v.pool.chosen (.advance x.number now) = some x := hfind
    constructor
    · rw [Pool.attempt?, hchosen, Option.bind_some]
    · rw [Pool.acked?, hchosen, Option.bind_some]
  cases hdoes with
  | nothing hchoice =>
      have hchosen : v.pool.chosen choice = none := by
        cases choice with
        | advance number now => cases hchoice
        | _ => rfl
      exact .of_rested v.pool.mode hstate (by rw [Pool.attempt?, hchosen, Option.bind_none])
        (by rw [Pool.acked?, hchosen, Option.bind_none])
  | woke _ | heard _ | stopped _ _ | abandoned _ => exact .of_rested _ hstate rfl rfl
  | @missed now words _ hmissed =>
      rcases Backlog.dequeue_cases now (pollingOrder plan.queues words).1 v.pool.broker with
        hrun | ⟨queue, entry, before, rest, -, -, -, -, hrun⟩
      · refine .of_rested .idle (hstate.trans ?_) rfl rfl
        simp only [crew, Backlog.broker, hrun]
      · simp only [crew, Backlog.broker, hrun] at hmissed
        cases hmissed
  | @took now words d _ _ htook =>
      rcases Backlog.dequeue_cases now (pollingOrder plan.queues words).1 v.pool.broker with
        hrun | ⟨queue, entry, before, rest, -, -, hwaiting, -, hrun⟩
      · simp only [crew, Backlog.broker, hrun] at htook
        cases htook
      · rw [Watch.after_quiet hstate rfl rfl]
        simp only [crew, Backlog.broker, hrun] at htook ⊢
        cases htook
        exact .took hwaiting
  | @missing number now hfind =>
      have hchosen : v.pool.chosen (.advance number now) = none := hfind
      exact .of_rested v.pool.mode hstate (by rw [Pool.attempt?, hchosen, Option.bind_none])
        (by rw [Pool.acked?, hchosen, Option.bind_none])
  | stuck hfind hstage =>
      obtain ⟨hattempt, hacked⟩ := hseen hfind
      rw [hstage] at hattempt hacked
      exact .of_rested v.pool.mode hstate hattempt hacked
  | opened hfind hstage =>
      obtain ⟨hattempt, hacked⟩ := hseen hfind
      rw [hstage] at hattempt hacked
      rw [Watch.after_quiet hstate hattempt hacked]
      exact .opened (Pool.mem_of_execution? hfind) hstage
  | handled hfind hstage =>
      obtain ⟨hattempt, hacked⟩ := hseen hfind
      rw [hstage, if_pos rfl] at hattempt
      rw [hstage, if_neg nofun] at hacked
      rw [Watch.after_eq hstate hattempt hacked, Option.toList_none, List.append_nil]
      exact .handled (Pool.mem_of_execution? hfind) hstage
  | closed hfind hstage =>
      obtain ⟨hattempt, hacked⟩ := hseen hfind
      rw [hstage] at hattempt hacked
      rw [Watch.after_quiet hstate hattempt hacked]
      exact .closed (Pool.mem_of_execution? hfind) hstage
  | @reported now x outcome hfind hstage =>
      obtain ⟨hattempt, hacked⟩ := hseen hfind
      rw [hstage, if_neg nofun] at hattempt
      rw [hstage] at hacked
      cases outcome with
      | completed =>
          rw [if_pos rfl] at hacked
          rw [Watch.after_eq hstate hattempt hacked, Option.toList_none, List.append_nil]
          exact .acked (Pool.mem_of_execution? hfind) hstage
      | failed text =>
          rw [if_neg nofun] at hacked
          rw [Watch.after_quiet hstate hattempt hacked]
          exact .failed (Pool.mem_of_execution? hfind) hstage

end

end TaskAudit.Worker
