import Mathlib
import TaskAudit.Proofs.Worker.Steps

/-!
# A shift of a pool of workers

A shift is a pool at work with any broker, any trail and any handler. The broker keeps
minutes of what it is asked for and the handler a list of its calls; a call or a report that
comes with the step of an execution bears its number, which is the place of its delivery among
all deliveries. Between the steps of the pool others may leave the broker, the trail and the
handlers in any state.
-/
namespace TaskAudit.Worker

structure Minutes where
  answers : List (Except Error (Option Delivery)) := []
  reports : List (Receipt × Outcome) := []

namespace Minutes

def deliveriesOf (answers : List (Except Error (Option Delivery))) : List Delivery :=
  answers.filterMap fun answer => answer.toOption.join

theorem deliveriesOf_missed {answer : Except Error (Option Delivery)}
    (h : answer.toOption.join = none) (answers : List (Except Error (Option Delivery))) :
    deliveriesOf (answers ++ [answer]) = deliveriesOf answers := by
  rw [deliveriesOf, List.filterMap_append]
  simp [h, deliveriesOf]

theorem deliveriesOf_took (d : Delivery) (answers : List (Except Error (Option Delivery))) :
    deliveriesOf (answers ++ [.ok (some d)]) = deliveriesOf answers ++ [d] :=
  List.filterMap_append

def addAnswer (answer : Except Error (Option Delivery)) : Action Minutes Unit :=
  fun m => ⟨(), { m with answers := m.answers ++ [answer] }, []⟩

def addReport (receipt : Receipt) (outcome : Outcome) : Action Minutes Unit :=
  fun m => ⟨(), { m with reports := m.reports ++ [(receipt, outcome)] }, []⟩

/-- A broker that keeps minutes. -/
def broker {β : Type} (b : Broker β) : Broker (β × Minutes) where
  enqueue id now task queue maxRetry := .onFst (b.enqueue id now task queue maxRetry)
  dequeue now queues := do
    let answer ← .onFst (b.dequeue now queues)
    .onSnd (addAnswer answer)
    return answer
  ack receipt := do
    .onSnd (addReport receipt .completed)
    .onFst (b.ack receipt)
  fail now receipt error := do
    .onSnd (addReport receipt (.failed error))
    .onFst (b.fail now receipt error)
  close := .onFst b.close

end Minutes

structure HandlerCall where
  context : Context
  task : Task
  ending : Ending
  deriving DecidableEq

def keeping {η : Type} (handler : Handler η) : Handler (η × List HandlerCall) :=
  fun context task => do
    let ending ← .onFst (handler context task)
    .onSnd fun calls => ⟨(), calls ++ [⟨context, task, ending⟩], []⟩
    return ending

theorem keeping_value {η : Type} (handler : Handler η) (context : Context) (task : Task)
    (s : η × List HandlerCall) : ((keeping handler context task).run s).value =
      ((handler context task).run s.1).value := rfl

theorem keeping_state {η : Type} (handler : Handler η) (context : Context) (task : Task)
    (s : η × List HandlerCall) : ((keeping handler context task).run s).state =
      (((handler context task).run s.1).state,
        s.2 ++ [⟨context, task, ((handler context task).run s.1).value⟩]) := rfl

/-- A crew whose broker and handler keep record of what they are asked for. -/
def Crew.minuted {β σ η : Type} (w : Crew β σ η) :
    Crew (β × Minutes) σ (η × List HandlerCall) where
  broker := Minutes.broker w.broker
  trail := w.trail
  handler := keeping w.handler
  plan := w.plan

section

variable {β σ η : Type}

theorem Minutes.dequeue_value (b : Broker β) (now : Now) (queues : List String)
    (s : β × Minutes) : (((Minutes.broker b).dequeue now queues).run s).value =
      ((b.dequeue now queues).run s.1).value := rfl

theorem Minutes.dequeue_state (b : Broker β) (now : Now) (queues : List String)
    (s : β × Minutes) : (((Minutes.broker b).dequeue now queues).run s).state =
      (((b.dequeue now queues).run s.1).state,
        { s.2 with answers := s.2.answers ++ [((b.dequeue now queues).run s.1).value] }) := rfl

theorem Crew.report_minuted (w : Crew β σ η) (outcome : Outcome) (now : Now) (receipt : Receipt)
    (s : β × Minutes) : ((w.minuted.report outcome now receipt).run s).state =
      (((w.report outcome now receipt).run s.1).state,
        { s.2 with reports := s.2.reports ++ [(receipt, outcome)] }) := by
  cases outcome <;> rfl

/-- A pool at work, and which execution each call and each report belongs to. -/
structure Shift (β σ η : Type) where
  pool : Pool (β × Minutes) σ (η × List HandlerCall)
  handled : List (Nat × Ending) := []
  reported : List (Nat × Outcome) := []

/-- The part of a shift that its turns are judged by. -/
structure Sheet where
  mode : Mode
  running : List Execution
  taken : Nat
  deliveries : List Delivery
  calls : List HandlerCall
  reports : List (Receipt × Outcome)
  handled : List (Nat × Ending)
  reported : List (Nat × Outcome)

/-- Everything that a turn can do, by the number of the execution that takes a step. -/
inductive Sheet.Moves (plan : Plan) (s : Sheet) : Option Nat → Sheet → Prop where
  | rested {mode} (hmode : mode = .stopped →
      s.mode = .stopped ∨ s.running.length + plan.awaited ≤ plan.concurrency) :
    Moves plan s none { s with mode }
  | took {d} (hmode : s.mode = .polling) (hslot : s.running.length < plan.concurrency) :
    Moves plan s none
      { s with
        running := s.running ++ [⟨s.taken, d, .arrived⟩]
        taken := s.taken + 1
        deliveries := s.deliveries ++ [d] }
  | idle {number} (h : ∀ x, s.running.find? (·.number = number) = some x → x.stage = .stuck) :
    Moves plan s (some number) s
  | opened {x} (hx : x ∈ s.running) (hstage : x.stage = .arrived) :
    Moves plan s (some x.number) { s with running := moved x.number .started s.running }
  | handled {x ending} (hx : x ∈ s.running) (hstage : x.stage = .started) :
    Moves plan s (some x.number)
      { s with
        running := moved x.number (.ofEnding ending) s.running
        calls := s.calls ++ [⟨x.delivery.context, x.delivery.task, ending⟩]
        handled := s.handled ++ [(x.number, ending)] }
  | closed {x outcome} (hx : x ∈ s.running) (hstage : x.stage = .ended outcome) :
    Moves plan s (some x.number) { s with running := moved x.number (.marked outcome) s.running }
  | reported {x outcome} (hx : x ∈ s.running) (hstage : x.stage = .marked outcome) :
    Moves plan s (some x.number)
      { s with
        running := left x.number s.running
        reports := s.reports ++ [(x.delivery.receipt, outcome)]
        reported := s.reported ++ [(x.number, outcome)] }

/-- What happens next: a step of the pool, or something that others do. -/
inductive Turn (β σ η : Type) where
  | choice (c : Choice)
  | others (broker : β) (trail : σ) (handler : η)

/-- The number of the execution that takes a step. -/
def Turn.number? : Turn β σ η → Option Nat
  | choice c => c.number?
  | others _ _ _ => none

namespace Shift

def start (broker : β) (trail : σ) (handler : η) : Shift β σ η where
  pool := { broker := (broker, {}), trail, handler := (handler, []) }

def minutes (v : Shift β σ η) : Minutes := v.pool.broker.2

def deliveries (v : Shift β σ η) : List Delivery := Minutes.deliveriesOf v.minutes.answers

def reports (v : Shift β σ η) : List (Receipt × Outcome) := v.minutes.reports

def calls (v : Shift β σ η) : List HandlerCall := v.pool.handler.2

def after (w : Crew β σ η) (v : Shift β σ η) : Turn β σ η → Shift β σ η
  | .others broker trail handler =>
    { v with
      pool.broker := (broker, v.pool.broker.2)
      pool.trail := trail
      pool.handler := (handler, v.pool.handler.2) }
  | .choice c =>
    let pool := ((w.minuted.step c).run v.pool).state
    match c.number? with
    | none => { v with pool }
    | some number =>
      let calls := pool.handler.2.drop v.calls.length
      let reports := pool.broker.2.reports.drop v.reports.length
      { pool
        handled := v.handled ++ calls.map fun call => (number, call.ending)
        reported := v.reported ++ reports.map fun report => (number, report.2) }

theorem after_pool (w : Crew β σ η) (v : Shift β σ η) (c : Choice) :
    (v.after w (.choice c)).pool = ((w.minuted.step c).run v.pool).state := by
  cases c <;> rfl

def run (w : Crew β σ η) (turns : List (Turn β σ η)) (v : Shift β σ η) : Shift β σ η :=
  turns.foldl (after w) v

@[simp] theorem run_nil (w : Crew β σ η) (v : Shift β σ η) : run w [] v = v := rfl

@[simp] theorem run_cons (w : Crew β σ η) (turn : Turn β σ η) (turns : List (Turn β σ η))
    (v : Shift β σ η) : run w (turn :: turns) v = run w turns (v.after w turn) := rfl

theorem run_append (w : Crew β σ η) (before later : List (Turn β σ η)) (v : Shift β σ η) :
    run w (before ++ later) v = run w later (run w before v) := List.foldl_append

def sheet (v : Shift β σ η) : Sheet where
  mode := v.pool.mode
  running := v.pool.running
  taken := v.pool.taken
  deliveries := v.deliveries
  calls := v.calls
  reports := v.reports
  handled := v.handled
  reported := v.reported

theorem sheet_of_quiet (v : Shift β σ η) (number : Nat)
    {pool : Pool (β × Minutes) σ (η × List HandlerCall)} (hcalls : pool.handler.2 = v.calls)
    (hminutes : pool.broker.2 = v.minutes) :
    ({ pool
       handled := v.handled ++ (pool.handler.2.drop v.calls.length).map fun call =>
        (number, call.ending)
       reported := v.reported ++ (pool.broker.2.reports.drop v.reports.length).map fun report =>
        (number, report.2) } : Shift β σ η).sheet =
      { v.sheet with mode := pool.mode, running := pool.running, taken := pool.taken } := by
  simp only [sheet, deliveries, calls, reports, minutes] at hcalls hminutes ⊢
  simp only [hcalls, hminutes, List.drop_length, List.map_nil, List.append_nil]

theorem after_moves (w : Crew β σ η) (v : Shift β σ η) (turn : Turn β σ η) :
    v.sheet.Moves w.plan turn.number? (v.after w turn).sheet := by
  cases turn with
  | others broker trail handler => exact .rested fun hmode => .inl hmode
  | choice c =>
      have hdoes := w.minuted.step_does c v.pool
      simp only [after, Turn.number?]
      generalize ((w.minuted.step c).run v.pool).state = pool at hdoes
      cases hdoes with
      | nothing hchoice =>
          rw [hchoice]
          exact .rested fun hmode => .inl hmode
      | woke _ | heard _ | abandoned _ => exact .rested nofun
      | stopped _ hslots => exact .rested fun _ => .inr hslots
      | missed _ hmissed =>
          simp only [Crew.minuted, Minutes.dequeue_value] at hmissed
          have hmoves : v.sheet.Moves w.plan none { v.sheet with mode := .idle } := .rested nofun
          simpa only [sheet, deliveries, calls, reports, minutes, Choice.number?, Crew.minuted,
            Minutes.dequeue_state, Minutes.deliveriesOf_missed hmissed] using hmoves
      | @took _ _ d hmode hslot htook =>
          simp only [Crew.minuted, Minutes.dequeue_value] at htook
          have hmoves : v.sheet.Moves w.plan none
              { v.sheet with
                running := v.pool.running ++ [⟨v.pool.taken, d, .arrived⟩]
                taken := v.pool.taken + 1
                deliveries := v.deliveries ++ [d] } := .took hmode hslot
          simpa only [sheet, deliveries, calls, reports, minutes, Choice.number?, Crew.minuted,
            Minutes.dequeue_state, htook, Minutes.deliveriesOf_took] using hmoves
      | missing hfind =>
          rw [Choice.number?, sheet_of_quiet v _ rfl rfl]
          refine .idle fun x hx => ?_
          cases hfind.symm.trans hx
      | stuck hfind hstage =>
          rw [Choice.number?, sheet_of_quiet v _ rfl rfl]
          refine .idle fun x hx => ?_
          cases hfind.symm.trans hx
          exact hstage
      | opened hfind hstage =>
          rw [Choice.number?, sheet_of_quiet]
          exacts [.opened (Pool.mem_of_execution? hfind) hstage, rfl, rfl]
      | handled hfind hstage =>
          simp only [sheet, deliveries, calls, reports, minutes, Choice.number?, Crew.minuted,
            keeping_value, keeping_state, List.drop_left, List.drop_length, List.map_cons,
            List.map_nil, List.append_nil]
          exact .handled (Pool.mem_of_execution? hfind) hstage
      | closed hfind hstage =>
          rw [Choice.number?, sheet_of_quiet]
          exacts [.closed (Pool.mem_of_execution? hfind) hstage, rfl, rfl]
      | reported hfind hstage =>
          simp only [sheet, deliveries, calls, reports, minutes, Choice.number?, w.report_minuted,
            List.drop_left, List.drop_length, List.map_cons, List.map_nil, List.append_nil]
          exact .reported (Pool.mem_of_execution? hfind) hstage

end Shift

end

end TaskAudit.Worker
