import Mathlib
import TaskAudit.Submission
import TaskAudit.Worker.Tracking

/-!
# The queue does not notice the trail

A script submits tasks, lets handlers work on tasks and calls the broker, and every step of
it may depend on what the earlier ones answered. Two runs of a script that differ in the
trail only, in its answers, its contents and the times of its writes, cannot be told apart
by anyone else: the submitters get the same answers, the same handlers are called and end
the same way, and the broker is left in the same state.
-/
namespace TaskAudit

namespace Submitter

variable {β σ α : Type} (c : Submitter β σ) (around : Surroundings) (taskType : String)
  (options : SubmitOptions) (s : β × σ)

def request (payload : String) : Action β (Except Error Accepted) :=
  c.broker.enqueue around.id around.atBroker ⟨taskType, payload.toUTF8⟩ (c.queueOf options)
    (options.maxRetry.getD defaultMaxRetry)

theorem run_submitText (payload : String) :
    (c.submitText around taskType payload options).run s =
      let asked := (c.request around taskType options payload).run s.1
      match asked.value with
      | .error error =>
        ⟨.error error, (asked.state, s.2), asked.events ++ [.measure (.enqueued taskType false)]⟩
      | .ok accepted =>
        let left := (leaveRecord c.trail accepted.id
          (writes accepted taskType payload around)).run s.2
        ⟨.ok accepted, (asked.state, left.state),
          asked.events ++ .measure (.enqueued taskType true) ::
            .notice (.taskEnqueued accepted.id taskType accepted.queue) :: left.events⟩ := by
  simp only [submitText, request, Action.run_bind, Action.run_onFst]
  generalize (c.broker.enqueue _ _ _ _ _).run s.1 = asked
  cases asked.value with
  | error error => rfl
  | ok accepted =>
      simp only [Action.run_bind, Action.run_count, Action.run_note, Action.run_onSnd,
        Action.run_pure, List.append_nil, List.singleton_append]

theorem submitText_value (payload : String) :
    ((c.submitText around taskType payload options).run s).value =
      ((c.request around taskType options payload).run s.1).value := by
  rw [run_submitText]
  cases hvalue : ((c.request around taskType options payload).run s.1).value <;> simp only [hvalue]

theorem submitText_broker (payload : String) :
    ((c.submitText around taskType payload options).run s).state.1 =
      ((c.request around taskType options payload).run s.1).state := by
  rw [run_submitText]
  cases hvalue : ((c.request around taskType options payload).run s.1).value <;> simp only [hvalue]

variable [Submittable α]

/-- A submission as the broker alone sees it. -/
def bare (payload : α) : Action β (Except Error Accepted) :=
  match Submittable.text payload with
  | .error fault => return .error (.serialization fault)
  | .ok text => c.request around taskType options text

theorem submit_value (payload : α) :
    ((c.submit around taskType payload options).run s).value =
      ((c.bare around taskType options payload).run s.1).value := by
  rw [submit, bare]
  cases Submittable.text payload with
  | error fault => rfl
  | ok text => exact c.submitText_value around taskType options s text

theorem submit_broker (payload : α) :
    ((c.submit around taskType payload options).run s).state.1 =
      ((c.bare around taskType options payload).run s.1).state := by
  rw [submit, bare]
  cases Submittable.text payload with
  | error fault => rfl
  | ok text => exact c.submitText_broker around taskType options s text

end Submitter

namespace Tracking

variable {σ η : Type} (trail : Option (Trail σ)) (handler : Handler η)
  (startedAt finishedAt : Timestamp) (context : Context) (task : Task) (s : σ × η)

/-- What following a delivery leaves, by how the handler ended. -/
theorem run_follow :
    (follow trail handler startedAt finishedAt context task).run s =
      let opened := (Trail.track trail context.taskId (opening startedAt)).run s.1
      let handled := (handler context task).run s.2
      match handled.value.result? with
      | none => ⟨handled.value, (opened.state, handled.state), opened.events ++ handled.events⟩
      | some outcome =>
        let closed :=
          (Trail.track trail context.taskId (closing outcome finishedAt)).run opened.state
        ⟨handled.value, (closed.state, handled.state),
          opened.events ++ handled.events ++ closed.events⟩ := by
  simp only [follow, Action.run_bind, Action.run_onFst, Action.run_onSnd]
  cases ((handler context task).run s.2).value.result? with
  | none => simp only [Action.run_pure, List.append_nil]
  | some outcome =>
      simp only [Action.run_bind, Action.run_onFst, Action.run_pure, List.append_nil,
        List.append_assoc]

theorem follow_value :
    ((follow trail handler startedAt finishedAt context task).run s).value =
      ((handler context task).run s.2).value := by
  rw [run_follow]
  cases hresult : ((handler context task).run s.2).value.result? <;> simp only [hresult]

theorem follow_handler :
    ((follow trail handler startedAt finishedAt context task).run s).state.2 =
      ((handler context task).run s.2).state := by
  rw [run_follow]
  cases hresult : ((handler context task).run s.2).value.result? <;> simp only [hresult]

end Tracking

/-- A program of submissions, of tasks that handlers work on, and of calls of the broker. What
it does next may depend on what it was answered. -/
inductive Script (β ι : Type) : Type 1 where
  | done
  | submit {α : Type} [Submittable α] (id : String) (atBroker : Now) (taskType : String)
    (payload : α) (options : SubmitOptions) (next : Except Error Accepted → Script β ι)
  | execute (name : ι) (context : Context) (task : Task) (next : Ending → Script β ι)
  | ask {α : Type} (action : Action β α) (next : α → Script β ι)

/-- What is seen of a run without a look at the trail: the broker, what the handlers left, the
answers to the submissions, the calls of the handlers and how they ended. -/
structure Sight (β η ι : Type) where
  broker : β
  handlers : η
  answers : List (Except Error Accepted) := []
  calls : List (ι × Context × Task) := []
  endings : List Ending := []

namespace Script

variable {β σ η ι : Type}

/-- A handler whose calls are kept. -/
def noting (name : ι) (handler : Handler η) : Handler (η × List (ι × Context × Task)) :=
  fun context task => do
    .onSnd fun calls => ⟨(), calls ++ [(name, context, task)], []⟩
    .onFst (handler context task)

variable (broker : Broker β) (defaultQueue : String) (handlers : ι → Handler (β × η))

/-- The run of a script. The handlers have names and may use the broker as well, and the step
with number `n` takes the times of its writes from `clock (2 * n)` and `clock (2 * n + 1)`. -/
def run (trail : Option (Trail σ)) (clock : Nat → Timestamp) :
    Script β ι → Nat → Sight β η ι × σ → Sight β η ι × σ
  | done, _, s => s
  | submit id atBroker taskType payload options next, n, (v, t) =>
    let c := Submitter.new broker trail defaultQueue
    let around : Surroundings := ⟨id, atBroker, clock (2 * n), clock (2 * n + 1)⟩
    let e := (c.submit around taskType payload options).run (v.broker, t)
    (next e.value).run trail clock (n + 1)
      ({ v with broker := e.state.1, answers := v.answers ++ [e.value] }, e.state.2)
  | execute name context task next, n, (v, t) =>
    let handler := noting name (handlers name)
    let follow := Tracking.follow trail handler (clock (2 * n)) (clock (2 * n + 1)) context task
    let e := follow.run (t, (v.broker, v.handlers), v.calls)
    let ((broker, handlers), calls) := e.state.2
    (next e.value).run trail clock (n + 1)
      ({ v with broker, handlers, calls, endings := v.endings ++ [e.value] }, e.state.1)
  | ask action next, n, (v, t) =>
    let e := action.run v.broker
    (next e.value).run trail clock (n + 1) ({ v with broker := e.state }, t)

/-- Nobody but the trail can tell two runs of a script with different trails apart, or one
with a trail from one without. -/
theorem run_unnoticed {σ₁ σ₂ : Type} (trail₁ : Option (Trail σ₁)) (trail₂ : Option (Trail σ₂))
    (clock₁ clock₂ : Nat → Timestamp) (script : Script β ι) (n : Nat) (v : Sight β η ι) (t₁ : σ₁)
    (t₂ : σ₂) :
    (script.run broker defaultQueue handlers trail₁ clock₁ n (v, t₁)).1 =
      (script.run broker defaultQueue handlers trail₂ clock₂ n (v, t₂)).1 := by
  induction script generalizing n v t₁ t₂ with
  | done => rfl
  | submit id atBroker taskType payload options next ih =>
      simp only [run, Submitter.submit_value, Submitter.submit_broker]
      exact ih _ (n + 1) _ _ _
  | execute name context task next ih =>
      simp only [run, Tracking.follow_value, Tracking.follow_handler]
      exact ih _ (n + 1) _ _ _
  | ask action next ih => exact ih _ (n + 1) _ t₁ t₂

end Script

end TaskAudit
