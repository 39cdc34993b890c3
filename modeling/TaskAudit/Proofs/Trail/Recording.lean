import Mathlib
import TaskAudit.Proofs.Trail.Noninterference
import TaskAudit.Proofs.Trail.Refinement

/-!
# What submitters and workers leave in the trail

Whether a write succeeds is told and counted, but makes no difference to what follows. So
a submitter leaves the trail that its writes leave, and a worker that follows a delivery
the one that its two marks leave.
-/
namespace TaskAudit

namespace Trail

variable {σ : Type} (trail : Trail σ)

/-- The state after some writes, whatever the trail answers to them. -/
def afterAll (ws : List Write) (s : σ) : σ := ws.foldl (fun s w => ((trail.write w).run s).state) s

@[simp] theorem afterAll_nil (s : σ) : trail.afterAll [] s = s := rfl

@[simp] theorem afterAll_cons (w : Write) (ws : List Write) (s : σ) :
    trail.afterAll (w :: ws) s = trail.afterAll ws ((trail.write w).run s).state := rfl

@[simp] theorem record_state (w : Write) (s : σ) :
    ((trail.record w).run s).state = ((trail.write w).run s).state := by
  simp only [record, tolerate, Action.run_bind]
  cases ((trail.write w).run s).value <;> rfl

@[simp] theorem track_state (id : String) (w : String → Write) (s : σ) :
    ((track (some trail) (some id) w).run s).state = ((trail.write (w id)).run s).state :=
  trail.record_state (w id) s

end Trail

namespace Tracking

@[simp] theorem closing_id (outcome : Outcome) (time : Timestamp) (id : String) :
    (closing outcome time id).id = id := by
  cases outcome <;> rfl

@[simp] theorem closing_inserts (outcome : Outcome) (time : Timestamp) (id : String) :
    (closing outcome time id).inserts = false := by
  cases outcome <;> rfl

end Tracking

theorem Submitter.leaveRecord_state {σ : Type} (trail : Trail σ) (id : String) (ws : List Write)
    (s : σ) : ((leaveRecord (some trail) id ws).run s).state = trail.afterAll ws s := by
  induction ws generalizing s with
  | nil => rfl
  | cons w ws ih =>
      have hrest := ih ((trail.record w).run s).state
      rw [Trail.afterAll_cons, ← trail.record_state w s, ← hrest]
      rfl

/-- Following a handler that gives a result leaves what the marks before and after it leave. -/
theorem Tracking.follow_state {σ η : Type} (trail : Trail σ) (handler : Handler η)
    (startedAt finishedAt : Timestamp) {context : Context} {id : String}
    (hid : context.taskId = some id) (task : Task) (s : σ × η) {outcome : Outcome}
    (hresult : ((handler context task).run s.2).value.result? = some outcome) :
    ((follow (some trail) handler startedAt finishedAt context task).run s).state.1 =
      trail.afterAll [opening startedAt id, closing outcome finishedAt id] s.1 := by
  simp only [run_follow, hid, hresult, Trail.track_state, Trail.afterAll_cons,
    Trail.afterAll_nil]

theorem Tracking.follow_state_of_none {σ η : Type} (trail : Trail σ) (handler : Handler η)
    (startedAt finishedAt : Timestamp) {context : Context} {id : String}
    (hid : context.taskId = some id) (task : Task) (s : σ × η)
    (hresult : ((handler context task).run s.2).value.result? = none) :
    ((follow (some trail) handler startedAt finishedAt context task).run s).state.1 =
      trail.afterAll [opening startedAt id] s.1 := by
  simp only [run_follow, hid, hresult, Trail.track_state, Trail.afterAll_cons,
    Trail.afterAll_nil]

theorem Submitter.submit_state_of_ok {β σ α : Type} [Submittable α] {c : Submitter β σ}
    {trail : Trail σ} (htrail : c.trail = some trail) (around : Surroundings) (taskType : String)
    (payload : α) (options : SubmitOptions) (s : β × σ) {accepted : Accepted}
    (h : ((c.submit around taskType payload options).run s).value = .ok accepted) :
    ∃ text, Submittable.text payload = .ok text ∧
      ((c.submit around taskType payload options).run s).state.2 =
        trail.afterAll (writes accepted taskType text around) s.2 := by
  cases htext : Submittable.text payload with
  | error fault =>
      simp only [submit, htext, Action.run_pure, reduceCtorEq] at h
  | ok text =>
      refine ⟨text, rfl, ?_⟩
      simp only [submit, htext, run_submitText] at h ⊢
      cases hvalue : ((c.request around taskType options text).run s.1).value with
      | error fault => simp only [hvalue, reduceCtorEq] at h
      | ok own =>
          simp only [hvalue, Except.ok.injEq] at h ⊢
          rw [h, htrail, leaveRecord_state]

theorem Submitter.submit_state_of_error {β σ α : Type} [Submittable α] {c : Submitter β σ}
    (around : Surroundings) (taskType : String) (payload : α) (options : SubmitOptions)
    (s : β × σ) {fault : Error}
    (h : ((c.submit around taskType payload options).run s).value = .error fault) :
    ((c.submit around taskType payload options).run s).state.2 = s.2 := by
  cases htext : Submittable.text payload with
  | error fault => simp only [submit, htext, Action.run_pure]
  | ok text =>
      simp only [submit, htext, run_submitText] at h ⊢
      cases hvalue : ((c.request around taskType options text).run s.1).value with
      | error fault => simp only
      | ok own => simp only [hvalue, reduceCtorEq] at h

theorem Embedded.Holds.afterAll {settings : AuditTable.Settings}
    (hd : settings.dialect = .positional) {s : Embedded} {m : Ledger} (h : s.Holds m)
    (ws : List Write) :
    ((AuditTable.trail Embedded.database settings).afterAll ws s).Holds (m.run ws) := by
  induction ws generalizing s m with
  | nil => exact h
  | cons w ws ih => exact ih (AuditTable.run_write hd h w).2.1

end TaskAudit
