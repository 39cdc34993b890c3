import Mathlib
import TaskAudit.Proofs.Worker.Shift

/-!
# Every delivery has a slot until it is reported

The invariant of a shift: the executions that run and those that reported are, each of them
once, all that were ever taken, and there are slots for those that run. The stage of an
execution says what became of the call of its handler, so a report says how that call ended.
-/
namespace TaskAudit.Worker
open scoped List

/-- Does the stage of an execution fit what is known of the calls of the handler? -/
def Stage.Fits (handled : List (Nat × Ending)) (number : Nat) : Stage → Prop
  | arrived | started => number ∉ handled.map Prod.fst
  | stuck => (number, .never) ∈ handled
  | ended outcome | marked outcome =>
    ∃ ending, (number, ending) ∈ handled ∧ ending.outcome? = some outcome

/-- The steps that an execution has still to take. -/
def Stage.rest : Stage → Nat
  | arrived => 4
  | started => 3
  | stuck => 0
  | ended _ => 2
  | marked _ => 1

theorem Stage.rest_le (stage : Stage) : stage.rest ≤ 4 := by
  cases stage <;> simp [rest]

section

variable {handled : List (Nat × Ending)} {number : Nat} {stage : Stage} {ending : Ending}

theorem Stage.ofEnding_fits (h : (number, ending) ∈ handled) :
    (Stage.ofEnding ending).Fits handled number := by
  cases ending with
  | never => exact h
  | _ => exact ⟨_, h, rfl⟩

/-- The call of another execution makes no difference. -/
theorem Stage.Fits.of_other (h : stage.Fits handled number) {other : Nat} (hne : number ≠ other)
    (ending : Ending) : stage.Fits (handled ++ [(other, ending)]) number := by
  cases stage with
  | arrived | started =>
      simp only [Fits, List.map_append, List.mem_append, not_or] at h ⊢
      exact ⟨h, by simpa using hne⟩
  | stuck => exact List.mem_append_left _ h
  | ended outcome | marked outcome =>
      obtain ⟨ending', hmem, houtcome⟩ := h
      exact ⟨ending', List.mem_append_left _ hmem, houtcome⟩

end

namespace Sheet

/-- The call is that of a handler for the delivery with the number. -/
def IsCall (deliveries : List Delivery) (h : Nat × Ending) (call : HandlerCall) : Prop :=
  ∃ d, deliveries[h.1]? = some d ∧ call = ⟨d.context, d.task, h.2⟩

/-- The report bears the receipt of the delivery with the number. -/
def IsReport (deliveries : List Delivery) (r : Nat × Outcome) (report : Receipt × Outcome) : Prop :=
  ∃ d, deliveries[r.1]? = some d ∧ report = (d.receipt, r.2)

structure Sound (plan : Plan) (s : Sheet) : Prop where
  slots : s.running.length ≤ plan.concurrency
  taken : s.deliveries.length = s.taken
  executions : ∀ x ∈ s.running, s.deliveries[x.number]? = some x.delivery
  numbers : s.running.map Execution.number ++ s.reported.map Prod.fst ~ List.range s.taken
  calls : List.Forall₂ (IsCall s.deliveries) s.handled s.calls
  reports : List.Forall₂ (IsReport s.deliveries) s.reported s.reports
  handledOnce : (s.handled.map Prod.fst).Nodup
  stages : ∀ x ∈ s.running, x.stage.Fits s.handled x.number
  ends : ∀ r ∈ s.reported, ∃ ending, (r.1, ending) ∈ s.handled ∧ ending.outcome? = some r.2
  stopped : plan.concurrency < UInt32.size → s.mode = .stopped → s.running = []

variable {plan : Plan} {s s' : Sheet}

namespace Sound

theorem nodup (h : Sound plan s) :
    (s.running.map Execution.number ++ s.reported.map Prod.fst).Nodup :=
  h.numbers.nodup_iff.mpr List.nodup_range

theorem execution_eq (h : Sound plan s) {x y : Execution} (hx : x ∈ s.running)
    (hy : y ∈ s.running) (hnumber : x.number = y.number) : x = y :=
  List.inj_on_of_nodup_map (List.Nodup.of_append_left h.nodup) hx hy hnumber

theorem handled_lt (h : Sound plan s) {number : Nat} (hhandled : number ∈ s.handled.map Prod.fst) :
    number < s.taken := by
  obtain ⟨⟨_, ending⟩, hmem, rfl⟩ := List.mem_map.mp hhandled
  obtain ⟨k, hk, hget⟩ := List.mem_iff_getElem.mp hmem
  have hcalls : k < s.calls.length := by
    rw [← h.calls.length_eq]
    exact hk
  obtain ⟨d, hd, -⟩ := h.calls.get hk hcalls
  have hlt := (List.getElem?_eq_some_iff.mp hd).1
  rw [h.taken] at hlt
  simpa [hget] using hlt

theorem rest (h : Sound plan s) {mode : Mode} (hmode : mode = .stopped →
    s.mode = .stopped ∨ s.running.length + plan.awaited ≤ plan.concurrency) :
    Sound plan { s with mode } := by
  refine { h with stopped := ?_ }
  intro hsize hstopped
  rcases hmode hstopped with hbefore | hawaited
  · exact h.stopped hsize hbefore
  · unfold Plan.awaited at hawaited
    unfold UInt32.size at hsize hawaited
    have hempty : s.running.length = 0 := by omega
    exact List.length_eq_zero_iff.mp hempty

theorem take (h : Sound plan s) (hmode : s.mode = .polling)
    (hslot : s.running.length < plan.concurrency) (d : Delivery) :
    Sound plan { s with
      running := s.running ++ [⟨s.taken, d, .arrived⟩]
      taken := s.taken + 1
      deliveries := s.deliveries ++ [d] } := by
  have hkeeps : ∀ {n : Nat} {d' : Delivery}, s.deliveries[n]? = some d' →
      (s.deliveries ++ [d])[n]? = some d' := by
    intro n d' hn
    rwa [List.getElem?_append_left (List.getElem?_eq_some_iff.mp hn).1]
  constructor
  case slots =>
    rw [List.length_append, List.length_singleton]
    exact hslot
  case taken =>
    rw [List.length_append, List.length_singleton, h.taken]
  case executions =>
    intro x hx
    rcases List.mem_append.mp hx with hx | hx
    · exact hkeeps (h.executions x hx)
    · obtain rfl := List.mem_singleton.mp hx
      simp [← h.taken]
  case numbers =>
    rw [List.map_append, List.map_singleton, List.range_succ]
    have hswap : [s.taken] ++ s.reported.map Prod.fst ~ s.reported.map Prod.fst ++ [s.taken] :=
      List.perm_append_comm
    rw [List.append_assoc]
    refine (hswap.append_left _).trans ?_
    rw [← List.append_assoc]
    exact h.numbers.append_right _
  case calls => exact h.calls.imp fun _ _ ⟨d', hd', hcall⟩ => ⟨d', hkeeps hd', hcall⟩
  case reports => exact h.reports.imp fun _ _ ⟨d', hd', hreport⟩ => ⟨d', hkeeps hd', hreport⟩
  case handledOnce => exact h.handledOnce
  case stages =>
    intro x hx
    rcases List.mem_append.mp hx with hx | hx
    · exact h.stages x hx
    · obtain rfl := List.mem_singleton.mp hx
      intro hhandled
      exact Nat.lt_irrefl _ (h.handled_lt hhandled)
  case ends => exact h.ends
  case stopped =>
    intro _ hstopped
    rw [hmode] at hstopped
    cases hstopped

theorem move (h : Sound plan s) {x : Execution} (hx : x ∈ s.running) (stage : Stage)
    {calls : List HandlerCall} {handled : List (Nat × Ending)}
    (hcalls : List.Forall₂ (IsCall s.deliveries) handled calls)
    (honce : (handled.map Prod.fst).Nodup) (hkeeps : s.handled ⊆ handled)
    (hothers : ∀ y ∈ s.running, y.number ≠ x.number → y.stage.Fits handled y.number)
    (hstage : stage.Fits handled x.number) :
    Sound plan { s with running := moved x.number stage s.running, calls, handled } := by
  constructor
  case slots =>
    rw [moved, List.length_map]
    exact h.slots
  case taken => exact h.taken
  case executions =>
    intro y hy
    obtain ⟨z, hz, hnumber, hdelivery, -⟩ := mem_moved hy
    rw [hnumber, hdelivery]
    exact h.executions z hz
  case numbers =>
    rw [map_number_moved]
    exact h.numbers
  case calls => exact hcalls
  case reports => exact h.reports
  case handledOnce => exact honce
  case stages =>
    intro y hy
    obtain ⟨z, hz, hnumber, -, hmoved⟩ := mem_moved hy
    rw [hmoved, hnumber]
    by_cases hz' : z.number = x.number
    · rw [if_pos hz', hz']
      exact hstage
    · rw [if_neg hz']
      exact hothers z hz hz'
  case ends =>
    intro r hr
    obtain ⟨ending, hmem, houtcome⟩ := h.ends r hr
    exact ⟨ending, hkeeps hmem, houtcome⟩
  case stopped =>
    intro hsize hstopped
    have hempty := h.stopped hsize hstopped
    rw [hempty] at hx
    cases hx

theorem handle (h : Sound plan s) {x : Execution} (hx : x ∈ s.running) (hstage : x.stage = .started)
    (ending : Ending) :
    Sound plan { s with
      running := moved x.number (.ofEnding ending) s.running
      calls := s.calls ++ [⟨x.delivery.context, x.delivery.task, ending⟩]
      handled := s.handled ++ [(x.number, ending)] } := by
  have hnew : x.number ∉ s.handled.map Prod.fst := by
    have hfits := h.stages x hx
    rwa [hstage] at hfits
  apply h.move hx
  · exact List.rel_append h.calls (.cons ⟨x.delivery, h.executions x hx, rfl⟩ .nil)
  · rw [List.map_append, List.map_singleton]
    refine h.handledOnce.append (List.nodup_singleton _) ?_
    rwa [List.disjoint_singleton]
  · exact List.subset_append_left _ _
  · intro y hy hne
    exact (h.stages y hy).of_other hne ending
  · exact Stage.ofEnding_fits (List.mem_append_right _ (List.mem_singleton_self _))

theorem report (h : Sound plan s) {x : Execution} (hx : x ∈ s.running) {outcome : Outcome}
    (hstage : x.stage = .marked outcome) :
    Sound plan { s with
      running := left x.number s.running
      reports := s.reports ++ [(x.delivery.receipt, outcome)]
      reported := s.reported ++ [(x.number, outcome)] } := by
  have hleft : ∀ {y}, y ∈ left x.number s.running → y ∈ s.running := fun hy =>
    List.mem_of_mem_filter hy
  constructor
  case slots => exact (List.length_filter_le _ _).trans h.slots
  case taken => exact h.taken
  case executions => exact fun y hy => h.executions y (hleft hy)
  case numbers =>
    have hnodup := List.Nodup.of_append_left h.nodup
    have hmem : x.number ∈ s.running.map Execution.number := List.mem_map_of_mem hx
    have herase : (left x.number s.running).map Execution.number =
        (s.running.map Execution.number).erase x.number := by
      rw [map_number_left, hnodup.erase_eq_filter]
      exact List.filter_congr fun n _ => by rw [Bool.eq_iff_iff]; simp
    have hreported : s.reported.map Prod.fst ++ [x.number] ~
        [x.number] ++ s.reported.map Prod.fst := List.perm_append_comm
    have hrunning : (s.running.map Execution.number).erase x.number ++ [x.number] ~
        s.running.map Execution.number :=
      (List.perm_append_singleton _ _).trans (List.perm_cons_erase hmem).symm
    rw [herase, List.map_append, List.map_singleton]
    refine (hreported.append_left _).trans ?_
    rw [← List.append_assoc]
    exact (hrunning.append_right _).trans h.numbers
  case calls => exact h.calls
  case reports =>
    exact List.rel_append h.reports (.cons ⟨x.delivery, h.executions x hx, rfl⟩ .nil)
  case handledOnce => exact h.handledOnce
  case stages => exact fun y hy => h.stages y (hleft hy)
  case ends =>
    intro r hr
    rcases List.mem_append.mp hr with hr | hr
    · exact h.ends r hr
    · obtain rfl := List.mem_singleton.mp hr
      have hfits := h.stages x hx
      rwa [hstage] at hfits
  case stopped =>
    intro hsize hstopped
    have hempty := h.stopped hsize hstopped
    rw [hempty] at hx
    cases hx

theorem moves {number : Option Nat} (h : Sound plan s) (hmoves : s.Moves plan number s') :
    Sound plan s' := by
  cases hmoves with
  | rested hmode => exact h.rest hmode
  | took hmode hslot => exact h.take hmode hslot _
  | idle _ => exact h
  | opened hx hstage =>
      have hfits := h.stages _ hx
      rw [hstage] at hfits
      exact h.move hx .started h.calls h.handledOnce (List.Subset.refl _)
        (fun y hy _ => h.stages y hy) hfits
  | handled hx hstage => exact h.handle hx hstage _
  | @closed x outcome hx hstage =>
      have hfits := h.stages _ hx
      rw [hstage] at hfits
      exact h.move hx (.marked outcome) h.calls h.handledOnce (List.Subset.refl _)
        (fun y hy _ => h.stages y hy) hfits
  | reported hx hstage => exact h.report hx hstage

/-- What was taken is running or was reported. -/
theorem running_or_reported (h : Sound plan s) {number : Nat} (hlt : number < s.taken) :
    (∃ x ∈ s.running, x.number = number) ∨ number ∈ s.reported.map Prod.fst := by
  have hmem := h.numbers.mem_iff.mpr (List.mem_range.mpr hlt)
  exact (List.mem_append.mp hmem).imp_left List.mem_map.mp

theorem length_eq (h : Sound plan s) :
    s.deliveries.length = s.running.length + s.reports.length := by
  have hlength := h.numbers.length_eq
  rw [List.length_append, List.length_map, List.length_map, List.length_range] at hlength
  rw [h.taken, ← hlength, h.reports.length_eq]

end Sound

/-- Is an execution reported, or will it be after at most `k` more steps of its own, unless its
handler never ends? -/
def Within (s : Sheet) (number k : Nat) : Prop :=
  number ∈ s.reported.map Prod.fst ∨ ∃ x ∈ s.running, x.number = number ∧ x.stage.rest ≤ k

theorem Within.of_moved (h : Sound plan s) {x y : Execution} (hx : x ∈ s.running)
    (hy : y ∈ s.running) {stage : Stage} (hrest : stage.rest ≤ y.stage.rest - 1) {k : Nat}
    (hk : x.stage.rest ≤ k) :
    ∃ z ∈ moved y.number stage s.running, z.number = x.number ∧
      z.stage.rest ≤ if some y.number = some x.number then k - 1 else k := by
  by_cases hnumber : y.number = x.number
  · obtain rfl := h.execution_eq hy hx hnumber
    refine ⟨{ y with stage }, List.mem_map.mpr ⟨y, hy, if_pos rfl⟩, rfl, ?_⟩
    rw [if_pos rfl]
    exact hrest.trans (Nat.sub_le_sub_right hk 1)
  · refine ⟨x, List.mem_map.mpr ⟨x, hx, if_neg (Ne.symm hnumber)⟩, rfl, ?_⟩
    rwa [if_neg (by simpa using hnumber)]

/-- A step of the execution brings its report closer, and no other turn delays it. -/
theorem Within.moves (h : Sound plan s) {turn : Option Nat} (hmoves : s.Moves plan turn s')
    {number k : Nat} (hwithin : s.Within number k) :
    s'.Within number (if turn = some number then k - 1 else k) := by
  rcases hwithin with hreported | ⟨x, hx, rfl, hk⟩
  · left
    cases hmoves with
    | reported _ _ =>
        rw [List.map_append]
        exact List.mem_append_left _ hreported
    | _ => exact hreported
  · cases hmoves with
    | rested _ => exact .inr ⟨x, hx, rfl, hk⟩
    | took _ _ => exact .inr ⟨x, List.mem_append_left _ hx, rfl, hk⟩
    | @idle number hidle =>
        refine .inr ⟨x, hx, rfl, ?_⟩
        by_cases hnumber : number = x.number
        · subst hnumber
          obtain ⟨y, hy⟩ : ∃ y, s.running.find? (·.number = x.number) = some y :=
            Option.isSome_iff_exists.mp (List.find?_isSome.mpr ⟨x, hx, decide_eq_true rfl⟩)
          have hfound := List.find?_some hy
          obtain rfl := h.execution_eq (List.mem_of_find?_eq_some hy) hx
            (of_decide_eq_true hfound)
          rw [hidle y hy]
          exact Nat.zero_le _
        · rwa [if_neg (by simpa using hnumber)]
    | @opened y hy hstage | @closed y _ hy hstage =>
        exact .inr (Within.of_moved h hx hy (by rw [hstage]; exact Nat.le_refl _) hk)
    | @handled y ending hy hstage =>
        refine .inr (Within.of_moved h hx hy ?_ hk)
        rw [hstage]
        cases ending <;>
          simp [Stage.ofEnding, Ending.outcome?, Ending.guarded, Ending.result?, Stage.rest]
    | @reported y outcome hy hstage =>
        by_cases hnumber : y.number = x.number
        · left
          rw [List.map_append, hnumber]
          exact List.mem_append_right _ (List.mem_singleton_self _)
        · refine .inr ⟨x, List.mem_filter.mpr ⟨hx, decide_eq_true (Ne.symm hnumber)⟩, rfl, ?_⟩
          rwa [if_neg (by simpa using hnumber)]

end Sheet

namespace Shift

variable {β σ η : Type} (w : Crew β σ η)

theorem start_sound (broker : β) (trail : σ) (handler : η) :
    (start broker trail handler).sheet.Sound w.plan where
  slots := Nat.zero_le _
  taken := rfl
  executions := nofun
  numbers := .refl []
  calls := .nil
  reports := .nil
  handledOnce := List.nodup_nil
  stages := nofun
  ends := nofun
  stopped := fun _ _ => rfl

variable {w} {v : Shift β σ η}

theorem run_sound (h : v.sheet.Sound w.plan) (turns : List (Turn β σ η)) :
    (run w turns v).sheet.Sound w.plan := by
  induction turns generalizing v with
  | nil => exact h
  | cons turn turns ih => exact ih (h.moves (after_moves w v turn))

theorem run_within (h : v.sheet.Sound w.plan) (turns : List (Turn β σ η)) {number k : Nat}
    (hwithin : v.sheet.Within number k) :
    (run w turns v).sheet.Within number
      (k - turns.countP fun turn => turn.number? = some number) := by
  induction turns generalizing v k with
  | nil => exact hwithin
  | cons turn turns ih =>
      have hmoves := after_moves w v turn
      have hrest := ih (h.moves hmoves) (hwithin.moves h hmoves)
      rw [List.countP_cons]
      by_cases hturn : turn.number? = some number
      · rw [if_pos hturn] at hrest
        rwa [if_pos (decide_eq_true hturn), Nat.add_comm, Nat.sub_add_eq]
      · rw [if_neg hturn] at hrest
        rwa [if_neg (by simpa using hturn)]

/-- Without a shutdown the loop goes on, whatever the broker answers. -/
theorem after_mode {turn : Turn β σ η} (hturn : turn ≠ .choice .shutdown)
    (hmode : v.pool.mode = .polling ∨ v.pool.mode = .idle) :
    (v.after w turn).pool.mode = .polling ∨ (v.after w turn).pool.mode = .idle := by
  cases turn with
  | others broker trail handler => exact hmode
  | choice c =>
      have hdoes := w.minuted.step_does c v.pool
      rw [after_pool]
      generalize ((w.minuted.step c).run v.pool).state = pool at hdoes
      cases hdoes with
      | heard _ => exact absurd rfl hturn
      | woke _ => exact .inl rfl
      | missed _ _ => exact .inr rfl
      | stopped hdraining _ | abandoned hdraining => simp [hdraining] at hmode
      | _ => exact hmode

theorem run_mode {turns : List (Turn β σ η)} (hturns : ∀ turn ∈ turns, turn ≠ .choice .shutdown)
    (hmode : v.pool.mode = .polling ∨ v.pool.mode = .idle) :
    (run w turns v).pool.mode = .polling ∨ (run w turns v).pool.mode = .idle := by
  induction turns generalizing v with
  | nil => exact hmode
  | cons turn turns ih =>
      exact ih (fun t ht => hturns t (List.mem_cons_of_mem turn ht))
        (after_mode (hturns turn List.mem_cons_self) hmode)

theorem wake_mode (hmode : v.pool.mode = .idle) :
    (v.after w (.choice .wake)).pool.mode = .polling := by
  have hstep : (w.minuted.step .wake).run v.pool =
      (if v.pool.mode = .idle then Pool.enter .polling else pure ()).run v.pool := rfl
  rw [after_pool, hstep, if_pos hmode]
  rfl

theorem poll_answers (hmode : v.pool.mode = .polling) (hslot : v.pool.HasSlot w.plan) (now : Now)
    (words : Words) : ∃ answer, (v.after w (.choice (.poll now words))).minutes.answers =
      v.minutes.answers ++ [answer] := by
  refine ⟨((w.broker.dequeue now (pollingOrder w.plan.queues words).1).run
    v.pool.broker.1).value, ?_⟩
  have hstate := w.minuted.step_poll_state now words v.pool
  rw [if_pos ⟨hmode, hslot⟩] at hstate
  rw [minutes, after_pool, hstate]
  simp only [Crew.poll, Action.run_bind, Pool.run_onBroker, Crew.minuted, Minutes.dequeue_value,
    Minutes.dequeue_state]
  rcases ((w.broker.dequeue now (pollingOrder w.plan.queues words).1).run v.pool.broker.1).value
    with e | _ | d <;> rfl

/-- Whatever the broker, the trail and the handlers do, in whatever order things happen: at most
as many deliveries as there are slots are not reported yet. A handler is called once at most for
each delivery, each delivery is reported once at most, with its own receipt and as the call of
its handler ended, and it is reported when its execution has taken its four steps, unless the
handler never ends. Without a shutdown the loop never ends: it asks the broker whenever a slot
is free, and asks again after it waited. If the loop stopped in order, everything was
reported. -/
theorem run_safe (w : Crew β σ η) (hconcurrency : w.plan.concurrency < UInt32.size)
    (broker : β) (trail : σ) (handler : η) (turns : List (Turn β σ η)) :
    let v := run w turns (start broker trail handler)
    v.deliveries.length ≤ v.reports.length + w.plan.concurrency ∧
      ((v.handled.map Prod.fst).Nodup ∧ (v.reported.map Prod.fst).Nodup ∧
        List.Forall₂ (Sheet.IsCall v.deliveries) v.handled v.calls ∧
        List.Forall₂ (Sheet.IsReport v.deliveries) v.reported v.reports ∧
        (∀ r ∈ v.reported, ∃ ending, (r.1, ending) ∈ v.handled ∧ ending.outcome? = some r.2) ∧
        ∀ before later number, turns = before ++ later →
          number < (run w before (start broker trail handler)).deliveries.length →
          4 ≤ later.countP (·.number? = some number) →
          number ∈ v.reported.map Prod.fst ∨ (number, .never) ∈ v.handled) ∧
      (((∀ turn ∈ turns, turn ≠ .choice .shutdown) →
          v.pool.mode = .polling ∨ v.pool.mode = .idle) ∧
        (v.pool.mode = .idle → (v.after w (.choice .wake)).pool.mode = .polling) ∧
        (v.pool.mode = .polling → v.deliveries.length < v.reports.length + w.plan.concurrency →
          ∀ now words, ∃ answer, (v.after w (.choice (.poll now words))).minutes.answers =
            v.minutes.answers ++ [answer])) ∧
      (v.pool.mode = .stopped →
        ∀ number < v.deliveries.length, number ∈ v.reported.map Prod.fst) := by
  intro v
  have hstart := start_sound w broker trail handler
  have hv : v.sheet.Sound w.plan := run_sound hstart turns
  have hlength : v.deliveries.length = v.pool.running.length + v.reports.length := hv.length_eq
  refine ⟨?_, ⟨hv.handledOnce, List.Nodup.of_append_right hv.nodup, hv.calls, hv.reports, hv.ends,
    ?_⟩, ⟨fun hturns => run_mode hturns (.inl rfl), wake_mode, ?_⟩, ?_⟩
  · have hslots : v.pool.running.length ≤ w.plan.concurrency := hv.slots
    omega
  · rintro before later number rfl hnumber hsteps
    have hbefore := run_sound hstart before
    have htaken := hnumber.trans_eq hbefore.taken
    have hwithin : (run w before (start broker trail handler)).sheet.Within number 4 := by
      rcases hbefore.running_or_reported htaken with ⟨x, hx, hxnumber⟩ | hreported
      · exact .inr ⟨x, hx, hxnumber, x.stage.rest_le⟩
      · exact .inl hreported
    have hdone := run_within hbefore later hwithin
    rw [Nat.sub_eq_zero_of_le hsteps, ← run_append] at hdone
    refine hdone.imp_right ?_
    rintro ⟨x, hx, rfl, hrest⟩
    have hfits := hv.stages x hx
    cases hstage : x.stage with
    | stuck => rwa [hstage] at hfits
    | _ => simp [hstage, Stage.rest] at hrest
  · intro hmode hfree now words
    refine poll_answers hmode ?_ now words
    rw [Pool.HasSlot]
    omega
  · intro hstopped number hnumber
    have hempty : v.pool.running = [] := hv.stopped hconcurrency hstopped
    have htaken := hnumber.trans_eq hv.taken
    refine (hv.running_or_reported htaken).resolve_left ?_
    rintro ⟨x, hx, -⟩
    rw [show v.sheet.running = [] from hempty] at hx
    cases hx

/-- Two slots, a broker that fails now and then and loses every report, and a handler that
panics. -/
theorem run_safe_of_panic :
    let broker : Broker (List (Except Error (Option Delivery))) :=
      { enqueue := fun _ _ _ _ _ => pure (.error (.other "closed"))
        dequeue := fun _ _ answers => ⟨answers.headD (.ok none), answers.tail, []⟩
        ack := fun _ => pure (.error (.broker "lost"))
        fail := fun _ _ _ => pure (.refused (.broker "lost"))
        close := pure (.ok ()) }
    let receipt (msgId : Int) : Receipt := ⟨"q", msgId, 0, 1⟩
    let delivery (taskType : String) (msgId : Int) : Delivery :=
      ⟨⟨taskType, "1".toUTF8⟩, ⟨none, "q", 0, 1⟩, receipt msgId⟩
    let handler : Handler Unit := fun _ task =>
      pure (if task.taskType = "mail" then .panicked (some "boom") else .succeeded)
    let w : Crew (List (Except Error (Option Delivery))) Unit Unit :=
      ⟨broker, none, handler, ⟨2, [("q", 1)], .seconds 1, .seconds 1⟩⟩
    let answers := [.error (.broker "down"), .ok (some (delivery "mail" 7)),
      .ok (some (delivery "call" 8)), .ok (some (delivery "call" 9))]
    let now : Now := ⟨0, Timestamp.epoch⟩
    let poll : Choice := .poll now ⟨[], 0⟩
    let choices := [poll, .wake, poll, poll, poll] ++ List.replicate 4 (.advance 1 now) ++
      [.shutdown, poll] ++ List.replicate 4 (.advance 0 now) ++ [.finish]
    let v := run w (choices.map .choice) (start answers () ())
    v.deliveries = [delivery "mail" 7, delivery "call" 8] ∧
      v.reports = [(receipt 8, .completed), (receipt 7, .failed "panic: boom")] ∧
      ∀ number < v.deliveries.length, number ∈ v.reported.map Prod.fst := by
  intro broker receipt delivery handler w answers now poll choices v
  have hmode : v.pool.mode = .stopped := by decide
  exact ⟨by decide, by decide,
    (run_safe w (by decide) answers () () (choices.map .choice)).2.2.2 hmode⟩

end Shift

end TaskAudit.Worker
