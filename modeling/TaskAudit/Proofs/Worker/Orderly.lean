import Mathlib
import TaskAudit.Proofs.Worker.Standing

/-!
# Every turn keeps the standings

A pool is orderly if every share is what the standing of its task says, and the numbers
of executions and deliveries are used once. A turn concerns one id: it changes the share
of that id from one standing to another, and leaves all others as they were.
-/
namespace TaskAudit.Worker
open scoped List

section

variable {η : Type} {ends : Task → UInt32 → Outcome} {jobs : String → Option Job}
variable {v : Watch η} {m : Ledger} {id : String} {x : Execution}

/-- Every share is what the standing of its task says, and numbers are used once. -/
structure Orderly (ends : Task → UInt32 → Outcome) (jobs : String → Option Job) (v : Watch η)
    (m : Ledger) : Prop where
  standing : ∀ id, Standing ends v.clock id (jobs id) (v.share m id)
  named : ∀ x ∈ v.pool.running, ∃ id, x.delivery.context.taskId = some id
  numbers : (v.pool.running.map Execution.number).Nodup
  taken : ∀ x ∈ v.pool.running, x.number < v.pool.taken
  msgIds : (v.pool.broker.inFlight.map Prod.fst).Nodup
  issued : ∀ p ∈ v.pool.broker.inFlight, p.1 ≤ v.pool.broker.issued
  holds : v.pool.trail.Holds m

namespace Orderly

theorem mem_share (hx : x ∈ v.pool.running) (hid : x.delivery.context.taskId = some id) :
    x ∈ (v.share m id).running :=
  List.mem_filter.mpr ⟨hx, decide_eq_true hid⟩

/-- The executions for other ids have other numbers. -/
theorem number_ne (h : Orderly ends jobs v m) (hx : x ∈ v.pool.running)
    (hid : x.delivery.context.taskId = some id) {other : String} (hne : other ≠ id) :
    ∀ y ∈ v.pool.running.filter (·.delivery.context.taskId = some other),
      y.number ≠ x.number := by
  intro y hy hnumber
  obtain ⟨hy, hother⟩ := List.mem_filter.mp hy
  obtain rfl := List.inj_on_of_nodup_map h.numbers hy hx hnumber
  rw [decide_eq_true_iff, hid] at hother
  exact hne (Option.some.inj hother).symm

theorem flight_eq (h : Orderly ends jobs v m) {p q : Int × Entry}
    (hp : p ∈ v.pool.broker.inFlight) (hq : q ∈ v.pool.broker.inFlight) (heq : p.1 = q.1) :
    p = q :=
  List.inj_on_of_nodup_map h.msgIds hp hq heq

theorem move (h : Orderly ends jobs v m) (hx : x ∈ v.pool.running)
    (hid : x.delivery.context.taskId = some id) (stage : Stage) {trail : Embedded} {handler : η}
    {attempts : List (Context × Task)} {clock : List Timestamp} {m' : Ledger}
    (hholds : trail.Holds m') (hclock : v.clock <+ clock)
    (hledger : ∀ other ≠ id, m' other = m other)
    (hattempts : ∀ other ≠ id, attempts.filter (·.1.taskId = some other) =
      v.attempts.filter (·.1.taskId = some other))
    (hown : Standing ends clock id (jobs id)
      { v.share m id with
        running := [{ x with stage }]
        attempts := attempts.filter (·.1.taskId = some id)
        record := m' id }) :
    Orderly ends jobs
      { v with
        pool.trail := trail
        pool.handler := handler
        pool.running := moved x.number stage v.pool.running
        attempts
        clock } m' where
  standing := by
    intro other
    by_cases hother : other = id
    · subst hother
      have hrunning := ((h.standing other).running_eq (mem_share hx hid)).2.1
      simp only [Watch.share] at hrunning hown ⊢
      rw [filter_moved, hrunning, moved_singleton]
      exact hown
    · have hshare := h.standing other
      simp only [Watch.share] at hshare ⊢
      rw [filter_moved, moved_of_ne (h.number_ne hx hid hother), hattempts other hother,
        hledger other hother]
      exact hshare.mono hclock
  named := by
    intro y hy
    obtain ⟨z, hz, -, hdelivery, -⟩ := mem_moved hy
    rw [hdelivery]
    exact h.named z hz
  numbers := by
    rw [map_number_moved]
    exact h.numbers
  taken := by
    intro y hy
    obtain ⟨z, hz, hnumber, -⟩ := mem_moved hy
    rw [hnumber]
    exact h.taken z hz
  msgIds := h.msgIds
  issued := h.issued
  holds := hholds

theorem flight_mem (h : Orderly ends jobs v m) (hx : x ∈ v.pool.running)
    (hid : x.delivery.context.taskId = some id) :
    ∃ own, (v.share m id).inFlight = [(x.delivery.receipt.msgId, own)] ∧
      (x.delivery.receipt.msgId, own) ∈ v.pool.broker.inFlight ∧ own.taskId = id := by
  obtain ⟨-, -, own, hown⟩ := (h.standing id).running_eq (mem_share hx hid)
  have hmem : (x.delivery.receipt.msgId, own) ∈ (v.share m id).inFlight := by
    rw [hown]
    exact List.mem_singleton_self _
  obtain ⟨hmem, hid⟩ := List.mem_filter.mp hmem
  exact ⟨own, hown, hmem, of_decide_eq_true hid⟩

/-- A delivery in flight with the number of an execution is the one it works on. -/
theorem flight_own (h : Orderly ends jobs v m) (hx : x ∈ v.pool.running)
    (hid : x.delivery.context.taskId = some id) {entry : Entry} {before rest : List (Int × Entry)}
    (hflight : v.pool.broker.inFlight = before ++ (x.delivery.receipt.msgId, entry) :: rest) :
    entry.taskId = id ∧ (v.share m id).inFlight = [(x.delivery.receipt.msgId, entry)] ∧
      (before ++ rest).filter (·.2.taskId = id) = [] := by
  obtain ⟨own, hown, hmem, hownId⟩ := h.flight_mem hx hid
  have hentry : (x.delivery.receipt.msgId, entry) ∈ v.pool.broker.inFlight := by
    rw [hflight]
    exact List.mem_append_cons_self
  obtain rfl := (Prod.mk.inj (h.flight_eq hmem hentry rfl)).2
  refine ⟨hownId, hown, ?_⟩
  have hcons : ((x.delivery.receipt.msgId, own) :: rest).filter (·.2.taskId = id) =
      (x.delivery.receipt.msgId, own) :: rest.filter (·.2.taskId = id) :=
    List.filter_cons_of_pos (decide_eq_true hownId)
  simp only [Watch.share, hflight, List.filter_append, hcons] at hown
  obtain ⟨-, hbefore, hrest⟩ := Backlog.around_eq_singleton hown
  rw [List.filter_append, hbefore, hrest, List.append_nil]

theorem leave (h : Orderly ends jobs v m) (hx : x ∈ v.pool.running)
    (hid : x.delivery.context.taskId = some id) {entry : Entry} {before rest : List (Int × Entry)}
    (hflight : v.pool.broker.inFlight = before ++ (x.delivery.receipt.msgId, entry) :: rest)
    {waiting : List Waiting} {dead acked : List Entry} {clock : List Timestamp}
    (hclock : v.clock <+ clock)
    (hwaiting : ∀ other ≠ id, waiting.filter (·.entry.taskId = other) =
      v.pool.broker.waiting.filter (·.entry.taskId = other))
    (hdead : ∀ other ≠ id, dead.filter (·.taskId = other) =
      v.pool.broker.dead.filter (·.taskId = other))
    (hacked : ∀ other ≠ id, acked.filter (·.taskId = other) = v.acked.filter (·.taskId = other))
    (hown : Standing ends v.clock id (jobs id)
      { v.share m id with
        waiting := waiting.filter (·.entry.taskId = id)
        inFlight := []
        dead := dead.filter (·.taskId = id)
        running := []
        acked := acked.filter (·.taskId = id) }) :
    Orderly ends jobs
      { v with
        pool.broker.waiting := waiting
        pool.broker.inFlight := before ++ rest
        pool.broker.dead := dead
        pool.running := left x.number v.pool.running
        acked
        clock } m where
  standing := by
    obtain ⟨hentry, hfound, hempty⟩ := h.flight_own hx hid hflight
    intro other
    by_cases hother : other = id
    · subst hother
      have hrunning := ((h.standing other).running_eq (mem_share hx hid)).2.1
      simp only [Watch.share] at hrunning hown ⊢
      rw [filter_left, hrunning, left_singleton, hempty]
      exact hown.mono hclock
    · have hshare := h.standing other
      have hkept : (before ++ rest).filter (·.2.taskId = other) =
          v.pool.broker.inFlight.filter (·.2.taskId = other) := by
        rw [hflight, List.filter_append, List.filter_append, List.filter_cons_of_neg]
        simpa [hentry] using Ne.symm hother
      simp only [Watch.share] at hshare ⊢
      rw [filter_left, left_of_ne (h.number_ne hx hid hother), hwaiting other hother,
        hdead other hother, hacked other hother, hkept]
      exact hshare.mono hclock
  named := fun y hy => h.named y (List.mem_of_mem_filter hy)
  numbers := h.numbers.sublist (List.filter_sublist.map _)
  taken := fun y hy => h.taken y (List.mem_of_mem_filter hy)
  msgIds := by
    have hnodup := h.msgIds
    rw [hflight] at hnodup
    exact hnodup.sublist ((Backlog.around_sublist before rest _).map _)
  issued := by
    intro p hp
    refine h.issued p ?_
    rw [hflight]
    exact (Backlog.around_sublist before rest _).mem hp
  holds := h.holds

theorem take (h : Orderly ends jobs v m) {queue : String} {entry : Entry}
    {before rest : List Waiting} {clock : List Timestamp} (hclock : v.clock <+ clock)
    (hwaiting : v.pool.broker.waiting = before ++ ⟨queue, entry⟩ :: rest) :
    Orderly ends jobs
      { v with
        pool.broker.waiting := before ++ rest
        pool.broker.inFlight :=
          v.pool.broker.inFlight ++ [((v.pool.broker.issued : Int) + 1, entry)]
        pool.broker.issued := v.pool.broker.issued + 1
        pool.running := v.pool.running ++
          [⟨v.pool.taken, Backlog.delivery queue (v.pool.broker.issued + 1) entry, .arrived⟩]
        pool.taken := v.pool.taken + 1
        clock } m where
  standing := by
    intro other
    by_cases hother : entry.taskId = other
    · -- the id waits, so its standing has no delivery and no execution of it
      have hw : ⟨queue, entry⟩ ∈ (v.share m other).waiting := by
        simp only [Watch.share, hwaiting, List.filter_append]
        exact List.mem_append_right _
          (List.mem_filter.mpr ⟨List.mem_cons_self, decide_eq_true hother⟩)
      obtain ⟨hown, hflight, hrunning⟩ := (h.standing other).waiting_eq hw
      have hcons : (⟨queue, entry⟩ :: rest).filter (·.entry.taskId = other) =
          ⟨queue, entry⟩ :: rest.filter (·.entry.taskId = other) :=
        List.filter_cons_of_pos (decide_eq_true hother)
      have htaken := (h.standing other).take hw (v.pool.broker.issued + 1) v.pool.taken
      have hstanding := htaken.mono hclock
      simp only [Watch.share, hwaiting, List.filter_append, hcons] at hown hflight hrunning
      obtain ⟨-, hbefore, hrest⟩ := Backlog.around_eq_singleton hown
      simp only [Watch.share, List.filter_append, hbefore, hrest, hflight, hrunning] at hstanding ⊢
      simpa [hother, Backlog.delivery] using hstanding
    · have hshare := (h.standing other).mono hclock
      simp only [Watch.share, hwaiting, List.filter_append] at hshare ⊢
      simpa [hother, Backlog.delivery] using hshare
  named := by
    intro y hy
    rcases List.mem_append.mp hy with hy | hy
    · exact h.named y hy
    · obtain rfl := List.mem_singleton.mp hy
      exact ⟨entry.taskId, rfl⟩
  numbers := by
    rw [List.map_append, List.map_singleton]
    refine h.numbers.append (List.nodup_singleton _) ?_
    rw [List.disjoint_singleton]
    intro hmem
    obtain ⟨y, hy, hnumber⟩ := List.mem_map.mp hmem
    exact absurd hnumber (h.taken y hy).ne
  taken := by
    intro y hy
    rcases List.mem_append.mp hy with hy | hy
    · exact Nat.lt_succ_of_lt (h.taken y hy)
    · obtain rfl := List.mem_singleton.mp hy
      exact Nat.lt_succ_self _
  msgIds := by
    rw [List.map_append, List.map_singleton]
    refine h.msgIds.append (List.nodup_singleton _) ?_
    rw [List.disjoint_singleton]
    intro hmem
    obtain ⟨p, hp, hmsgId⟩ := List.mem_map.mp hmem
    have hissued := h.issued p hp
    omega
  issued := by
    intro p hp
    push_cast
    rcases List.mem_append.mp hp with hp | hp
    · have hissued := h.issued p hp
      omega
    · obtain rfl := List.mem_singleton.mp hp
      exact le_refl _
  holds := h.holds

theorem rest (h : Orderly ends jobs v m) (mode : Mode) {clock : List Timestamp}
    (hclock : v.clock <+ clock) : Orderly ends jobs { v with pool.mode := mode, clock } m :=
  ⟨fun other => (h.standing other).mono hclock, h.named, h.numbers, h.taken, h.msgIds, h.issued,
    h.holds⟩

theorem mark {settings : AuditTable.Settings} (hd : settings.dialect = .positional)
    (h : Orderly ends jobs v m) (hx : x ∈ v.pool.running)
    (hid : x.delivery.context.taskId = some id) {w : String → Write} (hw : (w id).id = id)
    (hinserts : (w id).inserts = false) (stage : Stage) {clock : List Timestamp}
    (hclock : v.clock <+ clock)
    (hown : Standing ends clock id (jobs id)
      { v.share m id with
        running := [{ x with stage }]
        record := (m id).map (w id).amend }) :
    ∃ m', Orderly ends jobs
      { v with
        pool.trail := ((Trail.track (some (AuditTable.trail Embedded.database settings))
          x.delivery.context.taskId w).run v.pool.trail).state
        pool.running := moved x.number stage v.pool.running
        clock } m' := by
  refine ⟨m.after (w id), ?_⟩
  rw [hid, Trail.track_state]
  refine h.move hx hid stage (AuditTable.run_write hd h.holds (w id)).2.1 hclock ?_ ?_ ?_
  · intro other hother
    exact Ledger.after_of_ne m (by rwa [hw])
  · exact fun _ _ => rfl
  · rw [Ledger.after_of_id m hw hinserts]
    exact hown

theorem msgId_mem (h : Orderly ends jobs v m) (hx : x ∈ v.pool.running)
    (hid : x.delivery.context.taskId = some id) :
    x.delivery.receipt.msgId ∈ v.pool.broker.inFlight.map Prod.fst := by
  obtain ⟨own, -, hmem, -⟩ := h.flight_mem hx hid
  exact List.mem_map.mpr ⟨_, hmem, rfl⟩

end Orderly

/-- Can a clock show the moment of the next delivery, if the choice reports a failure? -/
def Choice.IsShowable (delay : Span) : Choice → Prop
  | .advance _ now => Backlog.after? now.moment delay ≠ none
  | _ => True

instance (delay : Span) : DecidablePred (Choice.IsShowable delay) := fun choice => by
  cases choice <;> unfold Choice.IsShowable <;> infer_instance

/-- Every turn keeps a pool orderly. -/
theorem Orderly.turns {delay : Span} {settings : AuditTable.Settings} {handler : Handler η}
    (hd : settings.dialect = .positional)
    (hhandler : ∀ context task s,
      ((handler context task).run s).value.outcome? = some (ends task context.retryCount))
    (h : Orderly ends jobs v m) {choice : Choice} (hshow : choice.IsShowable delay) {v' : Watch η}
    (hturn : Turns delay settings handler v choice v') : ∃ m', Orderly ends jobs v' m' := by
  have hclock : ∀ time, v.clock <+ v.clock ++ [time] := fun time => List.sublist_append_left _ _
  cases hturn with
  | rested => exact ⟨m, h.rest _ (List.sublist_append_left _ _)⟩
  | took hwaiting => exact ⟨m, h.take (hclock _) hwaiting⟩
  | @opened now x hx hstage =>
      obtain ⟨id, hid⟩ := h.named x hx
      exact h.mark hd hx hid rfl rfl .started (hclock _)
        ((h.standing id).opened (mem_share hx hid) hstage now.time)
  | @closed now x outcome hx hstage =>
      obtain ⟨id, hid⟩ := h.named x hx
      exact h.mark hd hx hid (Tracking.closing_id outcome now.time id)
        (Tracking.closing_inserts outcome now.time id) (.marked outcome) (hclock _)
        ((h.standing id).closed (mem_share hx hid) hstage now.time)
  | @handled now x hx hstage =>
      obtain ⟨id, hid⟩ := h.named x hx
      have hended : Stage.ofEnding
          ((handler x.delivery.context x.delivery.task).run v.pool.handler).value =
            .ended (ends x.delivery.task x.delivery.context.retryCount) := by
        rw [Stage.ofEnding, hhandler]
      rw [hended]
      refine ⟨m, h.move hx hid _ h.holds (hclock _) (fun _ _ => rfl) ?_ ?_⟩
      · intro other hother
        simp [hid, Ne.symm hother]
      · have hstanding := ((h.standing id).handled (mem_share hx hid) hstage).mono (hclock now.time)
        simp only [Watch.share] at hstanding ⊢
        simpa [hid] using hstanding
  | @acked now x hx hstage =>
      obtain ⟨id, hid⟩ := h.named x hx
      rcases Backlog.ack_cases x.delivery.receipt v.pool.broker with
        ⟨hunknown, -⟩ | ⟨entry, before, rest, hflight, hbefore, hrun⟩
      · exact absurd (h.msgId_mem hx hid) hunknown
      · obtain ⟨hentry, hfound, -⟩ := h.flight_own hx hid hflight
        rw [hrun, Backlog.inFlight?_of_split hflight hbefore, Option.toList_some]
        refine ⟨m, h.leave hx hid hflight (hclock _) (fun _ _ => rfl) (fun _ _ => rfl) ?_ ?_⟩
        · intro other hother
          simp [hentry, Ne.symm hother]
        · have hstanding := (h.standing id).acked (mem_share hx hid) hstage hfound
          simpa [Watch.share, hentry] using hstanding
  | @failed now x text hx hstage =>
      obtain ⟨id, hid⟩ := h.named x hx
      rcases Backlog.fail_cases delay now x.delivery.receipt text v.pool.broker with
        ⟨hunknown, -⟩ | ⟨entry, before, rest, hflight, -, ⟨hretries, hrun⟩ | ⟨-, hready, -⟩ |
          ⟨readyAt, hretries, hready, hrun⟩⟩
      · exact absurd (h.msgId_mem hx hid) hunknown
      · obtain ⟨hentry, hfound, -⟩ := h.flight_own hx hid hflight
        rw [hrun]
        refine ⟨m, h.leave hx hid hflight (hclock _) (fun _ _ => rfl) ?_ (fun _ _ => rfl) ?_⟩
        · intro other hother
          simp [hentry, Ne.symm hother]
        · have hstanding := (h.standing id).buried (mem_share hx hid) hstage hfound hretries
          simpa [Watch.share, hentry] using hstanding
      -- the only turn that would lose a task is one whose clock runs out
      · exact absurd hready hshow
      · obtain ⟨hentry, hfound, -⟩ := h.flight_own hx hid hflight
        rw [hrun]
        refine ⟨m, h.leave hx hid hflight (hclock _) ?_ (fun _ _ => rfl) (fun _ _ => rfl) ?_⟩
        · intro other hother
          simp [Backlog.retried, hentry, Ne.symm hother]
        · have hwaiting := ((h.standing id).running_eq (mem_share hx hid)).1
          have hstanding :=
            (h.standing id).retried (mem_share hx hid) hstage hfound hretries readyAt
          simp only [Watch.share] at hwaiting
          simpa [Watch.share, hwaiting, Backlog.retried, hentry] using hstanding

/-- Every run keeps a pool orderly. -/
theorem Orderly.run {delay : Span} {settings : AuditTable.Settings} {handler : Handler η}
    (hd : settings.dialect = .positional)
    (hhandler : ∀ context task s,
      ((handler context task).run s).value.outcome? = some (ends task context.retryCount))
    (plan : Plan) (h : Orderly ends jobs v m) (choices : List Choice)
    (hshow : ∀ choice ∈ choices, choice.IsShowable delay) :
    ∃ m', Orderly ends jobs (.run (crew delay settings handler plan) choices v) m' := by
  induction choices generalizing v m with
  | nil => exact ⟨m, h⟩
  | cons choice choices ih =>
      obtain ⟨m', h'⟩ := h.turns hd hhandler (hshow choice List.mem_cons_self)
        (after_turns plan v choice)
      exact ih h' fun c hc => hshow c (List.mem_cons_of_mem choice hc)

end

end TaskAudit.Worker
