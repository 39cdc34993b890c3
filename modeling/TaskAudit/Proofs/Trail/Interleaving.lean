import Mathlib
import TaskAudit.Proofs.Trail.Replay
import TaskAudit.Submission
import TaskAudit.Worker.Tracking

/-!
# Submitter and worker at once

A broker may deliver a task before its submitter has written to the trail. Then the
writes of both sides come in any order that keeps the order of each side. The trail
takes every write as it comes: what is written before the record is there is lost, and
marking the record as enqueued sets its status back. So the record shows how the last
delivery ended exactly if it was there before that delivery was marked as started, and
was marked as enqueued before that delivery ended.
-/
namespace TaskAudit
open scoped List

/-- Two lists as one, each of them in its own order. -/
inductive Interleaving {α : Type} : List α → List α → List α → Prop where
  | nil : Interleaving [] [] []
  | left {x : α} {xs ys zs : List α} :
    Interleaving xs ys zs → Interleaving (x :: xs) ys (x :: zs)
  | right {y : α} {xs ys zs : List α} :
    Interleaving xs ys zs → Interleaving xs (y :: ys) (y :: zs)

namespace Interleaving

variable {α : Type}

theorem of_nil {ys zs : List α} (h : Interleaving [] ys zs) : zs = ys := by
  generalize hxs : [] = xs at h
  induction h with
  | nil => rfl
  | left _ _ => cases hxs
  | right _ ih => rw [ih hxs]

theorem of_cons {x : α} {xs ys zs : List α} (h : Interleaving (x :: xs) ys zs) :
    ∃ before ys' zs', ys = before ++ ys' ∧ zs = before ++ x :: zs' ∧
      Interleaving xs ys' zs' := by
  generalize hxs : x :: xs = xs' at h
  induction h with
  | nil => cases hxs
  | @left y xs' ys zs h _ =>
      obtain ⟨rfl, rfl⟩ := List.cons.inj hxs
      exact ⟨[], ys, zs, rfl, rfl, h⟩
  | @right y xs' ys zs _ ih =>
      obtain ⟨before, ys', zs', rfl, rfl, h⟩ := ih hxs
      exact ⟨y :: before, ys', zs', rfl, rfl, h⟩

theorem of_pair {x y : α} {ys zs : List α} (h : Interleaving [x, y] ys zs) :
    ∃ before between after, ys = before ++ (between ++ after) ∧
      zs = before ++ x :: (between ++ y :: after) := by
  obtain ⟨before, ys', zs', rfl, rfl, h'⟩ := h.of_cons
  obtain ⟨between, after, zs'', rfl, rfl, h''⟩ := h'.of_cons
  exact ⟨before, between, after, rfl, by rw [h''.of_nil]⟩

end Interleaving

namespace Write

def starts : Write → Bool
  | started .. => true
  | _ => false

def ends : Write → Bool
  | completed .. | failed .. => true
  | _ => false

end Write

namespace Record

def after (ws : List Write) (r : Record) : Record := ws.foldl (fun r w => w.amend r) r

@[simp] theorem after_nil (r : Record) : r.after [] = r := rfl

@[simp] theorem after_cons (w : Write) (ws : List Write) (r : Record) :
    r.after (w :: ws) = (w.amend r).after ws := rfl

theorem after_append (ws vs : List Write) (r : Record) :
    r.after (ws ++ vs) = (r.after ws).after vs :=
  List.foldl_append

theorem EachTime.after {P : Timestamp → Prop} {r : Record} (hr : r.EachTime P) {ws : List Write}
    (hws : ∀ w ∈ ws, P w.time) : (r.after ws).EachTime P := by
  induction ws generalizing r with
  | nil => exact hr
  | cons w ws ih =>
      exact ih (hr.amend (hws w List.mem_cons_self)) fun v hv => hws v (List.mem_cons_of_mem w hv)

theorem after_startedAt (ws : List Write) (r : Record) :
    (r.after ws).startedAt.isSome = (r.startedAt.isSome || ws.any Write.starts) := by
  induction ws generalizing r with
  | nil => simp
  | cons w ws ih =>
      rw [after_cons, ih]
      cases w <;> simp [Write.amend, Write.starts]

theorem after_finishedAt (ws : List Write) (r : Record) :
    (r.after ws).finishedAt.isSome = (r.finishedAt.isSome || ws.any Write.ends) := by
  induction ws generalizing r with
  | nil => simp
  | cons w ws ih =>
      rw [after_cons, ih]
      cases w <;> simp [Write.amend, Write.ends]

end Record

namespace Ledger

theorem foldl_change_none {ws : List Write} (h : ∀ w ∈ ws, w.inserts = false) :
    ws.foldl (fun entry w => w.change entry) none = none := by
  induction ws with
  | nil => rfl
  | cons w ws ih =>
      rw [List.foldl_cons, Write.change_eq_map (h w List.mem_cons_self), Option.map_none]
      exact ih fun v hv => h v (List.mem_cons_of_mem w hv)

theorem foldl_change_some (ws : List Write) (r : Record) :
    ws.foldl (fun entry w => w.change entry) (some r) = some (r.after ws) := by
  induction ws generalizing r with
  | nil => rfl
  | cons w ws ih =>
      rw [List.foldl_cons, Write.change_some]
      exact ih (w.amend r)

end Ledger

/-- A delivery of a task as the trail sees it. -/
structure Attempt where
  startedAt : Timestamp
  outcome : Outcome
  finishedAt : Timestamp
  deriving DecidableEq, Repr

namespace Attempt

def opening (id : String) (a : Attempt) : Write := Tracking.opening a.startedAt id

def closing (id : String) (a : Attempt) : Write := Tracking.closing a.outcome a.finishedAt id

def writes (id : String) (attempts : List Attempt) : List Write :=
  attempts.flatMap fun a => [a.opening id, a.closing id]

theorem writes_append_singleton (id : String) (attempts : List Attempt) (a : Attempt) :
    writes id (attempts ++ [a]) = writes id attempts ++ [a.opening id, a.closing id] := by
  simp [writes]

@[simp] theorem opening_starts (id : String) (a : Attempt) : (a.opening id).starts = true := rfl

@[simp] theorem closing_starts (id : String) (a : Attempt) : (a.closing id).starts = false := by
  obtain ⟨_, outcome, _⟩ := a
  cases outcome <;> rfl

@[simp] theorem closing_ends (id : String) (a : Attempt) : (a.closing id).ends = true := by
  obtain ⟨_, outcome, _⟩ := a
  cases outcome <;> rfl

theorem closing_status (id : String) (a : Attempt) (r : Record) :
    ((a.closing id).amend r).status = a.outcome.status := by
  obtain ⟨_, outcome, _⟩ := a
  cases outcome <;> rfl

theorem starts_or_ends_of_mem {id : String} {attempts : List Attempt} {w : Write}
    (h : w ∈ writes id attempts) : w.starts = true ∨ w.ends = true := by
  obtain ⟨a, -, hw⟩ := List.mem_flatMap.mp h
  rcases List.mem_pair.mp hw with rfl | rfl
  · exact .inl (a.opening_starts id)
  · exact .inr (a.closing_ends id)

theorem inserts_of_mem {id : String} {attempts : List Attempt} {w : Write}
    (h : w ∈ writes id attempts) : w.inserts = false := by
  rcases starts_or_ends_of_mem h with hw | hw <;> cases w <;> first | rfl | cases hw

theorem enqueued_notMem {id id' queue : String} {time : Timestamp} {attempts : List Attempt} :
    .enqueued id' queue time ∉ writes id attempts := by
  intro h
  rcases starts_or_ends_of_mem h with hw | hw <;> cases hw

end Attempt

namespace Submitter

/-- The write that adds the record of an accepted task. -/
def insertion (accepted : Accepted) (taskType payload : String) (around : Surroundings) : Write :=
  .created (.ofNewTask accepted.id taskType accepted.queue payload around.atInsert)

/-- The write that marks an accepted task as enqueued. -/
def marking (accepted : Accepted) (around : Surroundings) : Write :=
  .enqueued accepted.id accepted.queue around.atMark

theorem writes_eq (accepted : Accepted) (taskType payload : String) (around : Surroundings) :
    writes accepted taskType payload around =
      [insertion accepted taskType payload around, marking accepted around] := rfl

end Submitter

/-- Does the record show how a delivery ended, and when it was started and ended? -/
structure Record.ShowsEnd (r : Record) (outcome : Outcome) : Prop where
  status : r.status = outcome.status
  started : r.startedAt.isSome = true
  finished : r.finishedAt.isSome = true

theorem Record.showsEnd_written {r : Record} {outcome : Outcome} :
    r.written.ShowsEnd outcome ↔ r.ShowsEnd outcome := by
  constructor
  · rintro ⟨hstatus, hstarted, hfinished⟩
    exact ⟨hstatus, by rwa [written, Option.isSome_map] at hstarted,
      by rwa [written, Option.isSome_map] at hfinished⟩
  · rintro ⟨hstatus, hstarted, hfinished⟩
    exact ⟨hstatus, by rwa [written, Option.isSome_map], by rwa [written, Option.isSome_map]⟩

theorem sublist_pair_iff {α : Type} {x y : α} {before : List α} (h : x ∉ before)
    (after : List α) : [x, y] <+ before ++ x :: after ↔ y ∈ after := by
  induction before with
  | nil => rw [List.nil_append, List.cons_sublist_cons, List.singleton_sublist]
  | cons z before ih =>
      rw [List.mem_cons, not_or] at h
      rw [List.cons_append, List.cons_sublist_cons', ih h.2]
      simp [h.1]

/-- The entry of an id whose writes are an insertion after some that only change records,
and then others. -/
theorem Ledger.run_of_insertion {id : String} {record : Record} {ws before after : List Write}
    (hws : ws.filter (·.id = id) = before ++ .created record :: after)
    (hbefore : ∀ w ∈ before, w.inserts = false) :
    Ledger.empty.run ws id = some (record.inserted.after after) := by
  rw [run_apply, hws, List.foldl_append]
  rw [show Ledger.empty id = none from rfl, foldl_change_none hbefore]
  rw [List.foldl_cons, Write.change_created_none, foldl_change_some]

section

variable {id queue : String} {record : Record} {time : Timestamp}
variable {earlier : List Attempt} {last : Attempt} {before between after : List Write}

theorem Record.not_showsEnd_of_marked (r : Record) (ws : List Write) (outcome : Outcome) :
    ¬ (r.after (ws ++ [.enqueued id queue time])).ShowsEnd outcome := by
  intro h
  have hstatus := h.status
  rw [Record.after_append] at hstatus
  cases outcome <;> cases hstatus

theorem Record.showsEnd_after_closing (r : Record) (ws : List Write) (hr : r.startedAt = none) :
    (r.after (ws ++ [last.closing id])).ShowsEnd last.outcome ↔ ws.any Write.starts = true := by
  have hstarted : (r.after (ws ++ [last.closing id])).startedAt.isSome = ws.any Write.starts := by
    rw [Record.after_startedAt, hr, List.any_append]
    simp
  rw [← hstarted]
  refine ⟨fun h => h.started, fun h => ⟨?_, h, ?_⟩⟩
  · rw [Record.after_append]
    exact last.closing_status id _
  · rw [Record.after_finishedAt, List.any_append]
    simp

/-- Of the writes that end with the start of the last delivery, some are left over as
starts exactly if that one is. -/
theorem any_starts_iff {ws : List Write}
    (h : before ++ ws = Attempt.writes id earlier ++ [last.opening id]) :
    ws.any Write.starts = true ↔ last.opening id ∈ ws := by
  constructor
  · intro hany
    cases ws using List.reverseRecOn with
    | nil => simp at hany
    | append_singleton ws w _ =>
        rw [← List.append_assoc] at h
        obtain ⟨-, hw⟩ := List.append_inj' h rfl
        rw [hw]
        exact List.mem_append_right ws (List.mem_singleton_self _)
  · intro hmem
    exact List.any_eq_true.mpr ⟨_, hmem, last.opening_starts id⟩

/-- What comes after the insertion shows how the last delivery ended exactly if the start
of that delivery follows the insertion, and its end follows the mark. -/
theorem Record.showsEnd_iff
    (h : before ++ (between ++ after) = Attempt.writes id (earlier ++ [last])) :
    (record.inserted.after (between ++ .enqueued id queue time :: after)).ShowsEnd last.outcome ↔
      last.opening id ∈ between ++ .enqueued id queue time :: after ∧ last.closing id ∈ after := by
  have hopening : last.opening id ≠ .enqueued id queue time := nofun
  have hclosing : last.opening id ≠ last.closing id := by
    intro heq
    have := congrArg Write.starts heq
    simp at this
  rw [Attempt.writes_append_singleton, ← List.append_assoc] at h
  cases after using List.reverseRecOn with
  | nil =>
      -- the mark is the last write of all and hides every end
      simp [Record.not_showsEnd_of_marked]
  | append_singleton after w _ =>
      -- the worker's last write is the last of all, and what is left of its writes before that
      -- ends with the start of the last delivery
      have hcut : (before ++ (between ++ after)) ++ [w] =
          (Attempt.writes id earlier ++ [last.opening id]) ++ [last.closing id] := by
        simpa using h
      obtain ⟨hrest, hw⟩ := List.append_inj' hcut rfl
      obtain rfl : w = last.closing id := by simpa using hw
      rw [← List.cons_append, ← List.append_assoc, Record.showsEnd_after_closing _ _ rfl]
      have hany := any_starts_iff hrest
      have hmark : (Write.enqueued id queue time).starts = false := rfl
      simp only [List.any_append, List.any_cons, hmark, Bool.false_or] at hany ⊢
      simp only [hany, List.mem_append, List.mem_cons, hopening, hclosing,
        or_false, false_or, or_true, and_true, List.not_mem_nil]

end

theorem Ledger.run_of_interleaving (accepted : Accepted) (taskType payload : String)
    (around : Surroundings) (earlier : List Attempt) (last : Attempt) {ws own : List Write}
    (hown : ws.filter (·.id = accepted.id) = own)
    (horder : Interleaving (Submitter.writes accepted taskType payload around)
      (Attempt.writes accepted.id (earlier ++ [last])) own)
    (hplain : ∀ w ∈ own, w.HasPlainYears) :
    ∃ r, Ledger.empty.run ws accepted.id = some r ∧ r.HasPlainYears ∧
      (r.ShowsEnd last.outcome ↔
        [Submitter.insertion accepted taskType payload around, last.opening accepted.id] <+ own ∧
          [Submitter.marking accepted around, last.closing accepted.id] <+ own) := by
  rw [Submitter.writes_eq] at horder
  obtain ⟨before, between, after, hworker, rfl⟩ := horder.of_pair
  have hbefore : ∀ w ∈ before, w.inserts = false := fun w hw =>
    Attempt.inserts_of_mem (hworker ▸ List.mem_append_left _ hw)
  have hinsertion : Submitter.insertion accepted taskType payload around ∉ before := by
    intro hw
    cases hbefore _ hw
  have hmarking : Submitter.marking accepted around ∉
      before ++ Submitter.insertion accepted taskType payload around :: between := by
    have hnot : Submitter.marking accepted around ∉ before ++ (between ++ after) :=
      hworker ▸ Attempt.enqueued_notMem
    simp only [List.mem_append, List.mem_cons, not_or] at hnot ⊢
    exact ⟨hnot.1, nofun, hnot.2.1⟩
  refine ⟨_, run_of_insertion hown hbefore, ?_, ?_⟩
  · have hinserted := hplain _ List.mem_append_cons_self
    have hrecord := Record.inserted_eachTime Timestamp.epoch_hasPlainYear hinserted
    refine hrecord.after fun w hw => hplain w ?_
    exact List.mem_append_right before (List.mem_cons_of_mem _ hw)
  · rw [sublist_pair_iff hinsertion, ← List.cons_append, ← List.append_assoc,
      sublist_pair_iff hmarking]
    exact Record.showsEnd_iff hworker.symm

namespace AuditTable

open Embedded

/-- Whatever order the writes of submitter and worker come in, and whatever is written
about other tasks between them, there is a record of the task afterwards. It shows how the
last delivery ended exactly if it was inserted before that delivery was marked as started,
and marked as enqueued before that delivery was marked as ended. -/
theorem shows_last_end_iff (settings : Settings) (hd : settings.dialect = .positional)
    (start : String) (accepted : Accepted) (taskType payload : String) (around : Surroundings)
    (earlier : List Attempt) (last : Attempt) (steps : List (String × Write)) {own : List Write}
    (hown : (steps.map Prod.snd).filter (·.id = accepted.id) = own)
    (horder : Interleaving (Submitter.writes accepted taskType payload around)
      (Attempt.writes accepted.id (earlier ++ [last])) own)
    (hplain : ∀ w ∈ own, w.HasPlainYears) :
    ∃ r, ((get database settings accepted.id).run
        ((replay settings steps).run (fresh start)).state).value = .ok r ∧
      (r.ShowsEnd last.outcome ↔
        [Submitter.insertion accepted taskType payload around, last.opening accepted.id] <+ own ∧
          [Submitter.marking accepted around, last.closing accepted.id] <+ own) := by
  obtain ⟨r, hr, hyears, hiff⟩ := Ledger.run_of_interleaving accepted taskType payload around
    earlier last hown horder hplain
  obtain ⟨-, hstate⟩ := run_replay settings hd steps (fresh_holds start)
  refine ⟨r.written, ?_, Record.showsEnd_written.trans hiff⟩
  rw [run_get hstate accepted.id fun r' hr' => Option.some.inj (hr.symm.trans hr') ▸ hyears, hr]

/-- A retried task, marked as enqueued while its first delivery is handled. -/
theorem shows_last_end_of_retry :
    let accepted : Accepted := ⟨"a", "default", "mail", 25, Timestamp.epoch⟩
    let around : Surroundings := ⟨"a", ⟨0, Timestamp.epoch⟩, Timestamp.epoch, Timestamp.epoch⟩
    let first : Attempt := ⟨Timestamp.epoch, .failed "no", Timestamp.epoch⟩
    let last : Attempt := ⟨Timestamp.epoch, .completed, Timestamp.epoch⟩
    let steps : List (String × Write) :=
      [("", Submitter.insertion accepted "mail" "1" around), ("", first.opening "a"),
        ("", Submitter.marking accepted around), ("", .started "b" Timestamp.epoch),
        ("", first.closing "a"), ("", last.opening "a"), ("", last.closing "a")]
    ∃ r, ((get database ⟨.positional, none⟩ "a").run
        ((replay ⟨.positional, none⟩ steps).run (fresh "")).state).value = .ok r ∧
      r.ShowsEnd .completed := by
  intro accepted around first last steps
  obtain ⟨r, hr, hiff⟩ := shows_last_end_iff ⟨.positional, none⟩ rfl "" accepted
    "mail" "1" around [first] last steps rfl
    (.left (.right (.left (.right (.right (.right .nil)))))) (by decide)
  exact ⟨r, hr, hiff.mpr (by decide)⟩

/-- A task that a worker completes before its submitter marks it as enqueued: afterwards the
record does not show that it is completed. -/
theorem last_end_lost_to_late_mark :
    let accepted : Accepted := ⟨"a", "default", "mail", 25, Timestamp.epoch⟩
    let around : Surroundings := ⟨"a", ⟨0, Timestamp.epoch⟩, Timestamp.epoch, Timestamp.epoch⟩
    let last : Attempt := ⟨Timestamp.epoch, .completed, Timestamp.epoch⟩
    let own := [Submitter.insertion accepted "mail" "1" around, last.opening "a",
      last.closing "a", Submitter.marking accepted around]
    Interleaving (Submitter.writes accepted "mail" "1" around) (Attempt.writes "a" [last]) own ∧
      ∃ r, ((get database ⟨.positional, none⟩ "a").run
          ((replay ⟨.positional, none⟩ (own.map fun w => ("", w))).run (fresh "")).state).value =
            .ok r ∧
        r.status = .created ∧ ¬ r.ShowsEnd .completed := by
  intro accepted around last own
  have horder : Interleaving (Submitter.writes accepted "mail" "1" around)
      (Attempt.writes "a" [last]) own := .left (.right (.right (.left .nil)))
  obtain ⟨-, hstate⟩ := run_replay ⟨.positional, none⟩ rfl
    (own.map fun w => ("", w)) (fresh_holds "")
  have hread := run_get_of_readable ⟨.positional, none⟩ hstate
    (Ledger.empty_isReadable.run (by decide)) "a"
  refine ⟨horder, _, congrArg Effect.value hread, rfl, ?_⟩
  intro h
  cases h.status

end AuditTable

end TaskAudit
