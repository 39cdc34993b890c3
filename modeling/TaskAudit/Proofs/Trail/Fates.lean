import Mathlib
import TaskAudit.Proofs.Trail.Refinement

/-!
# What becomes of a write

A query that a database refuses changes nothing, an insertion adds one row, and an update
changes the rows with its id, of which there is at most one. So a write of the trail has one
of three fates: it changes one row, it matches none, or it fails. What is told of it says which.
-/
namespace TaskAudit

open Embedded

theorem Write.exists_created {w : Write} (h : w.inserts = true) : ∃ r, w = .created r := by
  cases w with
  | created r => exact ⟨r, rfl⟩
  | _ => cases h

/-- What a database does with the writes of a trail, as long as it is sound. The table may be
missing, and any query may be refused or get no connection. Rows have no order. -/
structure Database.Law {δ : Type} (db : Database δ) where
  IsSound : δ → Prop
  rows : δ → List Row
  keyed : ∀ {s} id, IsSound s → ((rows s).filter (hasId (some id))).length ≤ 1
  sound : ∀ {s} dialect w, IsSound s → IsSound (db.execute (.ofWrite dialect w) s).2
  refused : ∀ {s dialect w}, IsSound s →
    (∀ n, (db.execute (.ofWrite dialect w) s).1 ≠ .answered (.ok n)) →
    (rows (db.execute (.ofWrite dialect w) s).2).Perm (rows s)
  inserted : ∀ {s dialect r n}, IsSound s →
    (db.execute (.ofWrite dialect (.created r)) s).1 = .answered (.ok n) →
    ∃ now, (rows (db.execute (.ofWrite dialect (.created r)) s).2).Perm
      (.inserted now r :: rows s)
  amended : ∀ {s dialect w n}, IsSound s → w.inserts = false →
    (db.execute (.ofWrite dialect w) s).1 = .answered (.ok n) →
    n = ((rows s).filter (hasId (some w.id))).length ∧
      ∃ now, (rows (db.execute (.ofWrite dialect w) s).2).Perm (amendAll now w (rows s))

namespace Embedded

variable {s : Embedded} {rows : List Row} {dialect : Dialect} {w : Write}

theorem perform_refused (h : s.rows = none ∨ s.readOnly = true ∨ dialect = .numbered)
    (w : Write) : ∃ fault, perform (.ofWrite dialect w) s = (.error fault, s) := by
  cases hrows : s.rows with
  | none =>
      refine ⟨noTable, ?_⟩
      cases w <;> simp [perform, hrows, Query.ofWrite]
  | some rows =>
      cases dialect with
      | numbered =>
          refine ⟨noNow, ?_⟩
          cases w <;> simp [perform, hrows, Query.ofWrite]
      | positional =>
          have hreadOnly : s.readOnly = true := by simpa [hrows] using h
          refine ⟨notWritable, ?_⟩
          cases w <;> simp [perform, hrows, Query.ofWrite, hreadOnly]

/-- What the database does with a write, whatever its condition: it refuses it and stays as it
is, it adds a row of a new id, or it changes the rows with the id. -/
inductive Executes (s : Embedded) : Write → Reply Nat × Embedded → Prop where
  | refused {w : Write} {reply : Reply Nat} (hrefused : ∀ n, reply ≠ .answered (.ok n)) :
    Executes s w (reply, s)
  | inserted {r : Record} {rows : List Row} (hrows : s.rows = some rows)
    (hnew : rows.any (hasId (some r.id)) = false) :
    Executes s (.created r)
      (.answered (.ok 1), { s with rows := some (rows ++ [.inserted s.now r]) })
  | amended {w : Write} {rows : List Row} (hrows : s.rows = some rows) (hw : w.inserts = false) :
    Executes s w (.answered (.ok (rows.filter (hasId (some w.id))).length),
      { s with rows := some (amendAll s.now w rows) })

theorem executes (s : Embedded) (dialect : Dialect) (w : Write) :
    Executes s w (database.execute (.ofWrite dialect w) s) := by
  by_cases hclosed : s.closed = true
  · simp only [database, allow, hclosed, if_true]
    exact .refused fun _ h => by cases h
  by_cases hheld : s.held = true
  · simp only [database, allow, hclosed, hheld, Bool.false_eq_true, if_false, if_true]
    exact .refused fun _ h => by cases h
  have hallowed : database.execute (.ofWrite dialect w) s =
      (.answered (perform (.ofWrite dialect w) s).1, (perform (.ofWrite dialect w) s).2) := by
    simp [database, allow, hclosed, hheld]
  rw [hallowed]
  by_cases hunusable : s.rows = none ∨ s.readOnly = true ∨ dialect = .numbered
  · obtain ⟨fault, hfault⟩ := perform_refused hunusable w
    rw [hfault]
    exact .refused fun _ h => by cases h
  · rw [not_or, not_or, Bool.not_eq_true] at hunusable
    obtain ⟨hrows, hwritable, hdialect⟩ := hunusable
    obtain ⟨rows, hrows⟩ := Option.ne_none_iff_exists'.mp hrows
    obtain rfl : dialect = .positional := by
      cases dialect with
      | positional => rfl
      | numbered => exact absurd rfl hdialect
    cases hw : w.inserts with
    | false =>
        rw [perform_amend hrows hwritable hw]
        exact .amended hrows hw
    | true =>
        obtain ⟨r, rfl⟩ := Write.exists_created hw
        rw [perform_created hrows hwritable]
        split
        · exact .refused fun _ h => by cases h
        · next hnew => exact .inserted hrows (Bool.eq_false_iff.mpr hnew)

/-- No two rows have the same id. -/
def IsKeyed (rows : List Row) : Prop := ∀ id, (rows.filter (hasId (some id))).length ≤ 1

theorem IsKeyed.insert (h : IsKeyed rows) {r : Record}
    (hnew : rows.any (hasId (some r.id)) = false) (now : String) :
    IsKeyed (rows ++ [.inserted now r]) := by
  intro id
  rw [List.filter_append, List.length_append]
  by_cases hid : id = r.id
  · subst hid
    have hnone : rows.filter (hasId (some r.id)) = [] :=
      List.filter_eq_nil_iff.mpr (List.any_eq_false.mp hnew)
    rw [hnone, List.length_nil, Nat.zero_add]
    exact List.length_filter_le _ [Row.inserted now r]
  · have hnone : [Row.inserted now r].filter (hasId (some id)) = [] := by
      simp [Row.inserted, Ne.symm hid]
    rw [hnone, List.length_nil]
    exact h id

theorem IsKeyed.amend (h : IsKeyed rows) (now : String) (w : Write) :
    IsKeyed (amendAll now w rows) := by
  intro id
  rw [filter_amendAll]
  split
  · rw [List.length_map]
    exact h id
  · exact h id

/-- The embedded database keeps the law, also closed, held, only for reading or without its
table. -/
def law : database.Law where
  IsSound s := IsKeyed (s.rows.getD [])
  rows s := s.rows.getD []
  keyed id hs := hs id
  sound := by
    intro s dialect w hs
    have h := executes s dialect w
    generalize database.execute (.ofWrite dialect w) s = e at h ⊢
    cases h with
    | refused _ => exact hs
    | inserted hrows hnew =>
        rw [hrows] at hs
        exact hs.insert hnew s.now
    | amended hrows _ =>
        rw [hrows] at hs
        exact hs.amend s.now w
  refused := by
    intro s dialect w hs hrefused
    have h := executes s dialect w
    generalize database.execute (.ofWrite dialect w) s = e at h hrefused ⊢
    cases h with
    | refused _ => exact .rfl
    | inserted _ _ => exact absurd rfl (hrefused 1)
    | amended _ _ => exact absurd rfl (hrefused _)
  inserted := by
    intro s dialect r n hs hanswered
    have h := executes s dialect (.created r)
    generalize database.execute (.ofWrite dialect (.created r)) s = e at h hanswered ⊢
    cases h with
    | refused hrefused => exact absurd hanswered (hrefused n)
    | inserted hrows _ =>
        rw [hrows]
        exact ⟨s.now, List.perm_append_singleton _ _⟩
    | amended _ hw => cases hw
  amended := by
    intro s dialect w n hs hw hanswered
    have h := executes s dialect w
    generalize database.execute (.ofWrite dialect w) s = e at h hanswered ⊢
    cases h with
    | refused hrefused => exact absurd hanswered (hrefused n)
    | inserted _ _ => cases hw
    | @amended _ rows hrows _ =>
        obtain rfl : (rows.filter (hasId (some w.id))).length = n :=
          Except.ok.inj (Reply.answered.inj hanswered)
        rw [hrows]
        exact ⟨rfl, s.now, .rfl⟩

end Embedded

/-- Does a write change exactly one row, a new one or the one with its id? -/
inductive Write.ChangesOne : Write → List Row → List Row → Prop where
  | added {r : Record} {before after : List Row} (now : String)
    (hafter : after.Perm (.inserted now r :: before)) : ChangesOne (.created r) before after
  | amended {w : Write} {row : Row} {others before after : List Row} (now : String)
    (hw : w.inserts = false) (hid : row.id = some w.id) (hbefore : before.Perm (row :: others))
    (hafter : after.Perm (row.amended now w :: others)) : ChangesOne w before after

/-- What becomes of a write. -/
inductive Fate where
  | matched
  | unmatched
  | failed (reason : Error)
  deriving DecidableEq, Repr

namespace Fate

def of (w : Write) (before : List Row) : Except Error Unit → Fate
  | .error reason => failed reason
  | .ok () =>
    if w.inserts || before.any (hasId (some w.id)) then matched else unmatched

def Fits (w : Write) (before after : List Row) : Fate → Prop
  | matched => w.ChangesOne before after
  | unmatched => (∀ row ∈ before, row.id ≠ some w.id) ∧ after.Perm before
  | failed _ => after.Perm before

def events (w : Write) : Fate → List Event
  | matched => [.measure (.transition w.target)]
  | unmatched => [.notice (.noRecordMatched w.id w.target)]
  | failed reason =>
    [.notice (.writeFailed w.operation w.id reason.message), .measure (.writeFailure w.operation)]

end Fate

theorem Embedded.amendAll_perm {rows : List Row} {w : Write} {now : String}
    (hone : (rows.filter (hasId (some w.id))).length = 1) :
    ∃ row others, row.id = some w.id ∧ rows.Perm (row :: others) ∧
      (amendAll now w rows).Perm (row.amended now w :: others) := by
  obtain ⟨row, hrow⟩ := List.length_eq_one_iff.mp hone
  have hmem : row ∈ rows.filter (hasId (some w.id)) := by
    rw [hrow]
    exact List.mem_singleton_self row
  have hid : row.id = some w.id := (hasId_some w.id row).mp (List.mem_filter.mp hmem).2
  have hsplit : rows.Perm (row :: rows.filter fun r => !hasId (some w.id) r) := by
    have h := (List.filter_append_perm (hasId (some w.id)) rows).symm
    rwa [hrow] at h
  refine ⟨row, _, hid, hsplit, ?_⟩
  have hamended := hsplit.map fun r => if hasId (some w.id) r then r.amended now w else r
  rw [List.map_cons, if_pos ((hasId_some w.id row).mpr hid)] at hamended
  have hothers : (rows.filter fun r => !hasId (some w.id) r).map
      (fun r => if hasId (some w.id) r then r.amended now w else r) =
        rows.filter fun r => !hasId (some w.id) r := by
    refine (List.map_congr_left fun r hr => ?_).trans (List.map_id _)
    have hnot : hasId (some w.id) r = false := by
      simpa only [Bool.not_eq_true'] using (List.mem_filter.mp hr).2
    simp only [hnot, Bool.false_eq_true, if_false, id]
  rwa [hothers] at hamended

namespace AuditTable

section

variable {δ : Type} {db : Database δ} {dialect : Dialect} {s : δ} {w : Write}

theorem run_write_of_refused
    (h : ∀ n, (db.execute (.ofWrite dialect w) s).1 ≠ .answered (.ok n)) :
    ∃ reason, (write db ⟨dialect, none⟩ w).run s =
      ⟨.error reason, (db.execute (.ofWrite dialect w) s).2, []⟩ := by
  have hexecute : ∃ reason, (execute db ⟨dialect, none⟩ (.ofWrite dialect w)).run s =
      ⟨.error reason, (db.execute (.ofWrite dialect w) s).2, []⟩ := by
    simp only [execute, Action.run]
    cases hreply : (db.execute (.ofWrite dialect w) s).1 with
    | stalled => exact ⟨_, rfl⟩
    | answered answer =>
        cases answer with
        | error fault => exact ⟨_, rfl⟩
        | ok n => exact absurd hreply (h n)
  obtain ⟨reason, hreason⟩ := hexecute
  refine ⟨reason, ?_⟩
  simp only [write, Action.run_bind, hreason, Action.run_pure, List.append_nil]

theorem run_write_of_answered {n : Nat}
    (h : (db.execute (.ofWrite dialect w) s).1 = .answered (.ok n)) :
    (write db ⟨dialect, none⟩ w).run s =
      ⟨.ok (), (db.execute (.ofWrite dialect w) s).2,
        if w.inserts || n ≠ 0 then [.measure (.transition w.target)]
        else [.notice (.noRecordMatched w.id w.target)]⟩ := by
  have hexecute : (execute db ⟨dialect, none⟩ (.ofWrite dialect w)).run s =
      ⟨.ok n, (db.execute (.ofWrite dialect w) s).2, []⟩ := by
    simp only [execute, Action.run, h]
    rfl
  simp only [write, Action.run_bind, hexecute]
  cases w with
  | created r => simp [Write.inserts]
  | _ => by_cases hn : n = 0 <;> simp [hn, Write.inserts]

end

end AuditTable

theorem Trail.record_events {σ : Type} (trail : Trail σ) (w : Write) (s : σ) :
    ((trail.record w).run s).events =
      ((trail.write w).run s).events ++
        match ((trail.write w).run s).value with
        | .ok () => []
        | .error reason => (Fate.failed reason).events w := by
  simp only [record, tolerate, Action.run_bind]
  cases ((trail.write w).run s).value <;> rfl

theorem Database.Law.record_fate {δ : Type} {db : Database δ} (law : db.Law) (dialect : Dialect)
    {s : δ} (hs : law.IsSound s) (w : Write) :
    let e := (AuditTable.write db ⟨dialect, none⟩ w).run s
    let fate := Fate.of w (law.rows s) e.value
    law.IsSound e.state ∧ fate.Fits w (law.rows s) (law.rows e.state) ∧
      (((AuditTable.trail db ⟨dialect, none⟩).record w).run s).events = fate.events w := by
  intro e fate
  have hevents : (((AuditTable.trail db ⟨dialect, none⟩).record w).run s).events =
      e.events ++ match e.value with
        | .ok () => []
        | .error reason => (Fate.failed reason).events w :=
    Trail.record_events _ w s
  rw [hevents]
  by_cases hanswered : ∃ n, (db.execute (.ofWrite dialect w) s).1 = .answered (.ok n)
  · obtain ⟨n, hn⟩ := hanswered
    simp only [fate, e, AuditTable.run_write_of_answered hn, List.append_nil]
    refine ⟨law.sound dialect w hs, ?_⟩
    cases hw : w.inserts with
    | true =>
        obtain ⟨r, rfl⟩ := Write.exists_created hw
        obtain ⟨now, hafter⟩ := law.inserted hs hn
        exact ⟨.added now hafter, rfl⟩
    | false =>
        obtain ⟨hcount, now, hafter⟩ := law.amended hs hw hn
        by_cases hany : (law.rows s).any (hasId (some w.id)) = true
        · have hpos : 0 < ((law.rows s).filter (hasId (some w.id))).length := by
            rw [List.length_filter_pos_iff]
            exact List.any_eq_true.mp hany
          have hone : ((law.rows s).filter (hasId (some w.id))).length = 1 := by
            have hle := law.keyed w.id hs
            omega
          obtain ⟨row, others, hid, hbefore, hamended⟩ := Embedded.amendAll_perm hone
          rw [hcount, hone]
          simp only [Fate.of, hw, hany, Bool.false_or]
          exact ⟨.amended now hw hid hbefore (hafter.trans hamended), rfl⟩
        · rw [Bool.not_eq_true] at hany
          have hnone : (law.rows s).filter (hasId (some w.id)) = [] :=
            List.filter_eq_nil_iff.mpr (List.any_eq_false.mp hany)
          rw [hcount, hnone]
          rw [amendAll_of_absent hany] at hafter
          simp only [Fate.of, hw, hany, Bool.false_or]
          refine ⟨⟨?_, hafter⟩, rfl⟩
          simpa using hany
  · rw [not_exists] at hanswered
    obtain ⟨reason, hwrite⟩ := AuditTable.run_write_of_refused hanswered
    simp only [fate, e, hwrite, List.nil_append]
    exact ⟨law.sound dialect w hs, law.refused hs hanswered, rfl⟩

end TaskAudit
