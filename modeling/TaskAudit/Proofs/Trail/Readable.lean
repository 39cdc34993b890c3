import Mathlib
import TaskAudit.Proofs.Trail.Listing

/-!
# What of the table can be read

A time whose year has not four digits is accepted by every write and read by nothing: its
text has a sign in front. So a record is read if and only if all its times have years of four
digits, and a list of records if and only if all records on it are. A leap second inside a
minute is accepted as well, and then read as the second that follows it.
-/
namespace TaskAudit

/-- How a record is read: as it is, with other times, or not at all. -/
inductive Record.ReadsAs (r : Record) : Except Error Record → Prop where
  | kept (hyears : r.HasPlainYears) (hregular : r.IsRegular) : r.ReadsAs (.ok r)
  | moved (hyears : r.HasPlainYears) (hregular : ¬ r.IsRegular) (hother : r.written ≠ r) :
    r.ReadsAs (.ok r.written)
  | refused {c : Column} {t : Timestamp} (hyears : ¬ r.HasPlainYears) (hyear : ¬ t.HasPlainYear) :
    r.ReadsAs (.error (t.unreadable c))

theorem Record.readsAs_readBack (r : Record) : r.ReadsAs r.readBack := by
  by_cases hyears : r.HasPlainYears
  · rw [readBack_of_plain hyears]
    by_cases hregular : r.IsRegular
    · rw [written_of_regular hregular]
      exact .kept hyears hregular
    · exact .moved hyears hregular fun h => hregular (written_eq_self_iff.mp h)
  · obtain ⟨c, t, ht, hread⟩ := readBack_of_signed hyears
    rw [hread]
    exact .refused hyears ht

namespace Record.ReadsAs

variable {r : Record} {read : Except Error Record}

theorem eq_ok_iff (h : r.ReadsAs read) : read = .ok r ↔ r.HasPlainYears ∧ r.IsRegular := by
  cases h with
  | kept hyears hregular => exact iff_of_true rfl ⟨hyears, hregular⟩
  | moved _ hregular hother =>
      apply iff_of_false
      · exact fun h => hother (Except.ok.inj h)
      · exact fun h => hregular h.2
  | refused hyears _ => exact iff_of_false nofun fun h => hyears h.1

theorem eq_error (h : r.ReadsAs read) (hyears : ¬ r.HasPlainYears) :
    ∃ (c : Column) (t : Timestamp), ¬ t.HasPlainYear ∧ read = .error (t.unreadable c) := by
  cases h with
  | kept hplain _ => exact absurd hplain hyears
  | moved hplain _ _ => exact absurd hplain hyears
  | refused _ hyear => exact ⟨_, _, hyear, rfl⟩

end Record.ReadsAs

theorem Write.answer_of_applies {w : Write} {entry : Option Record} (h : w.Applies entry) :
    w.answer entry = .ok () := by
  have hfree : (w.inserts && entry.isSome) = false := by
    rw [h]
    cases w.inserts <;> rfl
  simp [Write.answer, hfree]

theorem Write.change_of_time {P : Timestamp → Prop} {w : Write} {entry : Option Record}
    (happlies : w.Applies entry) (hw : ¬ P w.time) :
    ∃ r, w.change entry = some r ∧ ¬ r.EachTime P := by
  cases entry with
  | none =>
      cases w with
      | created r => exact ⟨r.inserted, rfl, fun h => hw h.createdAt⟩
      | _ => simp [Write.Applies, Write.inserts] at happlies
  | some r =>
      refine ⟨w.amend r, w.change_some r, fun h => hw ?_⟩
      cases w with
      | created _ => simp [Write.Applies, Write.inserts] at happlies
      | enqueued _ _ _ => exact h.enqueuedAt
      | started _ time => exact h.startedAt time rfl
      | completed _ _ time => exact h.finishedAt time rfl
      | failed _ _ time => exact h.finishedAt time rfl

namespace AuditTable

open Embedded

theorem run_list (settings : Settings) {s : Embedded} {filter : Record.Filter} {limit : Int}
    {rows : List Row} {records : List Record}
    (hselect : (select database settings (.recent settings.dialect filter limit)).run s =
      ⟨.ok rows, s, []⟩) (hrows : List.Forall₂ Row.Shows rows records) :
    (list database settings filter limit).run s = ⟨records.mapM Record.readBack, s, []⟩ := by
  simp only [list, Action.run_bind, hselect, Action.run_pure, recordsOf_eq_mapM hrows,
    List.append_nil]

/-- A record is read as it was written if and only if all its times are regular and have years
of four digits. It is read at all if they have such years, and a list is if all records on it
are. Every write that applies is accepted, whatever its time is. -/
theorem reads_plain_years (settings : Settings) (hd : settings.dialect = .positional)
    (start : String) (steps : List (String × Write)) :
    let ledger := Ledger.empty.run (steps.map Prod.snd)
    let s := ((replay settings steps).run (fresh start)).state
    (∀ id r, ledger id = some r → r.ReadsAs ((get database settings id).run s).value) ∧
    (∀ filter limit, ∃ rows records,
      ((select database settings (.recent settings.dialect filter limit)).run s).value =
        .ok rows ∧
      List.Forall₂ Row.Shows rows records ∧
      (∀ r ∈ records, ledger r.id = some r ∧ filter.Accepts r) ∧
      (limit < 0 → ∀ id r, ledger id = some r → filter.Accepts r → r ∈ records) ∧
      ((∀ r ∈ records, r.HasPlainYears) ∧
          ((list database settings filter limit).run s).value =
            .ok (records.map Record.written) ∨
        (∃ r ∈ records, ¬ r.HasPlainYears) ∧ ∃ (c : Column) (t : Timestamp), ¬ t.HasPlainYear ∧
          ((list database settings filter limit).run s).value = .error (t.unreadable c))) ∧
    ((∀ step ∈ steps, step.2.HasPlainYears) → ledger.IsReadable) ∧
    ((∀ step ∈ steps, step.2.time.IsRegular) → ledger.EachTime Timestamp.IsRegular) ∧
    ∀ now w, w.Applies (ledger w.id) →
      let written := (write database settings w).run { s with now }
      written.value = .ok () ∧
      (¬ w.HasPlainYears → ∃ (c : Column) (t : Timestamp), ¬ t.HasPlainYear ∧
        ((get database settings w.id).run written.state).value = .error (t.unreadable c)) ∧
      (¬ w.time.IsRegular → ∃ r, ledger.after w w.id = some r ∧
        ((get database settings w.id).run written.state).value ≠ .ok r) := by
  intro ledger s
  have hs : s.Holds ledger := (run_replay settings hd steps (fresh_holds start)).2
  have hnamed : s.IsNamed := run_replay_isNamed hd steps (fresh_holds start) (fresh_isNamed start)
  refine ⟨?_, ?_, ?_, ?_, ?_⟩
  · intro id r hr
    rw [run_get_readBack hs id, hr]
    exact r.readsAs_readBack
  · intro filter limit
    obtain ⟨rows, records, hselect, hrows, hentries, hall⟩ :=
      run_select_recent hs hnamed filter limit
    refine ⟨rows, records, by rw [hselect], hrows, hentries, hall, ?_⟩
    rw [run_list settings hselect hrows]
    exact Record.mapM_readBack records
  · intro hplain
    exact Ledger.empty_isReadable.run (List.forall_mem_map.mpr hplain)
  · intro hregular
    apply Ledger.empty_eachTime.run Timestamp.epoch_isRegular
    exact List.forall_mem_map.mpr hregular
  · intro now w happlies
    obtain ⟨hvalue, hstate, -⟩ := run_write hd (hs.at now) w
    refine ⟨hvalue.trans (Write.answer_of_applies happlies), ?_, ?_⟩
    · intro hw
      obtain ⟨r, hr, hbad⟩ := Write.change_of_time happlies hw
      rw [run_get_readBack hstate w.id, ledger.after_self, hr]
      exact Record.readBack_of_signed hbad
    · intro hw
      obtain ⟨r, hr, hbad⟩ := Write.change_of_time happlies hw
      refine ⟨r, by rw [ledger.after_self, hr], ?_⟩
      rw [run_get_readBack hstate w.id, ledger.after_self, hr]
      exact fun hread => hbad (r.readsAs_readBack.eq_ok_iff.mp hread).2

/-- Of two records, the one of the year 10000 cannot be read, nor a list with it. -/
theorem reads_plain_years_of_two :
    let late : Record := .ofNewTask "a" "mail" "default" "1" ⟨253402300800, 0, by decide⟩
    let early : Record := .ofNewTask "b" "mail" "default" "1" Timestamp.epoch
    let e := (replay ⟨.positional, none⟩ [("now", .created late), ("now", .created early)]).run
      (fresh "")
    ((get database ⟨.positional, none⟩ "b").run e.state).value = .ok early ∧
      (∃ (c : Column) (t : Timestamp), ¬ t.HasPlainYear ∧
        ((get database ⟨.positional, none⟩ "a").run e.state).value = .error (t.unreadable c)) ∧
      ∃ (c : Column) (t : Timestamp), ¬ t.HasPlainYear ∧
        ((list database ⟨.positional, none⟩ {} (-1)).run e.state).value =
          .error (t.unreadable c) := by
  intro late early e
  obtain ⟨hget, hlist, -, -, -⟩ := reads_plain_years ⟨.positional, none⟩ rfl ""
    [("now", .created late), ("now", .created early)]
  have hlate : ¬ late.inserted.HasPlainYears := fun h => absurd h.createdAt (by decide)
  have hearly : early.inserted.HasPlainYears :=
    Record.inserted_eachTime (by decide) (by decide)
  have hregular : early.inserted.IsRegular := Record.inserted_eachTime (by decide) (by decide)
  refine ⟨?_, ?_, ?_⟩
  · exact (hget "b" early.inserted rfl).eq_ok_iff.mpr ⟨hearly, hregular⟩
  · exact (hget "a" late.inserted rfl).eq_error hlate
  · obtain ⟨rows, records, -, -, -, hall, hread⟩ := hlist {} (-1)
    have hmem : late.inserted ∈ records :=
      hall (by decide) "a" late.inserted rfl ⟨by simp, by simp⟩
    rcases hread with ⟨hplain, -⟩ | ⟨-, hread⟩
    · exact absurd (hplain _ hmem) hlate
    · exact hread

/-- The insertion of a record of the year 10000 is accepted, and the record cannot be read. -/
theorem year10000_unreadable :
    let record : Record := .ofNewTask "a" "mail" "default" "1" ⟨253402300800, 0, by decide⟩
    let e := (replay ⟨.positional, none⟩ [("now", .created record)]).run (fresh "")
    let unreadable : Error := .other ("bad created_at timestamp " ++
      "\"+10000-01-01T00:00:00.000000000Z\": input contains invalid characters")
    e.value = [.ok ()] ∧
      ((get database ⟨.positional, none⟩ "a").run e.state).value = .error unreadable ∧
      ((list database ⟨.positional, none⟩ {} 10).run e.state).value = .error unreadable := by
  decide +kernel

end AuditTable

end TaskAudit
