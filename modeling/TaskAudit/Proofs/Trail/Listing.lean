import Mathlib
import TaskAudit.Proofs.Trail.Replay

/-!
# The rows that are listed

Every row of the table has an id, so every row shows an entry of the ledger that the table
keeps. A listing takes only rows of the table that meet its conditions, and all of them if
its limit is negative. A row meets the conditions of a filter exactly if the filter accepts
the record that the row shows.
-/
namespace TaskAudit

/-- The conditions of a filter as a row has to meet them. -/
def Record.Filter.cells (f : Record.Filter) : List (Column × Option String) :=
  (Query.conditions f).map fun c => (c.1, some c.2)

/-- Does the row hold what the filter asks for? -/
def Row.Meets (row : Row) (f : Record.Filter) : Prop :=
  ∀ c ∈ f.cells, row.get c.1 = c.2

theorem Status.name_injective : Function.Injective Status.name := by
  intro a b hname
  have hread : Status.ofName a.name = Status.ofName b.name := by rw [hname]
  rw [Status.ofName_name, Status.ofName_name] at hread
  exact Except.ok.inj hread

theorem Row.Shows.meets_iff {row : Row} {r : Record} (h : row.Shows r) (f : Record.Filter) :
    row.Meets f ↔ f.Accepts r := by
  obtain ⟨status, taskType⟩ := f
  have hstatus : ∀ s : Status, row.get .status = some s.name ↔ r.status = s := by
    intro s
    rw [Row.get, h.status, Option.some_inj, Status.name_injective.eq_iff]
  have htype : ∀ t : String, row.get .taskType = some t ↔ r.taskType = t := by
    intro t
    rw [Row.get, h.taskType, Option.some_inj]
  cases status <;> cases taskType <;>
    simp [Row.Meets, Record.Filter.cells, Query.conditions, Record.Filter.Accepts, hstatus, htype]

namespace Embedded

theorem mem_atMost {limit : Int} {rows : List Row} {row : Row} (h : row ∈ atMost limit rows) :
    row ∈ rows := by
  unfold atMost at h
  split at h
  · exact h
  · exact List.mem_of_mem_take h

def matching (f : Record.Filter) (rows : List Row) : List Row :=
  if f.cells.isEmpty then rows.reverse
  else rows.filter fun row => f.cells.all fun p => p.2.isSome && row.get p.1 = p.2

theorem newest_eq (f : Record.Filter) (limit : Int) (rows : List Row) :
    newest f.cells limit rows = atMost limit ((matching f rows).mergeSort isNewer) := rfl

theorem mem_matching {f : Record.Filter} {rows : List Row} {row : Row} :
    row ∈ matching f rows ↔ row ∈ rows ∧ row.Meets f := by
  have hsome : ∀ p ∈ f.cells, p.2.isSome := by
    intro p hp
    obtain ⟨c, -, rfl⟩ := List.mem_map.mp hp
    rfl
  unfold matching Row.Meets
  split
  · rename_i hnone
    rw [List.isEmpty_iff.mp hnone]
    simp
  · simp only [List.mem_filter, List.all_eq_true, Bool.and_eq_true, decide_eq_true_eq]
    exact and_congr_right fun _ =>
      ⟨fun h p hp => (h p hp).2, fun h p hp => ⟨hsome p hp, h p hp⟩⟩

theorem mem_newest {f : Record.Filter} {limit : Int} {rows : List Row} {row : Row}
    (h : row ∈ newest f.cells limit rows) : row ∈ rows ∧ row.Meets f := by
  rw [newest_eq] at h
  exact mem_matching.mp (List.mem_mergeSort.mp (mem_atMost h))

theorem mem_newest_of_unlimited {f : Record.Filter} {limit : Int} (hlimit : limit < 0)
    {rows : List Row} {row : Row} (hrow : row ∈ rows) (hmeets : row.Meets f) :
    row ∈ newest f.cells limit rows := by
  rw [newest_eq, atMost, if_pos hlimit, List.mem_mergeSort]
  exact mem_matching.mpr ⟨hrow, hmeets⟩

theorem find_recent {s : Embedded} {rows : List Row} (hrows : s.rows = some rows) (d : Dialect)
    (f : Record.Filter) (limit : Int) :
    find (.recent d f limit) s = .ok (newest f.cells limit rows) := by
  have hcells : ((Query.conditions f).map Prod.fst).zip
      (((Query.conditions f).map (fun c => Value.text c.2) ++ [Value.int limit]).map cell) =
      f.cells := by
    rw [List.map_append, ← List.append_nil ((Query.conditions f).map Prod.fst),
      List.zip_append (by simp), List.zip_nil_left, List.append_nil, List.map_map,
      List.zip_map']
    rfl
  simp only [find, hrows, Query.recent, hcells, List.getLast?_append, List.getLast?_singleton,
    Option.some_or]

theorem Holds.row_mem {s : Embedded} {m : Ledger} (h : s.Holds m) {rows : List Row}
    (hrows : s.rows = some rows) {id : String} {r : Record} (hr : m id = some r) :
    ∃ row ∈ rows, row.id = some id ∧ row.Shows r := by
  obtain ⟨row, hfound, hshows⟩ := h.row? hr
  rw [Embedded.row?, hrows] at hfound
  have hid := List.find?_some hfound
  exact ⟨row, List.mem_of_find?_eq_some hfound, (hasId_some id row).mp hid, hshows⟩

def IsNamed (s : Embedded) : Prop := ∀ row ∈ s.rows.getD [], row.id ≠ none

theorem fresh_isNamed (now : String) : (fresh now).IsNamed := by
  intro row hrow
  cases hrow

theorem Holds.shown {s : Embedded} {m : Ledger} (h : s.Holds m) (hs : s.IsNamed)
    {rows : List Row} (hrows : s.rows = some rows) {row : Row} (hrow : row ∈ rows) :
    ∃ r, m r.id = some r ∧ row.Shows r := by
  obtain ⟨rows', hrows', hkeeps⟩ := h.keeps
  obtain rfl : rows = rows' := Option.some.inj (hrows.symm.trans hrows')
  have hnamed : row.id ≠ none := hs row (by rw [hrows]; exact hrow)
  obtain ⟨id, hid⟩ := Option.ne_none_iff_exists'.mp hnamed
  have hfound : row ∈ rows.filter (hasId (some id)) :=
    List.mem_filter.mpr ⟨hrow, (hasId_some id row).mpr hid⟩
  cases hm : m id with
  | none =>
      have hnone := hkeeps id
      rw [hm, Option.toList_none, List.forall₂_nil_right_iff] at hnone
      rw [hnone] at hfound
      cases hfound
  | some r =>
      have hone := hkeeps id
      rw [hm, Option.toList_some] at hone
      obtain ⟨row', tail, hshows, htail, hrows''⟩ := List.forall₂_cons_right_iff.mp hone
      rw [List.forall₂_nil_right_iff.mp htail] at hrows''
      rw [hrows'', List.mem_singleton] at hfound
      subst hfound
      have hsame : r.id = id := Option.some.inj (hshows.id.symm.trans hid)
      exact ⟨r, by rw [hsame, hm], hshows⟩

/-- The rows seen as records: every row shows an entry of the ledger, and every entry of the
ledger is shown. -/
structure Shown (m : Ledger) (rows : List Row) (record : Row → Record) : Prop where
  shows : ∀ row ∈ rows, row.Shows (record row)
  entry : ∀ row ∈ rows, m (record row).id = some (record row)
  all : ∀ id r, m id = some r → ∃ row ∈ rows, record row = r

theorem Shown.shows_newest {m : Ledger} {rows : List Row} {record : Row → Record}
    (h : Shown m rows record) (f : Record.Filter) (limit : Int) :
    List.Forall₂ Row.Shows (newest f.cells limit rows)
      ((newest f.cells limit rows).map record) := by
  rw [List.forall₂_map_right_iff, List.forall₂_same]
  exact fun row hrow => h.shows row (mem_newest hrow).1

theorem Holds.exists_shown {s : Embedded} {m : Ledger} (h : s.Holds m) (hs : s.IsNamed)
    {rows : List Row} (hrows : s.rows = some rows) : ∃ record, Shown m rows record := by
  have hshown : ∀ row ∈ rows, ∃ r, m r.id = some r ∧ row.Shows r := fun _ hrow =>
    h.shown hs hrows hrow
  have : Nonempty Record := ⟨.ofNewTask "" "" "" "" Timestamp.epoch⟩
  choose! record hentry hshows using hshown
  refine ⟨record, hshows, hentry, fun id r hr => ?_⟩
  obtain ⟨row, hrow, hid, -⟩ := h.row_mem hrows hr
  have hids : (record row).id = id := Option.some.inj ((hshows row hrow).id.symm.trans hid)
  have hfound := hentry row hrow
  rw [hids, hr] at hfound
  exact ⟨row, hrow, (Option.some.inj hfound).symm⟩

end Embedded

namespace AuditTable

open Embedded

theorem run_write_isNamed {settings : Settings} (hd : settings.dialect = .positional)
    {s : Embedded} {m : Ledger} (h : s.Holds m) (hs : s.IsNamed) (w : Write) :
    ((write database settings w).run s).state.IsNamed := by
  obtain ⟨rows, hrows, hkeeps⟩ := h.keeps
  have hnamed : ∀ row ∈ rows, row.id ≠ none := by
    intro row hrow
    exact hs row (by rw [hrows]; exact hrow)
  cases hw : w.inserts with
  | false =>
      have hp := perform_amend hrows h.isWritable hw
      rw [← hd] at hp
      obtain ⟨-, hstate⟩ := run_write_of_ok h hp
      rw [hstate]
      intro row hrow
      obtain ⟨old, hold, rfl⟩ := List.mem_map.mp hrow
      have hid := hnamed old hold
      split
      · rw [Row.amended_id]
        exact hid
      · exact hid
  | true =>
      cases w with
      | created r =>
          have hp := perform_created hrows h.isWritable r
          rw [← hd] at hp
          cases htaken : rows.any (hasId (some r.id)) with
          | true =>
              rw [htaken] at hp
              obtain ⟨-, hstate⟩ := run_write_of_error h hp
              rw [hstate]
              exact hs
          | false =>
              rw [htaken] at hp
              obtain ⟨-, hstate⟩ := run_write_of_ok h hp
              rw [hstate]
              intro row hrow
              rcases List.mem_append.mp hrow with hrow | hrow
              · exact hnamed row hrow
              · rw [List.mem_singleton.mp hrow]
                exact Option.some_ne_none r.id
      | _ => cases hw

theorem run_replay_isNamed {settings : Settings} (hd : settings.dialect = .positional)
    (steps : List (String × Write)) {s : Embedded} {m : Ledger} (h : s.Holds m)
    (hs : s.IsNamed) : ((replay settings steps).run s).state.IsNamed := by
  induction steps generalizing s m with
  | nil => exact hs
  | cons step steps ih =>
      obtain ⟨now, w⟩ := step
      have hnext := (run_write hd (h.at now) w).2.1
      exact ih hnext (run_write_isNamed hd (h.at now) hs w)

theorem run_select_newest {settings : Settings} {s : Embedded} {m : Ledger} (h : s.Holds m)
    {rows : List Row} (hrows : s.rows = some rows) (f : Record.Filter) (limit : Int) :
    (select database settings (.recent settings.dialect f limit)).run s =
      ⟨.ok (newest f.cells limit rows), s, []⟩ := by
  simp only [select, Action.run, database, h.allow, find_recent hrows]
  rfl

/-- What a listing is made of: records of the ledger that the filter accepts, shown by the
rows that the database answers with, and all such records if there is no limit. -/
theorem run_select_recent {settings : Settings} {s : Embedded} {m : Ledger} (h : s.Holds m)
    (hs : s.IsNamed) (f : Record.Filter) (limit : Int) :
    ∃ rows records, (select database settings (.recent settings.dialect f limit)).run s =
        ⟨.ok rows, s, []⟩ ∧
      List.Forall₂ Row.Shows rows records ∧
      (∀ r ∈ records, m r.id = some r ∧ f.Accepts r) ∧
      (limit < 0 → ∀ id r, m id = some r → f.Accepts r → r ∈ records) := by
  obtain ⟨rows, hrows, -⟩ := h.keeps
  obtain ⟨record, hshown⟩ := h.exists_shown hs hrows
  refine ⟨newest f.cells limit rows, (newest f.cells limit rows).map record,
    run_select_newest h hrows f limit, hshown.shows_newest f limit, ?_, ?_⟩
  · intro r hr
    obtain ⟨row, hrow, rfl⟩ := List.mem_map.mp hr
    obtain ⟨hmem, hmeets⟩ := mem_newest hrow
    exact ⟨hshown.entry row hmem, ((hshown.shows row hmem).meets_iff f).mp hmeets⟩
  · intro hlimit id r hr haccepts
    obtain ⟨row, hrow, rfl⟩ := hshown.all id r hr
    have hmeets := ((hshown.shows row hrow).meets_iff f).mpr haccepts
    exact List.mem_map_of_mem (mem_newest_of_unlimited hlimit hrow hmeets)

end AuditTable

end TaskAudit
