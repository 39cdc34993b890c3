import Mathlib
import TaskAudit.Proofs.Time.StoredOrder
import TaskAudit.Proofs.Trail.Readable

/-!
# The newest records are listed

The database sorts the rows that meet the conditions of a listing by the text of one column,
and cuts off what goes beyond the limit. Of a table whose times have years of four digits this
gives the newest records that the filter accepts, each once and the latest first, as many as the
limit allows.
-/
namespace TaskAudit

/-- The newest of some stored records, the latest first and each once, as many as a limit
allows. A negative limit is none. -/
structure ListsNewest (stored : Set Record) (limit : Int) (records : List Record) : Prop where
  finite : stored.Finite
  mem : ∀ r ∈ records, r ∈ stored
  distinct : (records.map Record.id).Nodup
  ordered : records.Pairwise fun a b => b.createdAt ≤ a.createdAt
  length : records.length = if limit < 0 then stored.ncard else min limit.toNat stored.ncard
  newest : ∀ r ∈ stored, r ∉ records → ∀ listed ∈ records, r.createdAt ≤ listed.createdAt

/-- The first of all the stored records are the newest if the latest come first. -/
theorem ListsNewest.of_ordered {stored : Set Record} {all : List Record}
    (hall : ∀ r, r ∈ all ↔ r ∈ stored) (hdistinct : (all.map Record.id).Nodup)
    (hordered : all.Pairwise fun a b => b.createdAt ≤ a.createdAt) (limit : Int) :
    ListsNewest stored limit (all.take (if limit < 0 then all.length else limit.toNat)) := by
  classical
  have hset : stored = ↑all.toFinset := by
    ext r
    rw [Finset.mem_coe, List.mem_toFinset, hall]
  have hcard : stored.ncard = all.length := by
    rw [hset, Set.ncard_coe_finset, List.toFinset_card_of_nodup hdistinct.of_map]
  generalize hk : (if limit < 0 then all.length else limit.toNat) = k
  constructor
  case finite =>
    rw [hset]
    exact all.toFinset.finite_toSet
  case mem =>
    intro r hr
    exact (hall r).mp (List.mem_of_mem_take hr)
  case distinct => exact hdistinct.sublist ((List.take_sublist k all).map Record.id)
  case ordered => exact hordered.sublist (List.take_sublist k all)
  case length =>
    rw [hcard, List.length_take, ← hk]
    split <;> omega
  case newest =>
    intro r hr hleft listed hlisted
    -- what was left out stands behind everything that is listed
    have hmem : r ∈ all.take k ++ all.drop k := by
      rw [List.take_append_drop]
      exact (hall r).mpr hr
    have hbehind : r ∈ all.drop k := (List.mem_append.mp hmem).resolve_left hleft
    rw [← List.take_append_drop k all, List.pairwise_append] at hordered
    exact hordered.2.2 listed hlisted r hbehind

namespace Embedded

variable {s : Embedded} {m : Ledger} {rows : List Row}

theorem atMost_eq_take (limit : Int) (rows : List Row) :
    atMost limit rows = rows.take (if limit < 0 then rows.length else limit.toNat) := by
  unfold atMost
  split
  · rw [List.take_length]
  · rfl

theorem Holds.id_eq (h : s.Holds m) {id : String} {r : Record} (hr : m id = some r) :
    r.id = id := by
  obtain ⟨rows, hrows, -⟩ := h.keeps
  obtain ⟨row, -, hid, hshows⟩ := h.row_mem hrows hr
  exact Option.some.inj (hshows.id.symm.trans hid)

theorem Holds.ids_nodup (h : s.Holds m) (hs : s.IsNamed) (hrows : s.rows = some rows) :
    (rows.map Row.id).Nodup := by
  obtain ⟨rows', hrows', hkeeps⟩ := h.keeps
  obtain rfl : rows = rows' := Option.some.inj (hrows.symm.trans hrows')
  rw [List.nodup_iff_count_le_one]
  intro id
  rw [List.count, List.countP_map, List.countP_eq_length_filter]
  cases id with
  | none =>
      have hnone : rows.filter ((· == none) ∘ Row.id) = [] := by
        rw [List.filter_eq_nil_iff]
        intro row hrow
        have hnamed : row.id ≠ none := hs row (by rw [hrows]; exact hrow)
        simpa using hnamed
      rw [hnone]
      exact Nat.zero_le 1
  | some id =>
      have hfilter : rows.filter ((· == some id) ∘ Row.id) = rows.filter (hasId (some id)) := by
        refine List.filter_congr fun row _ => ?_
        rw [Bool.eq_iff_iff, hasId_some]
        simp
      rw [hfilter, (hkeeps id).length_eq]
      cases m id <;> simp

theorem isNewer_iff {a b : Row} {r r' : Record} (ha : a.Shows r) (hb : b.Shows r')
    (hregular : r.IsRegular) (hregular' : r'.IsRegular) (hr : r.HasPlainYears)
    (hr' : r'.HasPlainYears) : isNewer a b = true ↔ r'.createdAt ≤ r.createdAt := by
  have horder := hregular.createdAt.stored_lt_stored_iff hregular'.createdAt hr.createdAt
    hr'.createdAt
  rw [isNewer, decide_eq_true_eq, ha.createdAt, hb.createdAt, Option.getD_some, Option.getD_some,
    ← not_lt, horder]
  exact Iff.rfl

def sorted (f : Record.Filter) (rows : List Row) : List Row := (matching f rows).mergeSort isNewer

theorem mem_sorted {f : Record.Filter} {row : Row} :
    row ∈ sorted f rows ↔ row ∈ rows ∧ row.Meets f :=
  List.mem_mergeSort.trans mem_matching

theorem pairwise_sorted (f : Record.Filter) (rows : List Row) :
    (sorted f rows).Pairwise fun a b => isNewer a b = true := by
  apply List.pairwise_mergeSort
  · intro a b c hab hbc
    rw [isNewer, decide_eq_true_eq] at *
    exact le_trans hbc hab
  · intro a b
    rw [Bool.or_eq_true, isNewer, isNewer, decide_eq_true_eq, decide_eq_true_eq]
    exact le_total _ _

theorem map_newest (record : Row → Record) (f : Record.Filter) (limit : Int) (rows : List Row) :
    (newest f.cells limit rows).map record =
      ((sorted f rows).map record).take
        (if limit < 0 then ((sorted f rows).map record).length else limit.toNat) := by
  rw [newest_eq, atMost_eq_take, List.map_take, List.length_map]
  rfl

theorem ids_nodup_sorted (h : (rows.map Row.id).Nodup) (f : Record.Filter) :
    ((sorted f rows).map Row.id).Nodup := by
  have hmatching : ((matching f rows).map Row.id).Nodup := by
    unfold matching
    split
    · rw [List.map_reverse]
      exact List.nodup_reverse.mpr h
    · exact h.sublist (List.filter_sublist.map Row.id)
  exact ((List.mergeSort_perm _ isNewer).map Row.id).nodup_iff.mpr hmatching

namespace Shown

variable {record : Row → Record} (h : Shown m rows record) (f : Record.Filter)

include h

theorem mem_records {r : Record} :
    r ∈ (sorted f rows).map record ↔ (∃ id, m id = some r) ∧ f.Accepts r := by
  constructor
  · intro hr
    obtain ⟨row, hrow, rfl⟩ := List.mem_map.mp hr
    obtain ⟨hrow, hmeets⟩ := mem_sorted.mp hrow
    exact ⟨⟨_, h.entry row hrow⟩, ((h.shows row hrow).meets_iff f).mp hmeets⟩
  · rintro ⟨⟨id, hr⟩, haccepts⟩
    obtain ⟨row, hrow, rfl⟩ := h.all id r hr
    have hmeets := ((h.shows row hrow).meets_iff f).mpr haccepts
    exact List.mem_map_of_mem (mem_sorted.mpr ⟨hrow, hmeets⟩)

theorem records_distinct (hrows : (rows.map Row.id).Nodup) :
    (((sorted f rows).map record).map Record.id).Nodup := by
  have hids : (sorted f rows).map Row.id =
      (((sorted f rows).map record).map Record.id).map some := by
    rw [List.map_map, List.map_map]
    exact List.map_congr_left fun row hrow => (h.shows row (mem_sorted.mp hrow).1).id
  have hsorted := ids_nodup_sorted hrows f
  rw [hids] at hsorted
  exact hsorted.of_map

theorem records_ordered (hm : m.IsReadable) (hregular : m.EachTime Timestamp.IsRegular) :
    ((sorted f rows).map record).Pairwise fun a b => b.createdAt ≤ a.createdAt := by
  have hplain : ∀ row ∈ rows, (record row).HasPlainYears := fun row hrow =>
    hm _ _ (h.entry row hrow)
  have htimes : ∀ row ∈ rows, (record row).IsRegular := fun row hrow =>
    hregular _ _ (h.entry row hrow)
  rw [List.pairwise_map]
  refine (pairwise_sorted f rows).imp_of_mem fun ha hb hnewer => ?_
  have ha := (mem_sorted.mp ha).1
  have hb := (mem_sorted.mp hb).1
  exact (isNewer_iff (h.shows _ ha) (h.shows _ hb) (htimes _ ha) (htimes _ hb) (hplain _ ha)
    (hplain _ hb)).mp hnewer

theorem newest_eachTime {P : Timestamp → Prop} (hm : m.EachTime P) (limit : Int) :
    ∀ r ∈ (newest f.cells limit rows).map record, r.EachTime P := by
  intro r hr
  obtain ⟨row, hrow, rfl⟩ := List.mem_map.mp hr
  exact hm _ _ (h.entry row (mem_newest hrow).1)

end Shown

end Embedded

namespace AuditTable

open Embedded

/-- The records that are read by their ids and that a filter accepts. -/
def candidates (settings : Settings) (filter : Record.Filter) (s : Embedded) : Set Record :=
  {r | (∃ id, ((get database settings id).run s).value = .ok r) ∧ filter.Accepts r}

/-- The newest records of a table are listed if all its times can be read as they are. -/
theorem run_list_newest (settings : Settings) {s : Embedded} {m : Ledger} (h : s.Holds m)
    (hs : s.IsNamed) (hm : m.IsReadable) (hregular : m.EachTime Timestamp.IsRegular)
    (filter : Record.Filter) (limit : Int) :
    ∃ records, (list database settings filter limit).run s = ⟨.ok records, s, []⟩ ∧
      ListsNewest (candidates settings filter s) limit records := by
  obtain ⟨rows, hrows, -⟩ := h.keeps
  obtain ⟨record, hshown⟩ := h.exists_shown hs hrows
  have hmem : ∀ r, r ∈ (sorted filter rows).map record ↔ r ∈ candidates settings filter s := by
    intro r
    have hread : ∀ id, ((get database settings id).run s).value = .ok r ↔ m id = some r := by
      intro id
      rw [run_get_of_regular settings h hm hregular]
      exact Ledger.read_eq_ok
    rw [hshown.mem_records filter]
    exact and_congr_left' (exists_congr fun id => (hread id).symm)
  have hnewest : ListsNewest (candidates settings filter s) limit
      ((newest filter.cells limit rows).map record) := by
    rw [map_newest]
    exact .of_ordered hmem (hshown.records_distinct filter (h.ids_nodup hs hrows))
      (hshown.records_ordered filter hm hregular) limit
  refine ⟨(newest filter.cells limit rows).map record, ?_, hnewest⟩
  rw [run_list settings (run_select_newest h hrows filter limit) (hshown.shows_newest filter limit)]
  rcases Record.mapM_readBack ((newest filter.cells limit rows).map record) with
    ⟨-, hread⟩ | ⟨⟨r, hr, hbad⟩, -⟩
  · have hsame : ∀ r ∈ (newest filter.cells limit rows).map record, r.written = id r :=
      fun r hr => Record.written_of_regular (hshown.newest_eachTime filter hregular limit r hr)
    rw [hread, List.map_congr_left hsame, List.map_id]
  · exact absurd (hshown.newest_eachTime filter hm limit r hr) hbad

/-- After any writes with times in years of four digits, a listing answers with the newest
records that are stored and that the filter accepts, each as it is read by its own id. -/
theorem lists_newest (settings : Settings) (hd : settings.dialect = .positional) (start : String)
    (steps : List (String × Write)) (hplain : ∀ step ∈ steps, step.2.HasPlainYears)
    (filter : Record.Filter) (limit : Int) :
    let s := ((replay settings steps).run (fresh start)).state
    ∃ records, (list database settings filter limit).run s = ⟨.ok records, s, []⟩ ∧
      ListsNewest (candidates settings filter s) limit records ∧
      ∀ r ∈ records, ((get database settings r.id).run s).value = .ok r := by
  intro s
  have hledger : (Ledger.empty.run (steps.map Prod.snd)).IsReadable :=
    Ledger.empty_isReadable.run (List.forall_mem_map.mpr hplain)
  -- the table also keeps the ledger with the times that its texts name, and those are regular
  have hs := (run_replay settings hd steps (fresh_holds start)).2.written
  have hread := run_get_of_regular settings hs hledger.written (Ledger.written_isRegular _)
  have hnamed := run_replay_isNamed hd steps (fresh_holds start) (fresh_isNamed start)
  obtain ⟨records, hrun, hnewest⟩ := run_list_newest settings hs hnamed hledger.written
    (Ledger.written_isRegular _) filter limit
  refine ⟨records, hrun, hnewest, ?_⟩
  intro r hr
  obtain ⟨⟨id, hid⟩, -⟩ := hnewest.mem r hr
  rw [hread, Ledger.read_eq_ok] at hid
  rw [hs.id_eq hid, hread, Ledger.read_eq_ok]
  exact hid

/-- Of three records the latest has another type, and the limit leaves one of the others: the
earlier one is not listed. -/
theorem lists_newest_of_three :
    let settings : Settings := ⟨.positional, none⟩
    let filter : Record.Filter := { taskType := some "mail" }
    let late : Timestamp := ⟨1700000000, 5, by decide⟩
    let first : Record := .ofNewTask "a" "mail" "default" "1" late
    let second : Record := .ofNewTask "b" "mail" "default" "1" Timestamp.epoch
    let other : Record := .ofNewTask "c" "print" "default" "1" ⟨1700000001, 0, by decide⟩
    let steps : List (String × Write) :=
      [("now", .created first), ("now", .created second), ("now", .created other)]
    let s := ((replay settings steps).run (fresh "")).state
    (∀ step ∈ steps, step.2.HasPlainYears) ∧
      ∃ records, (list database settings filter 1).run s = ⟨.ok records, s, []⟩ ∧
        records.length = 1 ∧ ∀ r ∈ records, r.taskType = "mail" ∧ late ≤ r.createdAt := by
  intro settings filter late first second other steps s
  have hplain : ∀ step ∈ steps, step.2.HasPlainYears := by decide
  obtain ⟨records, hrun, hnewest, -⟩ := lists_newest settings rfl "" steps hplain filter 1
  have hfirst : first.inserted ∈ candidates settings filter s :=
    ⟨⟨"a", by decide +kernel⟩, by simp [filter],
      by simp [filter, first, Record.inserted, Record.ofNewTask]⟩
  have hlength : records.length = 1 := by
    have hpos := (Set.ncard_pos hnewest.finite).mpr ⟨_, hfirst⟩
    rw [hnewest.length, if_neg (by decide)]
    omega
  refine ⟨hplain, records, hrun, hlength, fun r hr => ⟨(hnewest.mem r hr).2.2 _ rfl, ?_⟩⟩
  by_cases hmem : first.inserted ∈ records
  · obtain ⟨one, rfl⟩ := List.length_eq_one_iff.mp hlength
    rw [List.mem_singleton.mp hr, ← List.mem_singleton.mp hmem]
    decide
  · exact hnewest.newest _ hfirst hmem r hr

end AuditTable

end TaskAudit
