import Mathlib
import TaskAudit.Proofs.Time.RecordTimes
import TaskAudit.Proofs.Time.StoredText
import TaskAudit.Trail.Table

/-!
# What a row says

A row shows a record by its texts. Read again it is that record, with the times that the
texts name, except that a time is readable only if its year has four digits: the text of any
other year has a sign in front, which the reader refuses.
-/
namespace TaskAudit

/-- The row shows the record, its status as a name and its times as texts. The time of
queueing may be missing; then it is the start of 1970. -/
structure Row.Shows (row : Row) (r : Record) : Prop where
  id : row.id = some r.id
  taskType : row.taskType = some r.taskType
  queue : row.queue = some r.queue
  payload : row.payload = some r.payload
  status : row.status = some r.status.name
  error : row.error = r.errorMessage
  result : row.result = r.resultPayload
  createdAt : row.createdAt = some r.createdAt.stored
  enqueuedAt : row.enqueuedAt = some r.enqueuedAt.stored ∨
    row.enqueuedAt = none ∧ r.enqueuedAt = Timestamp.epoch
  startedAt : row.startedAt = r.startedAt.map Timestamp.stored
  finishedAt : row.finishedAt = r.finishedAt.map Timestamp.stored

theorem Row.Shows.written {row : Row} {r : Record} (h : row.Shows r) : row.Shows r.written := by
  have htexts (o : Option Timestamp) :
      (o.map Timestamp.written).map Timestamp.stored = o.map Timestamp.stored := by
    cases o <;> simp
  refine ⟨h.id, h.taskType, h.queue, h.payload, h.status, h.error, h.result, ?_, ?_, ?_, ?_⟩
  · rw [Record.written, Timestamp.stored_written, h.createdAt]
  · rw [Record.written, Timestamp.stored_written]
    apply h.enqueuedAt.imp_right
    rintro ⟨hnone, hepoch⟩
    rw [hepoch, Timestamp.written_of_regular Timestamp.epoch_isRegular]
    exact ⟨hnone, rfl⟩
  · rw [Record.written, htexts, h.startedAt]
  · rw [Record.written, htexts, h.finishedAt]

/-- Have all times of the record a year of four digits? -/
abbrev Record.HasPlainYears (r : Record) : Prop := r.EachTime Timestamp.HasPlainYear

/-- What a reader of a column is told of a time that it cannot read. -/
def Timestamp.unreadable (c : Column) (t : Timestamp) : Error :=
  .other s!"bad {c.name} timestamp {Text.quoted t.stored}: {Time.TimeFault.invalid.message}"

def Timestamp.readBack (c : Column) (t : Timestamp) : Except Error Timestamp :=
  if t.HasPlainYear then .ok t.written else .error (t.unreadable c)

def Timestamp.readBack? (c : Column) : Option Timestamp → Except Error (Option Timestamp)
  | none => .ok none
  | some t => (t.readBack c).map some

def Record.readBack (r : Record) : Except Error Record := do
  let createdAt ← r.createdAt.readBack .createdAt
  let enqueuedAt ← r.enqueuedAt.readBack .enqueuedAt
  let startedAt ← Timestamp.readBack? .startedAt r.startedAt
  let finishedAt ← Timestamp.readBack? .finishedAt r.finishedAt
  return { r with createdAt, enqueuedAt, startedAt, finishedAt }

theorem StoredRecord.time_eq_readBack (c : Column) (t : Timestamp) :
    time c t.stored = t.readBack c := by
  unfold Timestamp.readBack
  by_cases h : t.HasPlainYear
  · rw [if_pos h, time, Timestamp.ofStored_stored h]
  · rw [if_neg h, time, Timestamp.ofStored_stored_of_signed h, Timestamp.unreadable]

theorem StoredRecord.time?_eq_readBack? (c : Column) (o : Option Timestamp) :
    time? c (o.map Timestamp.stored) = Timestamp.readBack? c o := by
  cases o with
  | none => rfl
  | some t => rw [Option.map_some, time?, time_eq_readBack, Timestamp.readBack?]

namespace Timestamp

variable {t : Timestamp} {o : Option Timestamp}

theorem epoch_hasPlainYear : epoch.HasPlainYear := by decide

theorem readBack_of_plain (h : t.HasPlainYear) (c : Column) : t.readBack c = .ok t.written :=
  if_pos h

theorem readBack_of_signed (h : ¬ t.HasPlainYear) (c : Column) :
    t.readBack c = .error (t.unreadable c) := if_neg h

theorem readBack?_of_plain (h : ∀ t ∈ o, t.HasPlainYear) (c : Column) :
    readBack? c o = .ok (o.map written) := by
  cases o with
  | none => rfl
  | some t => rw [readBack?, readBack_of_plain (h t rfl), Except.map, Option.map_some]

theorem readBack?_of_signed (h : ¬ ∀ t ∈ o, t.HasPlainYear) (c : Column) :
    ∃ t : Timestamp, ¬ t.HasPlainYear ∧ readBack? c o = .error (t.unreadable c) := by
  cases o with
  | none => simp at h
  | some t =>
      have ht : ¬ t.HasPlainYear := by simpa using h
      exact ⟨t, ht, by rw [readBack?, readBack_of_signed ht, Except.map]⟩

end Timestamp

namespace Record

variable {r : Record}

theorem readBack_of_plain (h : r.HasPlainYears) : r.readBack = .ok r.written := by
  rw [readBack, Timestamp.readBack_of_plain h.createdAt, Timestamp.readBack_of_plain h.enqueuedAt,
    Timestamp.readBack?_of_plain h.startedAt, Timestamp.readBack?_of_plain h.finishedAt]
  rfl

/-- The first column with another year is named. -/
theorem readBack_of_signed (h : ¬ r.HasPlainYears) :
    ∃ (c : Column) (t : Timestamp), ¬ t.HasPlainYear ∧ r.readBack = .error (t.unreadable c) := by
  unfold readBack
  by_cases hcreated : r.createdAt.HasPlainYear
  · rw [Timestamp.readBack_of_plain hcreated]
    by_cases henqueued : r.enqueuedAt.HasPlainYear
    · rw [Timestamp.readBack_of_plain henqueued]
      by_cases hstarted : ∀ t ∈ r.startedAt, t.HasPlainYear
      · rw [Timestamp.readBack?_of_plain hstarted]
        have hfinished : ¬ ∀ t ∈ r.finishedAt, t.HasPlainYear := fun hfinished =>
          h ⟨hcreated, henqueued, hstarted, hfinished⟩
        obtain ⟨t, ht, hread⟩ := Timestamp.readBack?_of_signed hfinished .finishedAt
        exact ⟨_, t, ht, by rw [hread]; rfl⟩
      · obtain ⟨t, ht, hread⟩ := Timestamp.readBack?_of_signed hstarted .startedAt
        exact ⟨_, t, ht, by rw [hread]; rfl⟩
    · exact ⟨_, _, henqueued, by rw [Timestamp.readBack_of_signed henqueued]; rfl⟩
  · exact ⟨_, _, hcreated, by rw [Timestamp.readBack_of_signed hcreated]; rfl⟩

end Record

theorem Row.Shows.read {row : Row} {r : Record} (h : row.Shows r) :
    ∃ stored, row.toStored = .ok stored ∧ stored.toRecord = r.readBack := by
  have hcreated := StoredRecord.time_eq_readBack .createdAt r.createdAt
  have hstarted := StoredRecord.time?_eq_readBack? .startedAt r.startedAt
  have hfinished := StoredRecord.time?_eq_readBack? .finishedAt r.finishedAt
  have hqueued : (StoredRecord.time? .enqueuedAt row.enqueuedAt).map (·.getD Timestamp.epoch) =
      r.enqueuedAt.readBack .enqueuedAt := by
    rcases h.enqueuedAt with he | ⟨he, hepoch⟩
    · rw [he, StoredRecord.time?, StoredRecord.time_eq_readBack]
      cases r.enqueuedAt.readBack .enqueuedAt <;> rfl
    · rw [he, hepoch, Timestamp.readBack_of_plain Timestamp.epoch_hasPlainYear,
        Timestamp.written_of_regular Timestamp.epoch_isRegular]
      rfl
  have hstored : row.toStored = .ok
      { id := r.id, taskType := r.taskType, queue := r.queue, payload := r.payload
        status := r.status.name, errorMessage := row.error, resultPayload := row.result
        createdAt := r.createdAt.stored, enqueuedAt := row.enqueuedAt
        startedAt := row.startedAt, finishedAt := row.finishedAt } := by
    simp only [Row.toStored, Row.required, Row.get, h.id, h.taskType, h.queue, h.payload,
      h.status, h.createdAt, bind, Except.bind, pure, Except.pure]
  refine ⟨_, hstored, ?_⟩
  simp only [StoredRecord.toRecord, Record.readBack, Status.ofName_name, hcreated, h.startedAt,
    hstarted, h.finishedAt, hfinished, ← hqueued, h.error, h.result]
  cases r.createdAt.readBack .createdAt with
  | error e => rfl
  | ok createdAt => cases StoredRecord.time? .enqueuedAt row.enqueuedAt <;> rfl

theorem Row.Shows.recordOf {row : Row} {r : Record} (h : row.Shows r) (id : String)
    (rows : List Row) : AuditTable.recordOf id (row :: rows) = r.readBack := by
  obtain ⟨stored, hstored, hread⟩ := h.read
  rw [AuditTable.recordOf, hstored, ← hread]
  rfl

theorem AuditTable.recordsOf_eq_mapM {rows : List Row} {records : List Record}
    (h : List.Forall₂ Row.Shows rows records) :
    recordsOf rows = records.mapM Record.readBack := by
  have hstored : ∃ stored, rows.mapM Row.toStored = .ok stored ∧
      stored.mapM StoredRecord.toRecord = records.mapM Record.readBack := by
    induction h with
    | nil => exact ⟨[], rfl, rfl⟩
    | cons hrow _ ih =>
        obtain ⟨stored, hfirst, hread⟩ := hrow.read
        obtain ⟨rest, hrest, hreads⟩ := ih
        refine ⟨stored :: rest, ?_, ?_⟩
        · rw [List.mapM_cons, hfirst, hrest]
          rfl
        · rw [List.mapM_cons, List.mapM_cons, hread, hreads]
  obtain ⟨stored, hrows, hread⟩ := hstored
  rw [recordsOf, hrows, ← hread]
  rfl

namespace Record

/-- One record that cannot be read spoils a list. -/
theorem mapM_readBack (records : List Record) :
    (∀ r ∈ records, r.HasPlainYears) ∧ records.mapM readBack = .ok (records.map written) ∨
      (∃ r ∈ records, ¬ r.HasPlainYears) ∧ ∃ (c : Column) (t : Timestamp),
        ¬ t.HasPlainYear ∧ records.mapM readBack = .error (t.unreadable c) := by
  induction records with
  | nil => exact .inl ⟨by simp, rfl⟩
  | cons r records ih =>
      rw [List.mapM_cons]
      by_cases hr : r.HasPlainYears
      · rw [readBack_of_plain hr]
        rcases ih with ⟨hall, hread⟩ | ⟨⟨r', hr', hbad⟩, c, t, ht, hread⟩
        · refine .inl ⟨List.forall_mem_cons.mpr ⟨hr, hall⟩, ?_⟩
          rw [hread]
          rfl
        · refine .inr ⟨⟨r', List.mem_cons_of_mem r hr', hbad⟩, c, t, ht, ?_⟩
          rw [hread]
          rfl
      · obtain ⟨c, t, ht, hread⟩ := readBack_of_signed hr
        refine .inr ⟨⟨r, List.mem_cons_self, hr⟩, c, t, ht, ?_⟩
        rw [hread]
        rfl

end Record

end TaskAudit
