import Mathlib
import TaskAudit.Proofs.Trail.Ledger
import TaskAudit.Proofs.Trail.Rows

/-!
# The table keeps a ledger

The rows of the embedded database stand for a ledger: for every id, the rows with that
id show the entry of the ledger, so there is at most one. Each write of the trail leads
from a table that keeps a ledger to one that keeps the ledger after the write, with the
answer that the ledger gives; reading an id gives its entry back, with the times that the
texts name, if the times can be read.
-/
namespace TaskAudit

open Embedded

def Write.cells : Write → List (Column × Option String)
  | .created _ => []
  | .enqueued _ queue time =>
    [(.status, some Status.created.name), (.queue, some queue), (.enqueuedAt, some time.stored)]
  | .started _ time =>
    [(.status, some Status.inProgress.name), (.startedAt, some time.stored)]
  | .completed _ result time =>
    [(.status, some Status.completed.name), (.result, result), (.finishedAt, some time.stored)]
  | .failed _ message time =>
    [(.status, some Status.failed.name), (.error, some message), (.finishedAt, some time.stored)]

def Row.inserted (now : String) (r : Record) : Row where
  id := some r.id
  taskType := some r.taskType
  queue := some r.queue
  payload := some r.payload
  status := some Status.created.name
  createdAt := some r.createdAt.stored
  updatedAt := some now

theorem Row.inserted_shows (now : String) (r : Record) : (Row.inserted now r).Shows r.inserted where
  id := rfl
  taskType := rfl
  queue := rfl
  payload := rfl
  status := rfl
  error := rfl
  result := rfl
  createdAt := rfl
  enqueuedAt := .inr ⟨rfl, rfl⟩
  startedAt := rfl
  finishedAt := rfl

def Row.amended (now : String) (w : Write) (row : Row) : Row :=
  row.assign (w.cells ++ [(.updatedAt, some now)])

@[simp] theorem Row.amended_id (now : String) (w : Write) (row : Row) :
    (row.amended now w).id = row.id := by
  cases w <;> rfl

theorem Row.Shows.amended {row : Row} {r : Record} (h : row.Shows r) (now : String) (w : Write) :
    (row.amended now w).Shows (w.amend r) := by
  cases w with
  | created _ => exact ⟨h.1, h.2, h.3, h.4, h.5, h.6, h.7, h.8, h.9, h.10, h.11⟩
  | enqueued _ _ _ => exact ⟨h.1, h.2, rfl, h.4, rfl, h.6, h.7, h.8, .inl rfl, h.10, h.11⟩
  | started _ _ => exact ⟨h.1, h.2, h.3, h.4, rfl, h.6, h.7, h.8, h.9, rfl, h.11⟩
  | completed _ _ _ => exact ⟨h.1, h.2, h.3, h.4, rfl, h.6, rfl, h.8, h.9, h.10, rfl⟩
  | failed _ _ _ => exact ⟨h.1, h.2, h.3, h.4, rfl, rfl, h.7, h.8, h.9, h.10, rfl⟩

theorem Record.SameTask.written {a b : Record} (h : a.SameTask b) :
    a.written.SameTask b.written :=
  ⟨h.id, h.taskType, h.payload, congrArg Timestamp.written h.createdAt⟩

/-- The ledger with the times that the texts of its records name. -/
def Ledger.written (m : Ledger) : Ledger := fun id => (m id).map Record.written

namespace Embedded

/-- For every id, the rows with it show the entry of the ledger. -/
def Keeps (rows : List Row) (m : Ledger) : Prop :=
  ∀ id, List.Forall₂ Row.Shows (rows.filter (hasId (some id))) (m id).toList

theorem Keeps.written {rows : List Row} {m : Ledger} (h : Keeps rows m) :
    Keeps rows m.written := by
  intro id
  rw [Ledger.written, Option.toList_map, List.forall₂_map_right_iff]
  exact (h id).imp fun row r hrow => hrow.written

@[simp] theorem hasId_some (id : String) (row : Row) :
    hasId (some id) row = true ↔ row.id = some id := by
  simp [hasId]

theorem keeps_nil : Keeps [] Ledger.empty := fun _ => .nil

theorem Keeps.any_hasId {rows : List Row} {m : Ledger} (h : Keeps rows m) (id : String) :
    rows.any (hasId (some id)) = (m id).isSome := by
  have hid := h id
  cases hm : m id with
  | none =>
      rw [hm] at hid
      have hnil : rows.filter (hasId (some id)) = [] := List.forall₂_nil_right_iff.mp hid
      rw [List.filter_eq_nil_iff] at hnil
      exact List.any_eq_false.mpr hnil
  | some r =>
      rw [hm] at hid
      obtain ⟨row, _, -, -, hrows⟩ := List.forall₂_cons_right_iff.mp hid
      have hrow : row ∈ rows.filter (hasId (some id)) := by rw [hrows]; exact List.mem_cons_self
      exact List.any_eq_true.mpr ⟨row, List.mem_filter.mp hrow⟩

theorem Keeps.insert {rows : List Row} {m : Ledger} (h : Keeps rows m) {r : Record}
    (hr : m r.id = none) (now : String) :
    Keeps (rows ++ [Row.inserted now r]) (m.after (.created r)) := by
  intro id
  rw [List.filter_append]
  by_cases hid : id = r.id
  · subst hid
    have hnil : rows.filter (hasId (some r.id)) = [] := by
      have := h r.id
      rw [hr] at this
      exact List.forall₂_nil_right_iff.mp this
    rw [hnil, Ledger.after_created hr]
    have hone : [Row.inserted now r].filter (hasId (some r.id)) = [Row.inserted now r] :=
      List.filter_eq_self.mpr (by simp [Row.inserted])
    rw [hone]
    exact .cons (Row.inserted_shows now r) .nil
  · have hnone : [Row.inserted now r].filter (hasId (some id)) = [] := by
      simp [Row.inserted, Ne.symm hid]
    rw [hnone, List.append_nil, Ledger.after_of_ne m hid]
    exact h id

/-- The rows after a write that changes those with its id. -/
def amendAll (now : String) (w : Write) (rows : List Row) : List Row :=
  rows.map fun row => if hasId (some w.id) row then row.amended now w else row

@[simp] theorem amendAll_nil (now : String) (w : Write) : amendAll now w [] = [] := rfl

@[simp] theorem amendAll_cons (now : String) (w : Write) (row : Row) (rows : List Row) :
    amendAll now w (row :: rows) =
      (if hasId (some w.id) row then row.amended now w else row) :: amendAll now w rows := rfl

/-- A write changes the rows with its id, and no others. -/
theorem filter_amendAll (now : String) (w : Write) (rows : List Row) (id : String) :
    (amendAll now w rows).filter (hasId (some id)) =
      if id = w.id then (rows.filter (hasId (some id))).map (Row.amended now w)
      else rows.filter (hasId (some id)) := by
  induction rows with
  | nil => simp
  | cons row rows ih =>
      by_cases hw : row.id = some w.id
      · by_cases hid : id = w.id
        · subst hid
          simp [hw, ih]
        · simp [hw, hid, ih, Ne.symm hid]
      · by_cases hrow : row.id = some id
        · have hid : ¬ id = w.id := fun h => hw (h ▸ hrow)
          simp [hrow, hid, ih]
        · simp [hw, hrow, ih]

theorem amendAll_of_absent {rows : List Row} {w : Write}
    (h : rows.any (hasId (some w.id)) = false) (now : String) : amendAll now w rows = rows := by
  induction rows with
  | nil => rfl
  | cons row rows ih =>
      rw [List.any_cons, Bool.or_eq_false_iff] at h
      rw [amendAll_cons, ih h.2, h.1]
      rfl

theorem Keeps.amend {rows : List Row} {m : Ledger} (h : Keeps rows m) {w : Write}
    (hw : w.inserts = false) (now : String) : Keeps (amendAll now w rows) (m.after w) := by
  intro id
  rw [filter_amendAll]
  by_cases hid : id = w.id
  · subst hid
    rw [if_pos rfl, Ledger.after_self, Write.change_eq_map hw, Option.toList_map,
      List.forall₂_map_left_iff, List.forall₂_map_right_iff]
    exact (h w.id).imp fun row r hrow => hrow.amended now w
  · rw [if_neg hid, Ledger.after_of_ne m hid]
    exact h id

theorem perform_created {s : Embedded} {rows : List Row} (hrows : s.rows = some rows)
    (hs : s.readOnly = false) (r : Record) :
    perform (.ofWrite .positional (.created r)) s =
      if rows.any (hasId (some r.id)) then (.error idTaken, s)
      else (.ok 1, { s with rows := some (rows ++ [Row.inserted s.now r]) }) := by
  have hinsert : ∀ cells, Row.assign (cells ++ [(.updatedAt, some s.now)]) {} =
      Row.inserted s.now r → insert s.now cells rows =
        if rows.any (hasId (some r.id)) then .error idTaken
        else .ok (rows ++ [Row.inserted s.now r]) := by
    intro cells hcells
    rw [insert, hcells]
    rfl
  simp only [perform, hrows, Query.ofWrite, hs]
  rw [hinsert _ rfl]
  cases rows.any (hasId (some r.id)) <;> rfl

theorem perform_amend {s : Embedded} {rows : List Row} (hrows : s.rows = some rows)
    (hs : s.readOnly = false) {w : Write} (hw : w.inserts = false) :
    perform (.ofWrite .positional w) s =
      (.ok (rows.filter (hasId (some w.id))).length,
        { s with rows := some (amendAll s.now w rows) }) := by
  cases w with
  | created r => simp [Write.inserts] at hw
  | completed id result time =>
      simp only [perform, hrows, Query.ofWrite, hs]
      cases result <;> rfl
  | _ =>
      simp only [perform, hrows, Query.ofWrite, hs]
      rfl

/-- The database can be used, and its rows keep the ledger. -/
structure Holds (s : Embedded) (m : Ledger) : Prop where
  isOpen : s.closed = false
  isFree : s.held = false
  isWritable : s.readOnly = false
  keeps : ∃ rows, s.rows = some rows ∧ Keeps rows m

theorem fresh_holds (now : String) : (fresh now).Holds Ledger.empty :=
  ⟨rfl, rfl, rfl, [], rfl, keeps_nil⟩

theorem Holds.written {s : Embedded} {m : Ledger} (h : s.Holds m) : s.Holds m.written := by
  obtain ⟨rows, hrows, hkeeps⟩ := h.keeps
  exact ⟨h.isOpen, h.isFree, h.isWritable, rows, hrows, hkeeps.written⟩

theorem Holds.at {s : Embedded} {m : Ledger} (h : s.Holds m) (now : String) :
    Holds { s with now } m :=
  ⟨h.isOpen, h.isFree, h.isWritable, h.keeps⟩

theorem Holds.row? {s : Embedded} {m : Ledger} (h : s.Holds m) {id : String} {r : Record}
    (hr : m id = some r) : ∃ row, s.row? id = some row ∧ row.Shows r := by
  obtain ⟨rows, hrows, hkeeps⟩ := h.keeps
  have hid := hkeeps id
  rw [hr] at hid
  obtain ⟨row, rest, hrow, -, hfound⟩ := List.forall₂_cons_right_iff.mp hid
  refine ⟨row, ?_, hrow⟩
  rw [Embedded.row?, hrows, Option.getD_some, ← List.head?_filter, hfound, List.head?_cons]

theorem Holds.allow {s : Embedded} {m : Ledger} (h : s.Holds m) {α : Type}
    (k : Except DatabaseFault α × Embedded) : s.allow k = (.answered k.1, k.2) := by
  simp only [Embedded.allow, h.isOpen, h.isFree, Bool.false_eq_true, if_false]

end Embedded

namespace AuditTable

theorem run_write_of_error {settings : Settings} {s s' : Embedded} {m : Ledger} (h : s.Holds m)
    {w : Write} {fault : DatabaseFault}
    (hp : perform (.ofWrite settings.dialect w) s = (.error fault, s')) :
    ((write database settings w).run s).value = .error (.storage fault) ∧
      ((write database settings w).run s).state = s' := by
  have hexec : (execute database settings (.ofWrite settings.dialect w)).run s =
      ⟨.error (.storage fault), s', []⟩ := by
    simp only [execute, Action.run, database, h.allow, hp]
    rfl
  simp only [write, Action.run_bind, hexec, Action.run_pure, and_self]

theorem run_write_of_ok {settings : Settings} {s s' : Embedded} {m : Ledger} (h : s.Holds m)
    {w : Write} {n : Nat} (hp : perform (.ofWrite settings.dialect w) s = (.ok n, s')) :
    ((write database settings w).run s).value = .ok () ∧
      ((write database settings w).run s).state = s' := by
  have hexec : (execute database settings (.ofWrite settings.dialect w)).run s =
      ⟨.ok n, s', []⟩ := by
    simp only [execute, Action.run, database, h.allow, hp]
    rfl
  simp only [write, Action.run_bind, hexec]
  cases w with
  | created r => simp
  | _ => by_cases hn : n = 0 <;> simp [hn]

theorem run_created {settings : Settings} (hd : settings.dialect = .positional) {s : Embedded}
    {m : Ledger} (h : s.Holds m) (r : Record) :
    ((write database settings (.created r)).run s).value = (Write.created r).answer (m r.id) ∧
      ((write database settings (.created r)).run s).state.Holds (m.after (.created r)) ∧
        (¬ (Write.created r).Applies (m r.id) →
          ((write database settings (.created r)).run s).state = s) := by
  obtain ⟨rows, hrows, hkeeps⟩ := h.keeps
  have hany := hkeeps.any_hasId r.id
  have hp := perform_created hrows h.isWritable r
  rw [← hd, hany] at hp
  cases hm : m r.id with
  | none =>
      rw [hm] at hp
      obtain ⟨hvalue, hstate⟩ := run_write_of_ok h hp
      refine ⟨hvalue, ?_, fun hnot => absurd rfl hnot⟩
      rw [hstate]
      exact ⟨h.isOpen, h.isFree, h.isWritable, _, rfl, hkeeps.insert hm s.now⟩
  | some r' =>
      rw [hm] at hp
      obtain ⟨hvalue, hstate⟩ := run_write_of_error h hp
      have hsame : m.after (.created r) = m :=
        Ledger.after_of_not_applies (by simp [Write.id, hm, Write.Applies, Write.inserts])
      refine ⟨hvalue, ?_, fun _ => hstate⟩
      rw [hstate, hsame]
      exact h

theorem run_amend {settings : Settings} (hd : settings.dialect = .positional) {s : Embedded}
    {m : Ledger} (h : s.Holds m) {w : Write} (hw : w.inserts = false) :
    ((write database settings w).run s).value = w.answer (m w.id) ∧
      ((write database settings w).run s).state.Holds (m.after w) ∧
        (¬ w.Applies (m w.id) → ((write database settings w).run s).state = s) := by
  obtain ⟨rows, hrows, hkeeps⟩ := h.keeps
  have hp := perform_amend hrows h.isWritable hw
  rw [← hd] at hp
  obtain ⟨hvalue, hstate⟩ := run_write_of_ok h hp
  rw [hvalue, hstate]
  refine ⟨by simp [Write.answer, hw], ?_, fun hnot => ?_⟩
  · exact ⟨h.isOpen, h.isFree, h.isWritable, _, rfl, hkeeps.amend hw s.now⟩
  · have habsent : rows.any (hasId (some w.id)) = false := by
      rw [hkeeps.any_hasId]
      simpa [Write.Applies, hw] using hnot
    rw [amendAll_of_absent habsent, ← hrows]

/-- A write does to the table what it does to the ledger that the table keeps. -/
theorem run_write {settings : Settings} (hd : settings.dialect = .positional) {s : Embedded}
    {m : Ledger} (h : s.Holds m) (w : Write) :
    ((write database settings w).run s).value = w.answer (m w.id) ∧
      ((write database settings w).run s).state.Holds (m.after w) ∧
        (¬ w.Applies (m w.id) → ((write database settings w).run s).state = s) := by
  cases w with
  | created r => exact run_created hd h r
  | _ => exact run_amend hd h rfl

/-- Reading an id gives the entry of the ledger, as far as that can be read. -/
theorem run_get_readBack {settings : Settings} {s : Embedded} {m : Ledger} (h : s.Holds m)
    (id : String) :
    (get database settings id).run s =
      ⟨match m id with
        | some r => r.readBack
        | none => .error (.notFound id), s, []⟩ := by
  obtain ⟨rows, hrows, hkeeps⟩ := h.keeps
  have hselect : (select database settings (.byId settings.dialect id)).run s =
      ⟨.ok (rows.filter (hasId (some id))), s, []⟩ := by
    simp only [select, Action.run, database, h.allow, find, hrows, Query.byId]
    rfl
  have hid := hkeeps id
  simp only [get, Action.run_bind, hselect]
  cases hentry : m id with
  | none =>
      rw [hentry] at hid
      rw [List.forall₂_nil_right_iff.mp hid]
      rfl
  | some r =>
      rw [hentry] at hid
      obtain ⟨row, tail, hrow, -, hfound⟩ := List.forall₂_cons_right_iff.mp hid
      rw [hfound]
      simp only [Action.run_pure, hrow.recordOf, List.append_nil]

theorem run_get {settings : Settings} {s : Embedded} {m : Ledger} (h : s.Holds m) (id : String)
    (hm : ∀ r, m id = some r → r.HasPlainYears) :
    (get database settings id).run s =
      ⟨match m id with
        | some r => .ok r.written
        | none => .error (.notFound id), s, []⟩ := by
  rw [run_get_readBack h id]
  cases hentry : m id with
  | none => rfl
  | some r => simp only [Record.readBack_of_plain (hm r hentry)]

end AuditTable

end TaskAudit
