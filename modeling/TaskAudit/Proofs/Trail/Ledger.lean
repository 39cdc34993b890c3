import Mathlib
import TaskAudit.Trail.Embedded

/-!
# A ledger of records

What the audit trail is meant to be: a map from ids to records. Of the record that an
insertion is given only the id, the type, the queue, the payload and the time of
creation count; every other write sets the status and its own fields of a record that
is there. Nothing ever removes a record or changes what it is about.
-/
namespace TaskAudit

/-- The record that an insertion leaves. -/
def Record.inserted (r : Record) : Record where
  id := r.id
  taskType := r.taskType
  queue := r.queue
  payload := r.payload
  status := .created
  errorMessage := none
  resultPayload := none
  createdAt := r.createdAt
  enqueuedAt := Timestamp.epoch
  startedAt := none
  finishedAt := none

/-- Are two records about the same task, created at the same time? -/
structure Record.SameTask (a b : Record) : Prop where
  id : a.id = b.id
  taskType : a.taskType = b.taskType
  payload : a.payload = b.payload
  createdAt : a.createdAt = b.createdAt

theorem Record.SameTask.refl (r : Record) : r.SameTask r := ⟨rfl, rfl, rfl, rfl⟩

theorem Record.SameTask.trans {a b c : Record} (hab : a.SameTask b) (hbc : b.SameTask c) :
    a.SameTask c :=
  ⟨hab.id.trans hbc.id, hab.taskType.trans hbc.taskType, hab.payload.trans hbc.payload,
    hab.createdAt.trans hbc.createdAt⟩

namespace Write

def inserts : Write → Bool
  | created _ => true
  | _ => false

/-- Is there no record where the write adds one, and one where it changes one? -/
def Applies (w : Write) (entry : Option Record) : Prop := entry.isSome = !w.inserts

/-- The record after a write that changes it. -/
def amend : Write → Record → Record
  | created _, r => r
  | enqueued _ queue time, r => { r with status := .created, queue, enqueuedAt := time }
  | started _ time, r => { r with status := .inProgress, startedAt := some time }
  | completed _ result time, r =>
    { r with status := .completed, resultPayload := result, finishedAt := some time }
  | failed _ message time, r =>
    { r with status := .failed, errorMessage := some message, finishedAt := some time }

/-- What a write makes of the entry of its id. -/
def change (w : Write) (entry : Option Record) : Option Record :=
  match w, entry with
  | created r, none => some r.inserted
  | w, entry => entry.map w.amend

/-- What the trail answers to a write: only a record that is there already is refused. -/
def answer (w : Write) (entry : Option Record) : Except Error Unit :=
  if w.inserts && entry.isSome then .error (.storage Embedded.idTaken) else .ok ()

@[simp] theorem change_created_none (r : Record) :
    (created r).change none = some r.inserted := rfl

@[simp] theorem change_some (w : Write) (r : Record) : w.change (some r) = some (w.amend r) := by
  cases w <;> rfl

theorem change_eq_map {w : Write} (h : w.inserts = false) (entry : Option Record) :
    w.change entry = entry.map w.amend := by
  cases w with
  | created r => simp [inserts] at h
  | _ => rfl

theorem change_of_not_applies {w : Write} {entry : Option Record} (h : ¬ w.Applies entry) :
    w.change entry = entry := by
  cases entry with
  | none =>
      have hw : w.inserts = false := by simpa [Applies] using h
      rw [change_eq_map hw, Option.map_none]
  | some r => cases w <;> simp_all [Applies, inserts, amend]

theorem amend_sameTask (w : Write) (r : Record) : r.SameTask (w.amend r) := by
  cases w <;> exact ⟨rfl, rfl, rfl, rfl⟩

end Write

/-- A map from ids to records. -/
abbrev Ledger := String → Option Record

namespace Ledger

def empty : Ledger := fun _ => none

def after (m : Ledger) (w : Write) : Ledger :=
  fun id => if id = w.id then w.change (m id) else m id

def run (ws : List Write) (m : Ledger) : Ledger := ws.foldl after m

@[simp] theorem after_self (m : Ledger) (w : Write) : m.after w w.id = w.change (m w.id) :=
  if_pos rfl

theorem after_of_ne (m : Ledger) {w : Write} {id : String} (h : id ≠ w.id) :
    m.after w id = m id := if_neg h

@[simp] theorem run_nil (m : Ledger) : run [] m = m := rfl

@[simp] theorem run_cons (w : Write) (ws : List Write) (m : Ledger) :
    run (w :: ws) m = run ws (m.after w) := rfl

theorem after_created {m : Ledger} {r : Record} (h : m r.id = none) :
    m.after (.created r) r.id = some r.inserted := by
  have hself : m.after (.created r) r.id = (Write.created r).change (m r.id) := m.after_self _
  rw [hself, h, Write.change_created_none]

theorem after_of_id (m : Ledger) {w : Write} {id : String} (hid : w.id = id)
    (hw : w.inserts = false) : m.after w id = (m id).map w.amend := by
  subst hid
  rw [after_self, Write.change_eq_map hw]

theorem after_of_not_applies {m : Ledger} {w : Write} (h : ¬ w.Applies (m w.id)) :
    m.after w = m := by
  funext id
  by_cases hid : id = w.id
  · subst hid
    rw [after_self, Write.change_of_not_applies h]
  · exact after_of_ne m hid

/-- A record stays about its task, and never disappears. -/
theorem run_sameTask {m : Ledger} {id : String} {r : Record} (ws : List Write)
    (h : m id = some r) : ∃ r', run ws m id = some r' ∧ r.SameTask r' := by
  induction ws generalizing m r with
  | nil => exact ⟨r, h, .refl r⟩
  | cons w ws ih =>
      by_cases hid : id = w.id
      · have hw : m.after w id = some (w.amend r) := by
          rw [hid] at h ⊢
          rw [after_self, h, Write.change_some]
        obtain ⟨r', hr', hsame⟩ := ih hw
        exact ⟨r', hr', (w.amend_sameTask r).trans hsame⟩
      · exact ih (by rw [after_of_ne m hid, h])

theorem run_apply (ws : List Write) (m : Ledger) (id : String) :
    run ws m id = (ws.filter (·.id = id)).foldl (fun entry w => w.change entry) (m id) := by
  induction ws generalizing m with
  | nil => rfl
  | cons w ws ih =>
      rw [run_cons, ih]
      by_cases hid : w.id = id
      · subst hid
        simp only [decide_true, List.filter_cons_of_pos, List.foldl_cons, after_self]
      · rw [List.filter_cons_of_neg (by simpa using hid), after_of_ne m (Ne.symm hid)]

end Ledger

end TaskAudit
