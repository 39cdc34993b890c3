import Mathlib
import TaskAudit.Proofs.Trail.Refinement

/-!
# The table refines the ledger

A run of writes on a database whose table is empty at first, in any order and with any
ids. Every write is answered as the ledger answers it, and afterwards every id is read
as the ledger's entry. Between two writes the clock of the database may show any time;
the trail keeps that time in a column of its own and never reads it.
-/
namespace TaskAudit

/-- The time that a write keeps. -/
def Write.time : Write → Timestamp
  | .created r => r.createdAt
  | .enqueued _ _ time | .started _ time | .completed _ _ time | .failed _ _ time => time

/-- Has the time that a write keeps a year of four digits? -/
def Write.HasPlainYears (w : Write) : Prop := w.time.HasPlainYear

instance : DecidablePred Write.HasPlainYears := fun w =>
  inferInstanceAs (Decidable w.time.HasPlainYear)

section

variable {P : Timestamp → Prop}

theorem Record.inserted_eachTime (hepoch : P Timestamp.epoch) {r : Record} (h : P r.createdAt) :
    r.inserted.EachTime P :=
  ⟨h, hepoch, by simp [Record.inserted], by simp [Record.inserted]⟩

theorem Record.EachTime.amend {r : Record} (hr : r.EachTime P) {w : Write} (hw : P w.time) :
    (w.amend r).EachTime P := by
  cases w with
  | created _ => exact hr
  | enqueued _ _ _ => exact ⟨hr.1, hw, hr.3, hr.4⟩
  | started _ _ => exact ⟨hr.1, hr.2, fun t ht => Option.some.inj ht ▸ hw, hr.4⟩
  | completed _ _ _ => exact ⟨hr.1, hr.2, hr.3, fun t ht => Option.some.inj ht ▸ hw⟩
  | failed _ _ _ => exact ⟨hr.1, hr.2, hr.3, fun t ht => Option.some.inj ht ▸ hw⟩

theorem Write.change_eachTime (hepoch : P Timestamp.epoch) {w : Write} (hw : P w.time)
    {entry : Option Record} (hentry : ∀ r ∈ entry, r.EachTime P) :
    ∀ r ∈ w.change entry, r.EachTime P := by
  intro r hr
  cases entry with
  | some r' =>
      rw [change_some] at hr
      exact Option.some.inj hr ▸ (hentry r' rfl).amend hw
  | none =>
      cases w with
      | created r' => exact Option.some.inj hr ▸ Record.inserted_eachTime hepoch hw
      | _ =>
          rw [change_eq_map rfl, Option.map_none] at hr
          cases hr

/-- Has every time of every record a property? -/
def Ledger.EachTime (P : Timestamp → Prop) (m : Ledger) : Prop := ∀ id, ∀ r ∈ m id, r.EachTime P

namespace Ledger

theorem empty_eachTime : empty.EachTime P := by
  intro id r hr
  simp [empty] at hr

theorem EachTime.after {m : Ledger} (h : m.EachTime P) (hepoch : P Timestamp.epoch) {w : Write}
    (hw : P w.time) : (m.after w).EachTime P := by
  intro id
  by_cases hid : id = w.id
  · subst hid
    rw [after_self]
    exact Write.change_eachTime hepoch hw (h w.id)
  · rw [after_of_ne m hid]
    exact h id

theorem EachTime.run {m : Ledger} (h : m.EachTime P) (hepoch : P Timestamp.epoch)
    {ws : List Write} (hws : ∀ w ∈ ws, P w.time) : (run ws m).EachTime P := by
  induction ws generalizing m with
  | nil => exact h
  | cons w ws ih =>
      exact ih (h.after hepoch (hws w List.mem_cons_self)) fun v hv =>
        hws v (List.mem_cons_of_mem w hv)

end Ledger

end

namespace Ledger

/-- Can the times of all records be read? -/
abbrev IsReadable (m : Ledger) : Prop := m.EachTime Timestamp.HasPlainYear

theorem empty_isReadable : empty.IsReadable := empty_eachTime

theorem IsReadable.run {m : Ledger} (h : m.IsReadable) {ws : List Write}
    (hws : ∀ w ∈ ws, w.HasPlainYears) : (run ws m).IsReadable :=
  EachTime.run h Timestamp.epoch_hasPlainYear hws

theorem written_of_regular {m : Ledger} (h : m.EachTime Timestamp.IsRegular) : m.written = m := by
  funext id
  unfold written
  cases hentry : m id with
  | none => rfl
  | some r => rw [Option.map_some, Record.written_of_regular (h id r hentry)]

theorem written_isRegular (m : Ledger) : m.written.EachTime Timestamp.IsRegular := by
  intro id r hr
  obtain ⟨own, -, rfl⟩ := Option.mem_map.mp hr
  exact own.written_isRegular

theorem IsReadable.written {m : Ledger} (h : m.IsReadable) : m.written.IsReadable := by
  intro id r hr
  obtain ⟨own, hown, rfl⟩ := Option.mem_map.mp hr
  exact (h id own hown).written fun t ht => Timestamp.written_hasPlainYear.mpr ht

/-- What reading an id gives. -/
def read (m : Ledger) (id : String) : Except Error Record :=
  match m id with
  | some r => .ok r
  | none => .error (.notFound id)

theorem read_written_eq_iff (m : Ledger) (id : String) :
    m.written.read id = m.read id ↔ ∀ r ∈ m id, r.IsRegular := by
  unfold read written
  cases m id with
  | none => simp
  | some r => simp [Record.written_eq_self_iff]

theorem read_eq_ok {m : Ledger} {id : String} {r : Record} :
    m.read id = .ok r ↔ m id = some r := by
  unfold read
  split <;> simp_all

/-- What the trail answers to writes, one after another. -/
def answers : List Write → Ledger → List (Except Error Unit)
  | [], _ => []
  | w :: ws, m => w.answer (m w.id) :: answers ws (m.after w)

end Ledger

namespace Embedded

/-- Lets the database take another time for the present. -/
def setNow (now : String) : Action Embedded Unit := fun s => ⟨(), { s with now }, []⟩

@[simp] theorem run_setNow (now : String) (s : Embedded) :
    (setNow now).run s = ⟨(), { s with now }, []⟩ := rfl

end Embedded

namespace AuditTable

open Embedded

/-- Does writes one after another, each with the time that the database then takes for
the present. The answers are those of the writes. -/
def replay (settings : Settings) :
    List (String × Write) → Action Embedded (List (Except Error Unit))
  | [] => pure []
  | (now, w) :: steps => do
    setNow now
    let answer ← write database settings w
    let answers ← replay settings steps
    return answer :: answers

/-- Every write of a run is answered as the ledger answers it, and the table keeps the
ledger to the end. -/
theorem run_replay (settings : Settings) (hd : settings.dialect = .positional)
    (steps : List (String × Write)) {s : Embedded} {m : Ledger} (h : s.Holds m) :
    ((replay settings steps).run s).value = m.answers (steps.map Prod.snd) ∧
      ((replay settings steps).run s).state.Holds (m.run (steps.map Prod.snd)) := by
  induction steps generalizing s m with
  | nil => exact ⟨rfl, h⟩
  | cons step steps ih =>
      obtain ⟨now, w⟩ := step
      obtain ⟨hvalue, hstate, -⟩ := run_write hd (h.at now) w
      obtain ⟨hvalues, hend⟩ := ih hstate
      refine ⟨?_, hend⟩
      simp only [replay, Action.run_bind, run_setNow, Action.run_pure, hvalue, hvalues]
      rfl

theorem run_get_of_readable (settings : Settings) {s : Embedded} {m : Ledger} (h : s.Holds m)
    (hm : m.IsReadable) (id : String) :
    (get database settings id).run s = ⟨m.written.read id, s, []⟩ := by
  rw [run_get h id (hm id), Ledger.read, Ledger.written]
  cases m id <;> rfl

theorem run_get_of_regular (settings : Settings) {s : Embedded} {m : Ledger} (h : s.Holds m)
    (hm : m.IsReadable) (hregular : m.EachTime Timestamp.IsRegular) (id : String) :
    (get database settings id).run s = ⟨m.read id, s, []⟩ := by
  rw [run_get_of_readable settings h hm, Ledger.written_of_regular hregular]

/-- The table refines the ledger: every write is answered as the ledger answers it, a
write that does not apply changes nothing, every id is then read as the ledger's entry with
the times that its texts name, and whatever is written after that, a record stays there and
stays about its task. The entry itself is read if and only if all its times are regular, as
they are if only regular times are written. -/
theorem replay_refines_ledger (settings : Settings) (hd : settings.dialect = .positional)
    (start : String) (steps more : List (String × Write))
    (hplain : ∀ step ∈ steps ++ more, step.2.HasPlainYears) :
    let ledger := Ledger.empty.run (steps.map Prod.snd)
    let before := (replay settings steps).run (fresh start)
    let later := (replay settings more).run before.state
    before.value = Ledger.empty.answers (steps.map Prod.snd) ∧
      (∀ id, (get database settings id).run before.state =
        ⟨ledger.written.read id, before.state, []⟩) ∧
      (∀ id, ledger.written.read id = ledger.read id ↔ ∀ r ∈ ledger id, r.IsRegular) ∧
      ((∀ step ∈ steps, step.2.time.IsRegular) → ledger.written = ledger) ∧
      (∀ now w, ¬ w.Applies (ledger w.id) →
        ((write database settings w).run { before.state with now }).state =
          { before.state with now }) ∧
      ∀ id r, ((get database settings id).run before.state).value = .ok r →
        ∃ r', ((get database settings id).run later.state).value = .ok r' ∧ r.SameTask r' := by
  intro ledger before later
  have hwrites : ∀ ws ⊆ steps ++ more, ∀ w ∈ ws.map Prod.snd, w.HasPlainYears := fun ws hws =>
    List.forall_mem_map.mpr fun step hstep => hplain step (hws hstep)
  obtain ⟨hvalue, hbefore⟩ := run_replay settings hd steps (fresh_holds start)
  obtain ⟨-, hlater⟩ := run_replay settings hd more hbefore
  have hledger : ledger.IsReadable :=
    Ledger.empty_isReadable.run (hwrites steps (List.subset_append_left steps more))
  have hend := hledger.run (hwrites more (List.subset_append_right steps more))
  have hget := run_get_of_readable settings hbefore hledger
  refine ⟨hvalue, hget, ?_, ?_, ?_, ?_⟩
  · exact ledger.read_written_eq_iff
  · intro hregular
    apply Ledger.written_of_regular
    apply Ledger.empty_eachTime.run Timestamp.epoch_isRegular
    exact List.forall_mem_map.mpr hregular
  · intro now w hw
    exact (run_write hd (hbefore.at now) w).2.2 hw
  · intro id r hr
    rw [hget, Ledger.read_eq_ok, Ledger.written, Option.map_eq_some_iff] at hr
    obtain ⟨own, hown, rfl⟩ := hr
    obtain ⟨own', hown', hsame⟩ := Ledger.run_sameTask (more.map Prod.snd) hown
    refine ⟨own'.written, ?_, hsame.written⟩
    rw [run_get_of_readable settings hlater hend, Ledger.read_eq_ok, Ledger.written, hown',
      Option.map_some]

/-- A start before the insertion is lost, and a second insertion is refused. -/
theorem replay_refines_ledger_insertedTwice :
    let record : Record := .ofNewTask "a" "mail" "default" "1" Timestamp.epoch
    let steps : List (String × Write) := [("now", .started "a" Timestamp.epoch),
      ("now", .created record), ("later", .created { record with payload := "2" })]
    let e := (replay ⟨.positional, none⟩ steps).run (fresh "")
    e.value = [.ok (), .ok (), .error (.storage idTaken)] ∧
      ((get database ⟨.positional, none⟩ "a").run e.state).value = .ok record ∧
      ((get database ⟨.positional, none⟩ "b").run e.state).value = .error (.notFound "b") := by
  intro record steps e
  have h := replay_refines_ledger ⟨.positional, none⟩ rfl "" steps [] (by decide)
  refine ⟨h.1, ?_, ?_⟩
  · exact congrArg Effect.value (h.2.1 "a")
  · exact congrArg Effect.value (h.2.1 "b")

/-- The table gives a record that was created in a leap second inside a minute another time
of creation than the ledger. -/
theorem leap_in_minute_unrefined :
    let leap : Timestamp := ⟨1700000004, 1333333333, by decide⟩
    let next : Timestamp := ⟨1700000005, 333333333, by decide⟩
    let record (time : Timestamp) : Record := .inserted (.ofNewTask "a" "mail" "default" "1" time)
    let steps : List (String × Write) := [("now", .created (record leap))]
    let e := (replay ⟨.positional, none⟩ steps).run (fresh "")
    (∀ step ∈ steps, step.2.HasPlainYears) ∧ e.value = [.ok ()] ∧
      Ledger.empty.run (steps.map Prod.snd) "a" = some (record leap) ∧
      ((get database ⟨.positional, none⟩ "a").run e.state).value = .ok (record next) ∧
      record next ≠ record leap := by
  decide +kernel

end AuditTable

end TaskAudit
