import Mathlib
import TaskAudit.Proofs.Worker.Orderly

/-!
# Tasks that were submitted

Submitters hand their tasks to the broker in memory and leave records of them in the
embedded database. A pool that starts on what they left is orderly: every task that could
be written waits, was never tried, and has a record.
-/
namespace TaskAudit.Worker
open scoped List

/-- A submission: what is submitted, and what that takes from outside. -/
structure Request where
  Payload : Type
  writer : Submittable Payload
  payload : Payload
  taskType : String
  options : SubmitOptions
  around : Surroundings

namespace Request

def id (r : Request) : String := r.around.id

def text (r : Request) : Except Json.Error String := r.writer.text r.payload

def readings (r : Request) : List Timestamp :=
  [r.around.atBroker.time, r.around.atInsert, r.around.atMark]

def job {β σ : Type} (c : Submitter β σ) (r : Request) (text : String) : Job where
  task := ⟨r.taskType, text.toUTF8⟩
  queue := c.queueOf r.options
  maxRetry := r.options.maxRetry.getD defaultMaxRetry

def submit {β σ : Type} (c : Submitter β σ) (r : Request) :
    Action (β × σ) (Except Error Accepted) :=
  @Submitter.submit β σ r.Payload r.writer c r.around r.taskType r.payload r.options

/-- Submissions one after another; what becomes of each is for its submitter to see. -/
def submitAll {β σ : Type} (c : Submitter β σ) (rs : List Request) : Action (β × σ) Unit :=
  rs.forM fun r => do
    let _ ← r.submit c

end Request

section

variable {ends : Task → UInt32 → Outcome} {jobs : String → Option Job} {m : Ledger}
variable {delay : Span} {settings : AuditTable.Settings} {defaultQueue : String}

def submitter (delay : Span) (settings : AuditTable.Settings) (defaultQueue : String) :
    Submitter Backlog Embedded :=
  .new (Backlog.broker delay) (some (AuditTable.trail Embedded.database settings)) defaultQueue

def Watch.start {η : Type} (s : Backlog × Embedded) (handler : η) (clock : List Timestamp) :
    Watch η where
  pool := { broker := s.1, trail := s.2, handler }
  clock := clock

theorem submit_state_of_error {r : Request} {fault : Json.Error} (htext : r.text = .error fault)
    (c : Submitter Backlog Embedded) (s : Backlog × Embedded) :
    ((r.submit c).run s).state = s := by
  have hsubmit : r.submit c = pure (.error (.serialization fault)) := by
    simp only [Request.submit, Submitter.submit, show r.writer.text r.payload = _ from htext]
  rw [hsubmit, Action.run_pure]

/-- The writes that a submission leaves in the trail. -/
def Request.writes (c : Submitter Backlog Embedded) (r : Request) (text : String) : List Write :=
  Submitter.writes
    ⟨r.id, (r.job c text).queue, r.taskType, (r.job c text).maxRetry, r.around.atBroker.time⟩
    r.taskType text r.around

theorem submit_state_of_ok {r : Request} {text : String} (htext : r.text = .ok text)
    {s : Backlog × Embedded} (hopen : s.1.closed = false) :
    ((r.submit (submitter delay settings defaultQueue)).run s).state =
      ({ s.1 with
          waiting := s.1.waiting ++ [⟨(r.job (submitter delay settings defaultQueue) text).queue,
            (r.job (submitter delay settings defaultQueue) text).entry r.id 0
              r.around.atBroker.moment⟩] },
        (AuditTable.trail Embedded.database settings).afterAll
          (r.writes (submitter delay settings defaultQueue) text) s.2) := by
  have hsubmit : r.submit (submitter delay settings defaultQueue) =
      (submitter delay settings defaultQueue).submitText r.around r.taskType text r.options := by
    simp only [Request.submit, Submitter.submit, show r.writer.text r.payload = _ from htext]
  have henqueue := Backlog.enqueue_cases r.id r.around.atBroker ⟨r.taskType, text.toUTF8⟩
    ((submitter delay settings defaultQueue).queueOf r.options)
    (r.options.maxRetry.getD defaultMaxRetry) s.1
  rcases henqueue with ⟨hclosed, -⟩ | ⟨-, hrun⟩
  · rw [hopen] at hclosed
    cases hclosed
  · have hbroker : (submitter delay settings defaultQueue).broker.enqueue = Backlog.enqueue := rfl
    have htrail : (submitter delay settings defaultQueue).trail =
      some (AuditTable.trail Embedded.database settings) := rfl
    have hid : r.around.id = r.id := rfl
    simp only [hsubmit, Submitter.submitText, Action.run_bind, Action.run_onFst, hbroker, hid, hrun,
      Action.run_count, Action.run_note, Action.run_onSnd, Action.run_pure, htrail,
      Submitter.leaveRecord_state]
    rfl

/-- A task under a new id waits, was never tried, and has a record that shows no attempt. -/
theorem Orderly.accept {η : Type} {v : Watch η} (h : Orderly ends jobs v m) {id : String}
    (hnew : jobs id = none) (j : Job) (readyAt : Moment) {trail : Embedded}
    {clock : List Timestamp} {m' : Ledger} {r : Record} (hholds : trail.Holds m')
    (hclock : v.clock <+ clock) (hledger : ∀ other ≠ id, m' other = m other)
    (hrecord : m' id = some r) (hrests : Rests (ends j.task) clock 0 r) :
    Orderly ends (Function.update jobs id (some j))
      { v with
        pool.broker.waiting := v.pool.broker.waiting ++ [⟨j.queue, j.entry id 0 readyAt⟩]
        pool.trail := trail
        clock } m' where
  standing := by
    intro other
    by_cases hother : other = id
    · subst hother
      have hshare := h.standing other
      rw [hnew] at hshare
      generalize hempty : v.share m other = share at hshare
      cases hshare
      simp only [Watch.share, Share.mk.injEq] at hempty
      obtain ⟨hwaiting, hflight, hdead, hrunning, hattempts, hacked, -⟩ := hempty
      have hallows : j.Allows ends 0 := ⟨UInt32.zero_le, fun k hk => absurd hk UInt32.not_lt_zero⟩
      have hstanding : Standing ends clock other (some j)
          { waiting := [⟨j.queue, j.entry other 0 readyAt⟩], record := some r } :=
        .waiting hallows j.tried_zero hrests
      rw [Function.update_self]
      simpa [Watch.share, Job.entry, hwaiting, hflight, hdead, hrunning, hattempts, hacked, hrecord]
        using hstanding
    · have hshare := (h.standing other).mono hclock
      rw [Function.update_of_ne hother]
      simpa [Watch.share, Job.entry, Ne.symm hother, hledger other hother] using hshare
  named := h.named
  numbers := h.numbers
  taken := h.taken
  msgIds := h.msgIds
  issued := h.issued
  holds := hholds

theorem run_writes (c : Submitter Backlog Embedded) {r : Request} (hnew : m r.id = none)
    (text : String) (ends : UInt32 → Outcome) (clock : List Timestamp) :
    (∀ other ≠ r.id, m.run (r.writes c text) other = m other) ∧
      ∃ record, m.run (r.writes c text) r.id = some record ∧
        Rests ends (clock ++ r.readings) 0 record := by
  refine ⟨fun other hother => ?_, ?_⟩
  · rw [Request.writes, Submitter.writes, Ledger.run_cons, Ledger.run_cons, Ledger.run_nil,
      Ledger.after_of_ne _ hother, Ledger.after_of_ne _ hother]
  · let record : Record := .ofNewTask r.id r.taskType (r.job c text).queue text r.around.atInsert
    let mark : Write := .enqueued r.id (r.job c text).queue r.around.atMark
    have hinserted : m.after (.created record) r.id = some record.inserted :=
      Ledger.after_created hnew
    refine ⟨mark.amend record.inserted, ?_, ⟨rfl, rfl, rfl, rfl, rfl, ?_⟩⟩
    · have hmarked : (m.after (.created record)).after mark r.id =
          (m.after (.created record) r.id).map mark.amend := Ledger.after_of_id _ rfl rfl
      rw [hinserted] at hmarked
      exact hmarked
    · have htimes : [r.around.atInsert, r.around.atMark] <+ r.readings :=
        List.sublist_cons_self _ _
      exact htimes.trans (List.sublist_append_right clock r.readings)

theorem Orderly.submit {η : Type} (delay : Span) (defaultQueue : String)
    (hd : settings.dialect = .positional) {s : Backlog × Embedded} {handler : η}
    {clock : List Timestamp} (h : Orderly ends jobs (.start s handler clock) m)
    (hopen : s.1.closed = false) (r : Request) (hnew : jobs r.id = none) :
    ∃ jobs' m', Orderly ends jobs' (.start
        ((r.submit (submitter delay settings defaultQueue)).run s).state handler
        (clock ++ r.readings)) m' ∧
      ((r.submit (submitter delay settings defaultQueue)).run s).state.1.closed = false ∧
      (∀ text, r.text = .ok text →
        jobs' r.id = some (r.job (submitter delay settings defaultQueue) text)) ∧
      ∀ id ≠ r.id, jobs' id = jobs id := by
  have hclock : clock <+ clock ++ r.readings := List.sublist_append_left clock r.readings
  cases htext : r.text with
  | error fault =>
      rw [submit_state_of_error htext]
      exact ⟨jobs, m, h.rest .polling hclock, hopen, fun _ heq => (by cases heq), fun _ _ => rfl⟩
  | ok text =>
      rw [submit_state_of_ok htext hopen]
      have hnone : m r.id = none := by
        have hshare := h.standing r.id
        rw [hnew] at hshare
        generalize hempty : (Watch.start s handler clock).share m r.id = share at hshare
        cases hshare
        exact congrArg Share.record hempty
      obtain ⟨hothers, record, hrecord, hrests⟩ := run_writes
        (submitter delay settings defaultQueue) hnone text
        (ends (r.job (submitter delay settings defaultQueue) text).task) clock
      have hholds := h.holds.afterAll hd (r.writes (submitter delay settings defaultQueue) text)
      refine ⟨_, _, h.accept hnew (r.job (submitter delay settings defaultQueue) text)
        r.around.atBroker.moment hholds hclock hothers hrecord hrests, hopen, ?_, ?_⟩
      · intro text' htext'
        cases htext'
        exact Function.update_self _ _ _
      · exact fun id hid => Function.update_of_ne hid _ _

/-- A pool that starts on what submissions under different ids left is orderly. -/
theorem Orderly.submitAll {η : Type} (delay : Span) (defaultQueue : String)
    (hd : settings.dialect = .positional) (rs : List Request)
    (hids : (rs.map Request.id).Nodup) {s : Backlog × Embedded} {handler : η}
    {clock : List Timestamp} (h : Orderly ends jobs (.start s handler clock) m)
    (hopen : s.1.closed = false) (hnew : ∀ r ∈ rs, jobs r.id = none) :
    ∃ jobs' m', Orderly ends jobs' (.start
        ((Request.submitAll (submitter delay settings defaultQueue) rs).run s).state handler
        (clock ++ rs.flatMap Request.readings)) m' ∧
      (∀ r ∈ rs, ∀ text, r.text = .ok text →
        jobs' r.id = some (r.job (submitter delay settings defaultQueue) text)) ∧
      ∀ id, (∀ r ∈ rs, r.id ≠ id) → jobs' id = jobs id := by
  induction rs generalizing s jobs m clock with
  | nil =>
      refine ⟨jobs, m, ?_, fun _ hr => absurd hr List.not_mem_nil, fun _ _ => rfl⟩
      rw [List.flatMap_nil, List.append_nil]
      exact h
  | cons r rs ih =>
      rw [List.map_cons, List.nodup_cons] at hids
      obtain ⟨jobs₁, m₁, h₁, hopen₁, hjob, hothers⟩ :=
        h.submit delay defaultQueue hd hopen r (hnew r List.mem_cons_self)
      have hfresh : ∀ r' ∈ rs, r'.id ≠ r.id := fun r' hr' heq =>
        hids.1 (heq ▸ List.mem_map_of_mem hr')
      obtain ⟨jobs₂, m₂, h₂, hjobs, hrest⟩ := ih hids.2 h₁ hopen₁ fun r' hr' => by
        rw [hothers r'.id (hfresh r' hr')]
        exact hnew r' (List.mem_cons_of_mem r hr')
      refine ⟨jobs₂, m₂, ?_, ?_, ?_⟩
      · rw [List.flatMap_cons, ← List.append_assoc]
        exact h₂
      · intro r' hr' text htext
        rcases List.mem_cons.mp hr' with rfl | hr'
        · rw [hrest r'.id hfresh]
          exact hjob text htext
        · exact hjobs r' hr' text htext
      · intro id hid
        rw [hrest id fun r' hr' => hid r' (List.mem_cons_of_mem r hr')]
        exact hothers id (hid r List.mem_cons_self).symm

end

end TaskAudit.Worker
