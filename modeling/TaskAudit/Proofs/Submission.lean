import Mathlib
import TaskAudit.Broker.Backlog
import TaskAudit.Proofs.Trail.Noninterference
import TaskAudit.Trail.Recorder

/-!
# What a submission does

A broker and a trail can be made to keep what they are called with; a submitter does not notice.
A submission then leaves one of three things behind. A payload that cannot be written leaves
nothing. A task that the broker refuses leaves one call of the broker and one count. A task that
the broker accepts leaves the same, and two writes to the trail if there is one: what the broker
was sent is what is recorded, and no failure of the first write keeps the second from being tried.
-/
namespace TaskAudit

variable {β σ κ α : Type}

inductive BrokerCall where
  | enqueue (id : String) (now : Now) (task : Task) (queue : String) (maxRetry : UInt32)
  | dequeue (now : Now) (queues : List String)
  | ack (receipt : Receipt)
  | fail (now : Now) (receipt : Receipt) (error : String)
  | close

def Action.keeping (a : Action σ α) (call : κ) : Action (σ × List κ) α := fun s =>
  let e := a.run s.1
  ⟨e.value, (e.state, s.2 ++ [call]), e.events⟩

@[simp] theorem Action.run_keeping (a : Action σ α) (call : κ) (s : σ × List κ) :
    (a.keeping call).run s =
      ⟨(a.run s.1).value, ((a.run s.1).state, s.2 ++ [call]), (a.run s.1).events⟩ := rfl

/-- A broker that keeps its calls. -/
def Broker.keeping (broker : Broker β) : Broker (β × List BrokerCall) where
  enqueue id now task queue maxRetry :=
    (broker.enqueue id now task queue maxRetry).keeping (.enqueue id now task queue maxRetry)
  dequeue now queues := (broker.dequeue now queues).keeping (.dequeue now queues)
  ack receipt := (broker.ack receipt).keeping (.ack receipt)
  fail now receipt error := (broker.fail now receipt error).keeping (.fail now receipt error)
  close := broker.close.keeping .close

/-- A trail that keeps the writes that were tried. -/
def Trail.keeping (trail : Trail σ) : Trail (σ × List Write) where
  write w := (trail.write w).keeping w

/-- The queue of a submission: the one that is asked for, or else the submitter's own, or else
the usual one. An empty name is none. -/
inductive Directs (asked : Option String) (own : String) : String → Prop where
  | asked {queue : String} (h : asked = some queue) (hname : queue ≠ "") : Directs asked own queue
  | own (h : ∀ queue ∈ asked, queue = "") (hname : own ≠ "") : Directs asked own own
  | usual (h : ∀ queue ∈ asked, queue = "") (hname : own = "") : Directs asked own "default"

def Write.told (w : Write) (e : Effect σ (Except Error Unit)) : List Event :=
  e.events ++ match e.value with
    | .ok () => []
    | .error error =>
      [.notice (.writeFailed w.operation w.id error.message), .measure (.writeFailure w.operation)]

/-- What the record of an accepted task leaves in a trail. -/
inductive Records (r : Record) (time : Timestamp) (t : σ) :
    Option (Trail σ) → Effect (σ × List Write) Unit → Prop where
  | nowhere : Records r time t none ⟨(), (t, []), [.notice (.notRecorded r.id)]⟩
  | written {trail : Trail σ} {created enqueued : Write} (hcreated : created = .created r)
    (henqueued : enqueued = .enqueued r.id r.queue time)
    {first second : Effect σ (Except Error Unit)} (hfirst : first = (trail.write created).run t)
    (hsecond : second = (trail.write enqueued).run first.state) :
    Records r time t (some trail)
      ⟨(), (second.state, [created, enqueued]), created.told first ++ enqueued.told second⟩

section

variable (broker : Broker β) (trail : Option (Trail σ)) (own : String) (around : Surroundings)
  (taskType : String) (options : SubmitOptions) (s : β) (t : σ)

/-- What a submission leaves, for a payload that was written as a text or could not be. -/
inductive Submits : Except Json.Error String →
    Effect ((β × List BrokerCall) × (σ × List Write)) (Except Error Accepted) → Prop where
  | unwritten {fault : Json.Error} :
    Submits (.error fault) ⟨.error (.serialization fault), ((s, []), (t, [])), []⟩
  | refused {text queue : String} {task : Task} {maxRetry : UInt32}
    {asked : Effect β (Except Error Accepted)} {error : Error}
    (htask : task = ⟨taskType, text.toUTF8⟩) (hqueue : Directs options.queue own queue)
    (hmaxRetry : maxRetry = options.maxRetry.getD 25)
    (hasked : asked = (broker.enqueue around.id around.atBroker task queue maxRetry).run s)
    (hvalue : asked.value = .error error) :
    Submits (.ok text)
      ⟨.error error,
        ((asked.state, [.enqueue around.id around.atBroker task queue maxRetry]), (t, [])),
        asked.events ++ [.measure (.enqueued taskType false)]⟩
  | accepted {text queue : String} {task : Task} {maxRetry : UInt32}
    {asked : Effect β (Except Error Accepted)} {accepted : Accepted} {r : Record}
    {left : Effect (σ × List Write) Unit}
    (htask : task = ⟨taskType, text.toUTF8⟩) (hqueue : Directs options.queue own queue)
    (hmaxRetry : maxRetry = options.maxRetry.getD 25)
    (hasked : asked = (broker.enqueue around.id around.atBroker task queue maxRetry).run s)
    (hvalue : asked.value = .ok accepted)
    (hid : r.id = accepted.id) (hrecordQueue : r.queue = accepted.queue)
    (htaskType : r.taskType = taskType) (hpayload : r.payload = text)
    (hstatus : r.status = .created) (hleft : Records r around.atMark t trail left) :
    Submits (.ok text)
      ⟨.ok accepted,
        ((asked.state, [.enqueue around.id around.atBroker task queue maxRetry]), left.state),
        asked.events ++ .measure (.enqueued taskType true) ::
          .notice (.taskEnqueued accepted.id taskType accepted.queue) :: left.events⟩

def Event.isSubmission : Event → Bool
  | .measure (.enqueued ..) => true
  | _ => false

/-- Does the action count no submission? -/
def Action.CountsNoSubmission (a : Action σ α) : Prop :=
  ∀ s, (a.run s).events.filter Event.isSubmission = []

theorem Write.filter_told {w : Write} {e : Effect σ (Except Error Unit)}
    (h : e.events.filter Event.isSubmission = []) :
    (w.told e).filter Event.isSubmission = [] := by
  rw [told, List.filter_append, h, List.nil_append]
  cases e.value with
  | ok done => rfl
  | error error => rfl

theorem Records.counted {trail : Option (Trail σ)} {r : Record} {time : Timestamp} {t : σ}
    {e : Effect (σ × List Write) Unit} (h : Records r time t trail e)
    (htrail : ∀ own ∈ trail, ∀ w, (own.write w).CountsNoSubmission) :
    e.events.filter Event.isSubmission = [] := by
  cases h with
  | nowhere => rfl
  | @written own created enqueued _ _ first second hfirst hsecond =>
      have hquiet := htrail own rfl
      have hcreated : first.events.filter Event.isSubmission = [] := by
        rw [hfirst]
        exact hquiet created t
      have henqueued : second.events.filter Event.isSubmission = [] := by
        rw [hsecond]
        exact hquiet enqueued first.state
      rw [List.filter_append, Write.filter_told hcreated, Write.filter_told henqueued]
      rfl

/-- If nobody else counts submissions, one is counted for each call of the broker. -/
theorem Submits.counted {text : Except Json.Error String}
    {e : Effect ((β × List BrokerCall) × (σ × List Write)) (Except Error Accepted)}
    (h : Submits broker trail own around taskType options s t text e)
    (hbroker : ∀ id now task queue maxRetry,
      (broker.enqueue id now task queue maxRetry).CountsNoSubmission)
    (htrail : ∀ own ∈ trail, ∀ w, (own.write w).CountsNoSubmission) :
    e.events.filter Event.isSubmission =
      e.state.1.2.map fun _ => .measure (.enqueued taskType e.value.isOk) := by
  cases h with
  | unwritten => rfl
  | refused htask hqueue hmaxRetry hasked hvalue =>
      rw [List.filter_append, hasked, hbroker]
      rfl
  | accepted htask hqueue hmaxRetry hasked hvalue _ _ _ _ _ hleft =>
      rw [List.filter_append, hasked, hbroker, List.nil_append, List.filter_cons_of_pos rfl,
        List.filter_cons_of_neg Bool.false_ne_true, hleft.counted htrail]
      rfl

end

theorem Trail.run_record (trail : Trail σ) (w : Write) (t : σ) :
    (trail.record w).run t =
      let e := (trail.write w).run t
      ⟨e.value.isOk, e.state, w.told e⟩ := by
  simp only [record, tolerate, Action.run_bind, Write.told]
  cases ((trail.write w).run t).value with
  | ok done => rfl
  | error error => rfl

theorem Trail.run_record_keeping (trail : Trail σ) (w : Write) (t : σ) (ws : List Write) :
    (trail.keeping.record w).run (t, ws) =
      let e := (trail.write w).run t
      ⟨e.value.isOk, (e.state, ws ++ [w]), w.told e⟩ :=
  trail.keeping.run_record w (t, ws)

namespace Submitter

theorem directs_queueOf (broker : Broker β) (trail : Option (Trail σ)) (own : String)
    (options : SubmitOptions) :
    Directs options.queue own ((new broker trail own).queueOf options) := by
  unfold queueOf
  by_cases hnamed : ∃ queue, options.queue = some queue ∧ queue ≠ ""
  · obtain ⟨queue, hqueue, hname⟩ := hnamed
    rw [hqueue, Option.filter_some, if_pos (decide_eq_true hname)]
    exact .asked rfl hname
  · have hempty : ∀ queue ∈ options.queue, queue = "" := by
      intro queue hqueue
      by_contra hname
      exact hnamed ⟨queue, hqueue, hname⟩
    have hfilter : options.queue.filter (· ≠ "") = none := by
      apply Option.filter_eq_none_iff.mpr
      intro queue hqueue
      simpa using hempty queue hqueue
    rw [hfilter, Option.getD_none, new]
    split_ifs with hown
    · exact .usual hempty hown
    · exact .own hempty hown

theorem leaveRecord_records (trail : Option (Trail σ)) (r : Record) (time : Timestamp) (t : σ) :
    Records r time t trail
      ((leaveRecord (trail.map Trail.keeping) r.id
        [.created r, .enqueued r.id r.queue time]).run (t, [])) := by
  cases trail with
  | none => exact .nowhere
  | some trail =>
      simp only [leaveRecord, Option.map_some, List.forM_eq_forM, List.forM_cons, List.forM_nil,
        Action.run_bind, Trail.run_record_keeping, Action.run_pure, List.append_nil,
        List.nil_append]
      exact .written rfl rfl rfl rfl

/-- Whatever is submitted, and whatever the broker and the trail answer, a submission does what
the rules above say. If nobody else counts submissions, it counts one for each call of the
broker, by what the broker answered. -/
theorem submit_submits [Submittable α] (broker : Broker β) (trail : Option (Trail σ))
    (own : String) (around : Surroundings) (taskType : String) (payload : α)
    (options : SubmitOptions) (s : β) (t : σ) :
    let c := new broker.keeping (trail.map Trail.keeping) own
    let e := (c.submit around taskType payload options).run ((s, []), (t, []))
    Submits broker trail own around taskType options s t (Submittable.text payload) e ∧
      ((∀ id now task queue maxRetry,
          (broker.enqueue id now task queue maxRetry).CountsNoSubmission) →
        (∀ other ∈ trail, ∀ w, (other.write w).CountsNoSubmission) →
        e.events.filter Event.isSubmission =
          e.state.1.2.map fun _ => .measure (.enqueued taskType e.value.isOk)) := by
  intro c e
  have hsubmits : Submits broker trail own around taskType options s t
      (Submittable.text payload) e := by
    simp only [e, submit]
    cases Submittable.text payload with
    | error fault => exact .unwritten
    | ok text =>
        have hqueue : Directs options.queue own (c.queueOf options) :=
          directs_queueOf _ _ own options
        simp only [run_submitText, request, c, new, Broker.keeping, Action.run_keeping]
        generalize hasked : (broker.enqueue _ _ _ _ _).run s = asked
        cases hvalue : asked.value with
        | error error => exact .refused rfl hqueue rfl hasked.symm hvalue
        | ok accepted =>
            have hleft := leaveRecord_records trail
              (.ofNewTask accepted.id taskType accepted.queue text around.atInsert) around.atMark t
            exact .accepted rfl hqueue rfl hasked.symm hvalue rfl rfl rfl rfl rfl hleft
  exact ⟨hsubmits, hsubmits.counted⟩

/-- The second write is tried although the trail refuses the first. -/
theorem submit_submits_of_refused_insert :
    let c := new (Backlog.broker (.seconds 1)).keeping (some Recorder.trail.keeping) "low"
    let e := (c.submit ⟨"t-1", ⟨0, .epoch⟩, .epoch, .epoch⟩ "report:build" (Json.str "x")
      { queue := some "" }).run (({}, []), ({ refused := ["insert_created"] }, []))
    e.events.filter Event.isSubmission = [.measure (.enqueued "report:build" true)] ∧
      e.state.2.2.map Write.operation = ["insert_created", "mark_enqueued"] := by
  intro c e
  have hbroker : ∀ id now task queue maxRetry,
      ((Backlog.broker (.seconds 1)).enqueue id now task queue maxRetry).CountsNoSubmission := by
    intro id now task queue maxRetry s
    simp only [Backlog.broker, Backlog.enqueue, Action.run]
    split <;> rfl
  have htrail : ∀ other ∈ some Recorder.trail, ∀ w, (other.write w).CountsNoSubmission := by
    intro other hother w s
    cases hother
    rfl
  have hsubmits := submit_submits (Backlog.broker (.seconds 1)) (some Recorder.trail) "low"
    ⟨"t-1", ⟨0, .epoch⟩, .epoch, .epoch⟩ "report:build" (Json.str "x") { queue := some "" } {}
    { refused := ["insert_created"] }
  exact ⟨hsubmits.2 hbroker htrail, rfl⟩

end Submitter

end TaskAudit
