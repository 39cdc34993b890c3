import Mathlib
import TaskAudit.Proofs.Broker.Sending
import TaskAudit.Proofs.Console.Serving
import TaskAudit.Proofs.Submission
import TaskAudit.Proofs.Trail.Recording

/-!
# The queue that is made and the queue that is sent to

Submitting from the command line makes the queue that was named, or else the one of the setup,
and then hands the name to a submitter, which looks for a queue of its own: an empty name is
none. So a name that is not empty is made, sent to, recorded and printed, and an empty one is
made while the task is sent elsewhere.
-/
namespace TaskAudit

/-- A task that is sent to the queue that was asked for was asked for by a name, and an empty name
is none. -/
theorem Directs.eq_asked_iff {named own queue : String} (h : Directs (some named) own queue) :
    queue = named ↔ named ≠ "" := by
  cases h with
  | asked hasked hname =>
      obtain rfl := Option.some.inj hasked
      exact iff_of_true rfl hname
  | own hempty hname =>
      obtain rfl : named = "" := hempty named rfl
      exact iff_of_false hname (fun h => h rfl)
  | usual hempty _ =>
      obtain rfl : named = "" := hempty named rfl
      exact iff_of_false (by decide) (fun h => h rfl)

namespace Messages

variable {κ : Type} {server : QueueServer κ} {s : κ} {log : List Exchange} {queue : String}
  {fault : Error}

section

variable {id : String} {now : Now} {task : Task} {maxRetry : UInt32}

theorem enqueue_minuted_of_ok {accepted : Accepted}
    (h : ((enqueue server.minuted id now task queue maxRetry).run (s, log)).value = .ok accepted) :
    accepted = ⟨id, queue, task.taskType, maxRetry, now.time⟩ ∧ ∃ body,
      ((enqueue server.minuted id now task queue maxRetry).run (s, log)).state.2 =
        log ++ [.send queue body 0 (.ok ())] := by
  cases hjson : Json.readBytes task.payload with
  | error cause =>
      rw [enqueue_of_malformed hjson] at h
      cases h
  | ok v =>
      simp only [enqueue, hjson, QueueServer.minuted, Action.run_bind, Action.run_noted,
        Effect.logged] at h ⊢
      generalize (Envelope.toJson _).compact = body at h ⊢
      cases hsent : ((server.send queue body 0).run s).value with
      | error cause => simp [hsent] at h
      | ok done =>
          simp only [hsent, Action.run_bind, Action.run_pure, Except.ok.injEq] at h
          exact ⟨h.symm, body, rfl⟩

theorem enqueue_minuted_of_error
    (h : ((enqueue server.minuted id now task queue maxRetry).run (s, log)).value = .error fault) :
    (∃ cause, Json.readBytes task.payload = .error cause ∧ fault = .serialization cause ∧
      ((enqueue server.minuted id now task queue maxRetry).run (s, log)).state.2 = log) ∨
    ∃ cause body, fault = .broker s!"pgmq.send to {queue} failed: {cause.message}" ∧
      ((enqueue server.minuted id now task queue maxRetry).run (s, log)).state.2 =
        log ++ [.send queue body 0 (.error cause)] := by
  cases hjson : Json.readBytes task.payload with
  | error cause =>
      rw [enqueue_of_malformed hjson] at h ⊢
      cases h
      exact .inl ⟨cause, rfl, rfl, rfl⟩
  | ok v =>
      refine .inr ?_
      simp only [enqueue, hjson, QueueServer.minuted, Action.run_bind, Action.run_noted,
        Effect.logged] at h ⊢
      generalize (Envelope.toJson _).compact = body at h ⊢
      cases hsent : ((server.send queue body 0).run s).value with
      | error cause =>
          simp only [hsent, Action.run_pure, Except.error.injEq] at h
          exact ⟨cause, body, h.symm, rfl⟩
      | ok done => simp [hsent] at h

end

end Messages

namespace Console.Program

variable {κ δ α : Type}

def receiptLine (id queue : String) (maxRetry : UInt32) : String :=
  "Enqueued: " ++ id ++ " (queue: " ++ queue ++ ", max retry: " ++
    Decimal.text maxRetry.toNat ++ ")\n"

section

variable (place : Place (κ × List Exchange)) (engine : Engine δ) (settings : AuditTable.Settings)
  (setup : Setup) (around : Surroundings) (payload queue : Option String)
  (maxRetry : Option UInt32) (d : δ)

/-- How a submission can end: what has passed between it and the server, its answer, and the
database that it leaves. -/
inductive SubmitEnds : List Exchange → Answer → δ → Prop where
  | unread {fault : Json.Error} (h : payloadOf payload = .error fault) :
    SubmitEnds [] (.error ⟨fault.message, []⟩) d
  | unconnected {fault : Error} (h : connectQueues place setup.queueAddress = .error fault) :
    SubmitEnds [] (.error (.ofError fault)) d
  | unmade {named : String} {fault : DatabaseFault} (hnamed : named = queue.getD setup.defaultQueue) :
    SubmitEnds [.create named (.error fault)] (.error (.ofError (.storage fault))) d
  | unwritten {named : String} {v : Json} {fault : Json.Error}
    (hnamed : named = queue.getD setup.defaultQueue) (hread : payloadOf payload = .ok v)
    (hwritten : Json.readBytes v.compact.toUTF8 = .error fault) :
    SubmitEnds [.create named (.ok ())] (.error (.ofError (.serialization fault))) d
  | unsent {named sent body : String} {fault : DatabaseFault}
    (hnamed : named = queue.getD setup.defaultQueue)
    (hsent : Directs (some named) setup.defaultQueue sent) :
    SubmitEnds [.create named (.ok ()), .send sent body 0 (.error fault)]
      (.error (.ofError (.broker s!"pgmq.send to {sent} failed: {fault.message}"))) d
  | sent {named sent body : String} {r : Record}
    (hnamed : named = queue.getD setup.defaultQueue)
    (hsent : Directs (some named) setup.defaultQueue sent) (hid : r.id = around.id)
    (hqueue : r.queue = sent) :
    SubmitEnds [.create named (.ok ()), .send sent body 0 (.ok ()), .close]
      (.ok (receiptLine around.id sent (maxRetry.getD 25)))
      ((AuditTable.trail engine.database settings).afterAll
        [.created r, .enqueued around.id sent around.atMark] d)

variable {place engine settings setup around payload queue maxRetry d}

/-- Where a submission is sent to, it is sent to the queue that was made, unless the name of that
one is empty. -/
theorem SubmitEnds.sent_made_iff {log : List Exchange} {answer : Answer} {d' : δ}
    (h : SubmitEnds place engine settings setup around payload queue maxRetry d log answer d')
    {sent body : String} {delay : Int} {reply : Except DatabaseFault Unit}
    (hsent : .send sent body delay reply ∈ log) :
    (∃ made, .create sent made ∈ log) ↔ queue.getD setup.defaultQueue ≠ "" := by
  cases h with
  | unread _ | unconnected _ => cases hsent
  | unmade _ | unwritten _ _ _ => simp at hsent
  | unsent hnamed hdirects | sent hnamed hdirects _ _ =>
      simp only [List.mem_cons, List.not_mem_nil, or_false, reduceCtorEq, false_or,
        Exchange.send.injEq] at hsent
      obtain ⟨rfl, -⟩ := hsent
      rw [← hnamed, ← hdirects.eq_asked_iff]
      simp

theorem andThen_close {server : QueueServer κ} {c : Submitter (κ × List Exchange) δ}
    {broking : Messages.Settings} (hbroker : c.broker = Messages.broker server.minuted broking)
    (text : String) (s : Desk (κ × List Exchange) δ) :
    let e := (andThen c.close fun _ => return .ok text).run s
    e.value = .ok text ∧ e.state.1.2 = s.1.2 ++ [.close] ∧ e.state.2 = s.2 := by
  unfold Submitter.close
  rw [hbroker]
  exact ⟨rfl, rfl, rfl⟩

/-- What follows once the queue is made. -/
theorem sending_submitEnds {server : QueueServer κ} {named taskType : String} {v : Json}
    (hnamed : named = queue.getD setup.defaultQueue) (hread : payloadOf payload = .ok v)
    {b : κ × List Exchange} (hmade : b.2 = [.create named (.ok ())]) :
    let c : Submitter (κ × List Exchange) δ := .new (Messages.broker server.minuted {})
      (some (AuditTable.trail engine.database settings)) setup.submitterQueue
    let e := (andThen (c.submit around taskType v ⟨some named, maxRetry⟩) fun a =>
      andThen c.close fun _ => return .ok (receiptLine a.id a.queue a.maxRetry)).run (b, d)
    SubmitEnds place engine settings setup around payload queue maxRetry d e.state.1.2 e.value
      e.state.2 := by
  intro c
  let Ends (answer : Answer) (left : Desk (κ × List Exchange) δ) : Prop :=
    SubmitEnds place engine settings setup around payload queue maxRetry d left.1.2 answer left.2
  have hdirects : Directs (some named) setup.defaultQueue (c.queueOf ⟨some named, maxRetry⟩) :=
    Submitter.directs_queueOf _ _ setup.submitterQueue ⟨some named, maxRetry⟩
  obtain ⟨hvalue, hstate⟩ := Messages.submit_asks (c := c) rfl around taskType v
    ⟨some named, maxRetry⟩ b d
  change Ends _ _
  apply andThen_ensures
  · intro fault hfault
    have hleft := c.submit_state_of_error around taskType v _ _ hfault
    change SubmitEnds place engine settings setup around payload queue maxRetry d _ _ _
    rw [hleft, hstate]
    rw [hvalue] at hfault
    rcases Messages.enqueue_minuted_of_error hfault with
      ⟨cause, hjson, rfl, hlog⟩ | ⟨cause, body, rfl, hlog⟩
    · rw [hlog, hmade]
      exact .unwritten hnamed hread hjson
    · rw [hlog, hmade]
      exact .unsent hnamed hdirects
  · intro accepted haccepted
    obtain ⟨text, -, hleft⟩ := Submitter.submit_state_of_ok rfl around taskType v _ _ haccepted
    rw [hvalue] at haccepted
    obtain ⟨rfl, body, hlog⟩ := Messages.enqueue_minuted_of_ok haccepted
    obtain ⟨hanswer, hclosed, hkept⟩ := andThen_close (c := c) rfl
      (receiptLine around.id (c.queueOf ⟨some named, maxRetry⟩) (maxRetry.getD defaultMaxRetry))
      ((c.submit around taskType v ⟨some named, maxRetry⟩).run (b, d)).state
    rw [hstate, hlog, hmade] at hclosed
    rw [hleft] at hkept
    change SubmitEnds place engine settings setup around payload queue maxRetry d _ _ _
    rw [hanswer, hclosed, hkept]
    exact .sent hnamed hdirects rfl rfl

variable (place engine settings setup around payload queue maxRetry d)

/-- Every submission ends in one of these ways. -/
theorem submit_submitEnds {server : QueueServer κ} (hserver : place.server = server.minuted)
    (taskType : String) (k : κ) :
    let e := (submit place engine settings setup around taskType payload queue maxRetry).run
      ((k, []), d)
    SubmitEnds place engine settings setup around payload queue maxRetry d e.state.1.2 e.value
      e.state.2 := by
  intro e
  let Ends (answer : Answer) (left : Desk (κ × List Exchange) δ) : Prop :=
    SubmitEnds place engine settings setup around payload queue maxRetry d left.1.2 answer left.2
  change Ends e.value e.state
  simp only [e, submit, hserver]
  cases hread : payloadOf payload with
  | error fault => exact .unread hread
  | ok v =>
      apply andThen_ensures
      · intro fault hconnect
        exact .unconnected hconnect
      · intro _ _
        apply andThen_ensures
        · intro fault hfault
          obtain ⟨cause, rfl, hlog⟩ := Messages.makeQueue_minuted_of_error hfault
          change SubmitEnds place engine settings setup around payload queue maxRetry d
            ((Messages.makeQueue server.minuted (queue.getD setup.defaultQueue)).run
              (k, [])).state.2 _ d
          rw [hlog]
          exact .unmade rfl
        · intro _ hcreate
          have hmade := Messages.makeQueue_minuted_of_ok hcreate
          exact sending_submitEnds rfl hread hmade

/-- Whatever is submitted on the command line, whatever the setup, and whatever the server and
the database answer: a submission ends in one of the ways above. The queue that the task is sent
to is the one that is printed and recorded, and it was made in the same run exactly if the name
that was given, or else that of the setup, is not empty. -/
theorem submit_makes_sent_queue_iff {server : QueueServer κ}
    (hserver : place.server = server.minuted) (taskType : String) (k : κ) :
    let e := (submit place engine settings setup around taskType payload queue maxRetry).run
      ((k, []), d)
    SubmitEnds place engine settings setup around payload queue maxRetry d e.state.1.2 e.value
        e.state.2 ∧
      ∀ sent body delay reply, .send sent body delay reply ∈ e.state.1.2 →
        ((∃ made, .create sent made ∈ e.state.1.2) ↔ queue.getD setup.defaultQueue ≠ "") := by
  intro e
  have hends := submit_submitEnds place engine settings setup around payload queue maxRetry d
    hserver taskType k
  exact ⟨hends, fun _ _ _ _ hsent => hends.sent_made_iff hsent⟩

/-- A queue is named, though the setup has none: it is made and sent to. -/
theorem submit_makes_sent_queue_iff_of_low :
    let place : Place (Queues × List Exchange) :=
      { environment := fun _ => none, machine := { servers := [("127.0.0.1", 5432)] }
        databaseFile := [], server := Queues.server.minuted }
    let setup : Setup := ⟨"sqlite::memory:",
      some "postgres://127.0.0.1:5432/queues?sslmode=disable", "", 10, [], none, "info"⟩
    let around : Surroundings := ⟨"a", ⟨0, .epoch⟩, .epoch, .epoch⟩
    let e := (submit place bareServer ⟨.positional, none⟩ setup around "mail" none (some "low")
      none).run (({}, []), ())
    place.server = Queues.server.minuted ∧
      ∃ body, .send "low" body 0 (.ok ()) ∈ e.state.1.2 ∧
        ∃ made, .create "low" made ∈ e.state.1.2 := by
  intro place setup around e
  let body := (Envelope.toJson ⟨some "a", "mail", .obj [], 25⟩).compact
  have hlog : e.state.1.2 =
      [.create "low" (.ok ()), .send "low" body 0 (.ok ()), .close] := by
    decide +kernel
  have hsent : .send "low" body 0 (.ok ()) ∈ e.state.1.2 := by
    rw [hlog]
    exact List.mem_cons_of_mem _ List.mem_cons_self
  have hserver : place.server = Queues.server.minuted := rfl
  have hboth := submit_makes_sent_queue_iff place bareServer ⟨.positional, none⟩ setup around none
    (some "low") none () hserver "mail" {}
  exact ⟨hserver, body, hsent, (hboth.2 "low" body 0 (.ok ()) hsent).mpr (by decide)⟩

/-- An empty name is given. The queue without a name is made, and the task is sent to the usual
one, which is not there. -/
theorem submit_sends_to_unmade :
    let place : Place (Queues × List Exchange) :=
      { environment := fun _ => none, machine := { servers := [("127.0.0.1", 5432)] }
        databaseFile := [], server := Queues.server.minuted }
    let setup : Setup := ⟨"sqlite::memory:",
      some "postgres://127.0.0.1:5432/queues?sslmode=disable", "default", 10, [], none, "info"⟩
    let around : Surroundings := ⟨"a", ⟨0, .epoch⟩, .epoch, .epoch⟩
    let e := (submit place bareServer ⟨.positional, none⟩ setup around "t" none (some "")
      none).run (({}, []), ())
    ∃ body fault, .send "default" body 0 (.error fault) ∈ e.state.1.2 ∧
      ¬ ∃ made, .create "default" made ∈ e.state.1.2 := by
  intro place setup around e
  let body := (Envelope.toJson ⟨some "a", "t", .obj [], 25⟩).compact
  have hlog : e.state.1.2 = [.create "" (.ok ()),
      .send "default" body 0 (.error (Queues.noQueue "default"))] := by
    decide +kernel
  rw [hlog]
  exact ⟨body, Queues.noQueue "default", List.mem_cons_of_mem _ List.mem_cons_self, by simp⟩

end

end Console.Program

end TaskAudit
