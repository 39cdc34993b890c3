import Mathlib
import TaskAudit.Proofs.Broker.Course
import TaskAudit.Proofs.Broker.QueueLaw

/-!
# Every outcome has a course

In the queues in the process a message can be delivered, reported and delivered again as often
as its task may be tried, until a delivery succeeds or all of them failed. So every way in
which the deliveries of a task can end is that of a message, and what is said of all courses is
said of it.
-/
namespace TaskAudit

/-- A server with one message in one queue. -/
def Queues.single (clock : Int) (readCount : Int32) (visibleAt : Int) (body : String) : Queues :=
  ⟨clock, [("q", ⟨[⟨1, readCount, visibleAt, body⟩], [], 1⟩)]⟩

section

variable {clock visibleAt : Int} {readCount : Int32} {body : String}

theorem Queues.single_isSound (h : 0 ≤ readCount.toInt) :
    law.IsSound (single clock readCount visibleAt body) := by
  refine forall_queue (List.forall_mem_singleton.mpr ⟨List.nodup_singleton _, ?_⟩)
    ⟨List.nodup_nil, fun _ hmem => absurd hmem List.not_mem_nil⟩
  exact List.forall_mem_singleton.mpr h

@[simp] theorem Queues.single_letter? :
    law.letter? (single clock readCount visibleAt body) "q" 1 =
      some ⟨readCount.toInt.toNat, visibleAt ≤ clock, body⟩ := by
  simp [law, single, queue, Named.find?, MessageQueue.letter?, QueuedMessage.letter]

theorem Queues.single_read (h : visibleAt ≤ clock) (timeout : Int) :
    ((server.read "q" timeout).run (single clock readCount visibleAt body)).Answers
      (some ⟨1, MessageQueue.oneMore readCount, body⟩)
      (single clock (MessageQueue.oneMore readCount) (clock + timeout) body) := by
  have hread : MessageQueue.readFirst clock timeout [⟨1, readCount, visibleAt, body⟩] =
      some (⟨1, MessageQueue.oneMore readCount, body⟩,
        [⟨1, MessageQueue.oneMore readCount, clock + timeout, body⟩]) := if_pos h
  simp [server, within, Action.run, single, Named.find?, hread, put, Named.insert,
    Effect.Answers]

theorem Queues.single_hide (delay : Int) :
    ((server.hide "q" 1 delay).run (single clock readCount visibleAt body)).Answers ()
      (single clock readCount (clock + delay) body) := by
  simp [server, within, Action.run, single, Named.find?, put, Named.insert, MessageQueue.hide,
    Effect.Answers]

theorem Queues.single_archive :
    ((server.archive "q" 1).run (single clock readCount visibleAt body)).Answers ()
      ⟨clock, [("q", ⟨[], [1], 1⟩)]⟩ := by
  simp [server, within, Action.run, single, Named.find?, put, Named.insert, MessageQueue.archive,
    Effect.Answers]

end

namespace Messages

section

variable {settings : Settings} {clock visibleAt : Int} {readCount : Int32} {body : String}
  {envelope : Envelope} {attempts : List Backlog.Attempt}

theorem Step.single_delivered (hbody : envelope.IsReadIn body)
    (htimeout : 0 < settings.visibilityTimeout) (hsight : visibleAt ≤ clock) :
    Step Queues.law settings "q" 1 (Queues.single clock readCount visibleAt body, attempts)
      (Queues.single clock (MessageQueue.oneMore readCount) (clock + settings.visibilityTimeout)
          body,
        attempts ++
          [(delivery "q" ⟨1, MessageQueue.oneMore readCount, body⟩ envelope, .live)]) := by
  have hread : ((Queues.server.read "q" settings.visibilityTimeout).run
      (Queues.single clock readCount visibleAt body)).Answers
        (some ⟨1, MessageQueue.oneMore readCount, body⟩) _ := Queues.single_read hsight _
  refine .delivered (dequeue_of_read hread hbody []) ⟨rfl, rfl⟩ ?_
  simpa using htimeout

theorem Course.single_failed {d : Delivery} (hof : d.IsOf "q" 1) (hcount : 0 ≤ readCount.toInt)
    (hretry : d.receipt.retryCount < d.receipt.maxRetry) (hdecided : ∀ p ∈ attempts, p.2 ≠ .live) :
    Course Queues.law settings "q" 1
      (Queues.single clock readCount visibleAt body, attempts ++ [(d, .live)])
      (Queues.single (clock + settings.retryDelay) readCount (clock + settings.retryDelay) body,
        attempts ++ [(d, .failed)]) := by
  have hlast : ¬ d.receipt.maxRetry ≤ d.receipt.retryCount := UInt32.not_le.mpr hretry
  have hhide : ((fail Queues.server settings d.receipt "").run
      (Queues.single clock readCount visibleAt body)).Answers ()
      (Queues.single clock readCount (clock + settings.retryDelay) body) := by
    rw [fail_answers, if_neg hlast, hof.1, hof.2]
    exact Queues.single_hide settings.retryDelay
  refine .head (.failed hhide) (.single (.meanwhile (Queues.single_isSound hcount) ⟨true, ?_⟩ ?_))
  · simp
  · rintro ⟨p, hp, hlive⟩
    rcases List.mem_append.mp hp with hp | hp
    · exact absurd hlive (hdecided p hp)
    · obtain rfl := List.mem_singleton.mp hp
      cases hlive

/-- The reading that follows on `n` others says that the task failed `n` times. -/
theorem retryCount_oneMore (body : String) {n : Nat} (hcount : readCount.toInt = n)
    (hfit : n + 1 < 2 ^ 31) :
    (MessageQueue.oneMore readCount).toInt = (n + 1 : Nat) ∧
      (retryCount ⟨1, MessageQueue.oneMore readCount, body⟩).toNat = n := by
  have hmore : (MessageQueue.oneMore readCount).toInt = (n + 1 : Nat) := by
    rw [MessageQueue.toInt_oneMore (by omega) (by omega), hcount]
    rfl
  have hnat : ((MessageQueue.oneMore readCount).toInt - 1).toNat = n := by omega
  refine ⟨hmore, ?_⟩
  rw [retryCount, hnat]
  exact UInt32.toNat_ofNat_of_lt' (Nat.lt_of_lt_of_le (by omega : n < 2 ^ 31) (by decide))

theorem Course.exists_failed (hbody : envelope.IsReadIn body)
    (htimeout : 0 < settings.visibilityTimeout) {n : Nat} (hn : n ≤ envelope.maxRetry.toNat)
    (hfit : n < 2 ^ 31) :
    ∃ (clock visibleAt : Int) (readCount : Int32) (attempts : List Backlog.Attempt),
      Course Queues.law settings "q" 1 (Queues.single 0 0 0 body, [])
          (Queues.single clock readCount visibleAt body, attempts) ∧
        visibleAt ≤ clock ∧ readCount.toInt = n ∧
        attempts.map Prod.snd = List.replicate n .failed := by
  induction n with
  | zero => exact ⟨0, 0, 0, [], .refl, le_refl _, rfl, rfl⟩
  | succ n ih =>
      obtain ⟨clock, visibleAt, readCount, attempts, hcourse, hsight, hcount, hfates⟩ :=
        ih (by omega) (by omega)
      obtain ⟨hmore, hretries⟩ := retryCount_oneMore body hcount hfit
      have hretry : retryCount ⟨1, MessageQueue.oneMore readCount, body⟩ < envelope.maxRetry := by
        rw [UInt32.lt_iff_toNat_lt, hretries]
        exact hn
      have hdecided : ∀ p ∈ attempts, p.2 ≠ .live := by
        intro p hp hlive
        have hfate : p.2 ∈ attempts.map Prod.snd := List.mem_map.mpr ⟨p, hp, rfl⟩
        rw [hfates, hlive] at hfate
        cases (List.mem_replicate.mp hfate).2
      have hdelivered := hcourse.tail (Step.single_delivered hbody htimeout hsight)
      have hfailed := hdelivered.trans
        (Course.single_failed ⟨rfl, rfl⟩ (by omega) hretry hdecided)
      refine ⟨_, _, _, _, hfailed, le_refl _, hmore, ?_⟩
      rw [List.map_append, hfates, List.replicate_succ']
      rfl

/-- Whatever can become of the deliveries of a task, which fail until one succeeds or all that
it may have failed, can become of those of a message. -/
theorem Course.exists_over (hbody : envelope.IsReadIn body)
    (htimeout : 0 < settings.visibilityTimeout) {n : Nat} (hn : n ≤ envelope.maxRetry.toNat)
    (hfit : n + 1 < 2 ^ 31) {fate : Backlog.Fate}
    (hfate : fate = .succeeded ∨ fate = .failed ∧ n = envelope.maxRetry.toNat) :
    ∃ s course, Course Queues.law settings "q" 1 (Queues.single 0 0 0 body, []) (s, course) ∧
      course.map Prod.snd = List.replicate n .failed ++ [fate] := by
  obtain ⟨clock, visibleAt, readCount, attempts, hcourse, hsight, hcount, hfates⟩ :=
    Course.exists_failed hbody htimeout hn (by omega)
  have hdelivered := hcourse.tail (Step.single_delivered hbody htimeout hsight)
  have harchive : ((Queues.server.archive "q" 1).run (Queues.single clock
      (MessageQueue.oneMore readCount) (clock + settings.visibilityTimeout) body)).Answers () _ :=
    Queues.single_archive
  have hmap (fate : Backlog.Fate) (d : Delivery) :
      (attempts ++ [(d, fate)]).map Prod.snd = List.replicate n .failed ++ [fate] := by
    rw [List.map_append, hfates]
    rfl
  rcases hfate with rfl | ⟨rfl, hlimit⟩
  · exact ⟨_, _, hdelivered.tail (.acked (ack_answers.mpr harchive)), hmap _ _⟩
  · obtain ⟨-, hretries⟩ := retryCount_oneMore body hcount hfit
    have hlast : envelope.maxRetry ≤ retryCount ⟨1, MessageQueue.oneMore readCount, body⟩ := by
      rw [UInt32.le_iff_toNat_le, hretries, hlimit]
    have hreport : ((fail Queues.server settings
        (delivery "q" ⟨1, MessageQueue.oneMore readCount, body⟩ envelope).receipt "").run
        (Queues.single clock (MessageQueue.oneMore readCount)
          (clock + settings.visibilityTimeout) body)).Answers ()
          ⟨clock, [("q", ⟨[], [1], 1⟩)]⟩ := by
      rw [fail_answers]
      exact (if_pos hlast).mpr harchive
    exact ⟨_, _, hdelivered.tail (.failed hreport), hmap _ _⟩

end

end Messages

end TaskAudit
