import Mathlib
import TaskAudit.Proofs.Broker.Sending
import TaskAudit.Proofs.Json.Texts

/-!
# Messages that block a queue

A message that was read is delivered, or archived if it carries no task. That takes a text that
can be read. A text that is JSON but goes beyond a limit of the reader is neither: the poll fails,
the message stays, and once it is in sight again it is in the way of the next poll. Others may
send such a message, and so may the broker, of a payload that is nested as deep as a payload may
be.
-/
namespace TaskAudit.Messages

section

variable {δ : Type} {server : QueueServer δ} {settings : Settings} {s s₁ s₂ : δ} {queue : String}
  {m : Message}

theorem dequeue_minuted_of_task {e : Envelope}
    (hread : ((server.read queue settings.visibilityTimeout).run s).Answers (some m) s₁)
    (h : e.IsReadIn m.body) (queues : List String) :
    ((dequeue server.minuted settings (queue :: queues)).run (s, [])).Answers
      (some (delivery queue m e))
      (s₁, [.read queue settings.visibilityTimeout (.ok (some m))]) := by
  obtain ⟨v, hjson, henvelope⟩ := h
  obtain ⟨events, hnext⟩ := readNext_minuted_of_read hread hjson []
  simp only [dequeue, Action.run_bind, hnext, henvelope]
  exact ⟨rfl, rfl⟩

theorem dequeue_minuted_of_stray
    (hread : ((server.read queue settings.visibilityTimeout).run s).Answers (some m) s₁)
    (h : m.IsStray) (harchive : ((server.archive queue m.msgId).run s₁).Answers () s₂) :
    ((dequeue server.minuted settings [queue]).run (s, [])).Answers none
      (s₂, [.read queue settings.visibilityTimeout (.ok (some m)),
        .archive queue m.msgId (.ok ())]) := by
  obtain ⟨v, fault, hjson, hfault⟩ := h
  obtain ⟨events, hnext⟩ := readNext_minuted_of_read hread hjson []
  have hcounted : ((archive server queue m.msgId).run s₁).Answers () s₂ :=
    counted_answers.mpr harchive
  simp only [dequeue, Action.run_bind, hnext, hfault, Action.run_note, archive_minuted,
    Effect.logged, hcounted.1, harchive.1]
  exact ⟨rfl, by simp [hcounted.2]⟩

end

/-- A message whose text is JSON is delivered, or archived, or goes beyond a limit of the reader;
then the poll fails and leaves it where it is. A message that the broker sent of a payload whose
numbers are integers goes beyond a limit only if the payload is nested 127 deep. -/
theorem dequeue_settles {δ : Type} (server : QueueServer δ) (settings : Settings) :
    (∀ queue s s₁ s₂ m,
      ((server.read queue settings.visibilityTimeout).run s).Answers (some m) s₁ →
      ((server.archive queue m.msgId).run s₁).Answers () s₂ → Json.IsText m.body →
      let poll := (dequeue server.minuted settings [queue]).run (s, [])
      let read := Exchange.read queue settings.visibilityTimeout (.ok (some m))
      (∃ d, ∃ e : Envelope, e.IsReadIn m.body ∧ d.IsMadeOf queue m e ∧
          poll.Answers (some d) (s₁, [read])) ∨
        (m.IsStray ∧ poll.Answers none (s₂, [read, .archive queue m.msgId (.ok ())])) ∨
        ∃ fault place, Json.Malformed.IsLimit fault ∧
          Json.read m.body = .error ⟨.malformed fault, some place⟩ ∧
          poll.value = .error (.storage
            (.column "2" (Json.Error.message ⟨.malformed fault, some place⟩))) ∧
          poll.state = (s₁, [read])) ∧
    ∀ id now task queue maxRetry s accepted s₁ log v,
      Json.readBytes task.payload = .ok v → v.IsWhole →
      ((enqueue server.minuted id now task queue maxRetry).run (s, [])).Answers accepted
        (s₁, log) →
      let e : Envelope := ⟨some accepted.id, task.taskType, v, maxRetry⟩
      ∃ body, log = [.send queue body 0 (.ok ())] ∧ Json.IsTextOf body e.toJson ∧
        (v.depth ≤ 126 → Delivers server settings body e) ∧
        (126 < v.depth → v.depth = 127 ∧ Jams server settings e.toJson) := by
  refine ⟨?_, fun id now task queue maxRetry s accepted s₁ log v hjson hwhole h =>
    enqueue_delivers hjson hwhole h⟩
  intro queue s s₁ s₂ m hread harchive htext poll read
  obtain ⟨v, hjson⟩ | ⟨fault, place, hlimit, hjson⟩ := htext.read
  · cases henvelope : Envelope.ofJson v with
    | ok e =>
        have hown : e.IsReadIn m.body := ⟨v, hjson, henvelope⟩
        exact .inl ⟨_, e, hown, delivery_isMadeOf queue m e,
          dequeue_minuted_of_task hread hown []⟩
    | error fault =>
        have hstray : m.IsStray := ⟨v, fault, hjson, henvelope⟩
        exact .inr (.inl ⟨hstray, dequeue_minuted_of_stray hread hstray harchive⟩)
  · have hpoll := dequeue_of_unread hread hjson []
    refine .inr (.inr ⟨fault, place, hlimit, hjson, ?_, ?_⟩)
    · exact congrArg Effect.value hpoll
    · exact congrArg Effect.state hpoll

/-- A message that is an empty list. -/
theorem dequeue_settles_of_stray :
    let m : Message := ⟨1, 1, (Json.nest 0).compact⟩
    let s : Queues := ⟨0, [("q", ⟨[⟨1, 0, 0, m.body⟩], [], 1⟩)]⟩
    ∃ s₁ s₂, ((Queues.server.read "q" 60).run s).Answers (some m) s₁ ∧
      ((Queues.server.archive "q" 1).run s₁).Answers () s₂ ∧ Json.IsText m.body ∧
      ((dequeue Queues.server.minuted {} ["q"]).run (s, [])).Answers none
        (s₂, [.read "q" 60 (.ok (some m)), .archive "q" 1 (.ok ())]) := by
  intro m s
  let s₁ : Queues := ⟨0, [("q", ⟨[⟨1, 1, 60, m.body⟩], [], 1⟩)]⟩
  have hread : ((Queues.server.read "q" 60).run s).Answers (some m) s₁ := ⟨rfl, rfl⟩
  have harchive : ((Queues.server.archive "q" 1).run s₁).Answers () _ := ⟨rfl, rfl⟩
  have htext : Json.IsText m.body := Json.isText_nest 0
  have hjson : Json.read m.body = .ok (Json.nest 0) :=
    Json.read_compact (Json.isWhole_nest 0) (Json.isOrdered_nest 0) (by decide)
  obtain ⟨d, e, ⟨v, hown, henvelope⟩, -⟩ | ⟨-, hpoll⟩ | ⟨fault, place, -, hfault, -⟩ :=
    (dequeue_settles Queues.server {}).1 "q" s _ _ m hread harchive htext
  · obtain rfl := Except.ok.inj (hjson.symm.trans hown)
    cases henvelope
  · exact ⟨_, _, hread, harchive, htext, hpoll⟩
  · cases hjson.symm.trans hfault

/-- A message of 128 lists inside one another. The server would archive it, but it is not asked. -/
theorem deep_message_jams :
    let m : Message := ⟨1, 1, (Json.nest 127).compact⟩
    let s : Queues := ⟨0, [("q", ⟨[⟨1, 0, 0, m.body⟩], [], 1⟩)]⟩
    Json.IsText m.body ∧ ∃ s₁ s₂ place,
      ((Queues.server.read "q" 60).run s).Answers (some m) s₁ ∧
      ((Queues.server.archive "q" 1).run s₁).Answers () s₂ ∧
      let poll := (dequeue Queues.server.minuted {} ["q"]).run (s, [])
      poll.value = .error (.storage
        (.column "2" (Json.Error.message ⟨.malformed .tooDeep, some place⟩))) ∧
      poll.state = (s₁, [.read "q" 60 (.ok (some m))]) := by
  intro m s
  have hdepth : 127 < (Json.nest 127).depth := by
    rw [Json.depth_nest]
    decide
  have hread : ((Queues.server.read "q" 60).run s).Answers (some m) _ := ⟨rfl, rfl⟩
  have hbody := Json.isTextOf_compact (Json.isWhole_nest 127) (Json.isOrdered_nest 127)
  have hjams : Jams Queues.server {} (Json.nest 127) := jams_of_deep hdepth
  obtain ⟨⟨place, hvalue⟩, hstate⟩ := hjams "q" [] m s _ hread hbody
  exact ⟨Json.isText_nest 127, _, _, place, hread, ⟨rfl, rfl⟩, hvalue, hstate⟩

end TaskAudit.Messages
