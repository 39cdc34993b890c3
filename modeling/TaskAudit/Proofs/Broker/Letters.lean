import Mathlib
import TaskAudit.Broker.Messages

/-!
# Messages in their queues

What a broker over message queues relies on: a message that is in sight can be read, which
counts, one that is archived is gone, and hiding one changes nothing but whether it is in
sight. A poll of the broker then delivers a message that was in sight, or leaves it as it is,
and a report takes it away or leaves it to be read again.
-/
namespace TaskAudit

/-- A message in its queue: how often it was read, whether it is in sight, and its text. -/
structure Letter where
  reads : Nat
  inSight : Bool
  body : String
  deriving DecidableEq

/-- Does a call succeed with this answer, and leave this state? -/
def Effect.Answers {σ ε α : Type} (e : Effect σ (Except ε α)) (answer : α) (s' : σ) : Prop :=
  e.value = .ok answer ∧ e.state = s'

theorem Effect.Answers.exists_events {σ ε α : Type} {e : Effect σ (Except ε α)} {answer : α}
    {s' : σ} (h : e.Answers answer s') : ∃ events, e = ⟨.ok answer, s', events⟩ := by
  obtain ⟨value, state, events⟩ := e
  obtain ⟨rfl, rfl⟩ := h
  exact ⟨events, rfl⟩

/-- What the statements that are answered do to the messages of a server, whose state is sound.
Counts of reads that are out of range are left open. -/
structure QueueServer.Law {δ : Type} (server : QueueServer δ) where
  IsSound : δ → Prop
  letter? : δ → String → Int → Option Letter
  read_sound : ∀ {s s' queue timeout answer}, IsSound s →
    ((server.read queue timeout).run s).Answers answer s' → IsSound s'
  read_some : ∀ {s s' queue timeout m}, IsSound s →
    ((server.read queue timeout).run s).Answers (some m) s' →
    ∃ l, letter? s queue m.msgId = some l ∧ l.inSight = true ∧ m.body = l.body ∧
      (l.reads + 1 < 2 ^ 31 → m.readCount.toInt = l.reads + 1 ∧
        ∃ inSight, letter? s' queue m.msgId = some { l with reads := l.reads + 1, inSight })
  read_other : ∀ {s s' queue timeout answer queue' msgId'}, IsSound s →
    ((server.read queue timeout).run s).Answers answer s' →
    (∀ m ∈ answer, (queue, m.msgId) ≠ (queue', msgId')) →
    letter? s' queue' msgId' = letter? s queue' msgId'
  archive_sound : ∀ {s s' queue msgId}, IsSound s →
    ((server.archive queue msgId).run s).Answers () s' → IsSound s'
  archive_self : ∀ {s s' queue msgId}, IsSound s →
    ((server.archive queue msgId).run s).Answers () s' → letter? s' queue msgId = none
  archive_other : ∀ {s s' queue msgId queue' msgId'}, IsSound s →
    ((server.archive queue msgId).run s).Answers () s' → (queue, msgId) ≠ (queue', msgId') →
    letter? s' queue' msgId' = letter? s queue' msgId'
  hide_sound : ∀ {s s' queue msgId delay}, IsSound s →
    ((server.hide queue msgId delay).run s).Answers () s' → IsSound s'
  hide_self : ∀ {s s' queue msgId delay}, IsSound s →
    ((server.hide queue msgId delay).run s).Answers () s' →
    ∃ inSight, letter? s' queue msgId = (letter? s queue msgId).map fun l => { l with inSight }

/-- Does a text read as an envelope? -/
def Envelope.IsReadIn (e : Envelope) (body : String) : Prop :=
  ∃ v, Json.read body = .ok v ∧ ofJson v = .ok e

/-- Was the delivery made of the message with a number in a queue? -/
def Delivery.IsOf (d : Delivery) (queue : String) (msgId : Int) : Prop :=
  d.receipt.queue = queue ∧ d.receipt.msgId = msgId

namespace Messages

section

variable {δ : Type} {server : QueueServer δ} {settings : Settings} {s s' : δ} {queue : String}

theorem readNext_answers {answer : Option (Message × Json)}
    (h : ((readNext server settings queue).run s).Answers answer s') :
    (((server.read queue settings.visibilityTimeout).run s).Answers none s' ∧ answer = none) ∨
      ∃ m v, ((server.read queue settings.visibilityTimeout).run s).Answers (some m) s' ∧
        Json.read m.body = .ok v ∧ answer = some (m, v) := by
  obtain ⟨hvalue, hstate⟩ := h
  simp only [readNext, Action.run_bind] at hvalue hstate
  generalize (server.read queue settings.visibilityTimeout).run s = r at hvalue hstate ⊢
  obtain ⟨value, state, events⟩ := r
  cases value with
  | error fault => cases hvalue
  | ok read =>
      cases read with
      | none =>
          obtain rfl := Except.ok.inj hvalue
          exact .inl ⟨⟨rfl, hstate⟩, rfl⟩
      | some m =>
          cases hbody : Json.read m.body with
          | error fault =>
              simp only [bodyOf, hbody, Except.mapError] at hvalue
              cases hvalue
          | ok v =>
              simp only [bodyOf, hbody, Except.mapError] at hvalue hstate
              obtain rfl := Except.ok.inj hvalue
              exact .inr ⟨m, v, ⟨rfl, hstate⟩, hbody, rfl⟩

theorem counted_answers {use : QueueUse} {a : Action δ (Except DatabaseFault Unit)} :
    ((counted queue use a).run s).Answers () s' ↔ (a.run s).Answers () s' := by
  simp only [counted, Action.run_bind, Effect.Answers]
  generalize a.run s = r
  obtain ⟨value, state, events⟩ := r
  cases value with
  | error fault => simp only [Action.run_pure, reduceCtorEq, false_and]
  | ok answer =>
      simp only [countUse, Action.run_bind, Action.run_count, Action.run_pure, true_and]

theorem ack_answers {receipt : Receipt} :
    ((ack server receipt).run s).Answers () s' ↔
      ((server.archive receipt.queue receipt.msgId).run s).Answers () s' :=
  counted_answers

theorem fail_answers {receipt : Receipt} {error : String} :
    ((fail server settings receipt error).run s).Answers () s' ↔
      if receipt.maxRetry ≤ receipt.retryCount then
        ((server.archive receipt.queue receipt.msgId).run s).Answers () s'
      else ((server.hide receipt.queue receipt.msgId settings.retryDelay).run s).Answers () s' := by
  by_cases hlast : receipt.maxRetry ≤ receipt.retryCount
  · rw [fail, if_pos hlast, if_pos hlast]
    exact ack_answers
  · rw [fail, if_neg hlast, if_neg hlast]
    exact counted_answers

/-- A poll that is answered: the first queue has nothing, its message is delivered, or its
message has no envelope and is archived. -/
theorem dequeue_cons_answers {queues : List String} {answer : Option Delivery}
    (h : ((dequeue server settings (queue :: queues)).run s).Answers answer s') :
    (∃ s₁, ((server.read queue settings.visibilityTimeout).run s).Answers none s₁ ∧
        ((dequeue server settings queues).run s₁).Answers answer s') ∨
      ∃ m v s₁, ((server.read queue settings.visibilityTimeout).run s).Answers (some m) s₁ ∧
        Json.read m.body = .ok v ∧
        ((∃ envelope, Envelope.ofJson v = .ok envelope ∧
            answer = some (delivery queue m envelope) ∧ s' = s₁) ∨
          ∃ fault s₂, Envelope.ofJson v = .error fault ∧
            ((server.archive queue m.msgId).run s₁).Answers () s₂ ∧
              ((dequeue server settings queues).run s₂).Answers answer s') := by
  obtain ⟨hvalue, hstate⟩ := h
  simp only [dequeue, Action.run_bind] at hvalue hstate
  cases hread : ((readNext server settings queue).run s).value with
  | error fault =>
      simp only [hread, Action.run_pure, reduceCtorEq] at hvalue
  | ok read =>
      simp only [hread] at hvalue hstate
      rcases readNext_answers ⟨hread, rfl⟩ with ⟨hnone, rfl⟩ | ⟨m, v, hsome, hjson, rfl⟩
      · exact .inl ⟨_, hnone, hvalue, hstate⟩
      · refine .inr ⟨m, v, _, hsome, hjson, ?_⟩
        cases henvelope : Envelope.ofJson v with
        | ok envelope =>
            simp only [henvelope, Action.run_pure, Except.ok.injEq] at hvalue hstate
            exact .inl ⟨envelope, rfl, hvalue.symm, hstate.symm⟩
        | error fault =>
            simp only [henvelope, Action.run_bind, Action.run_note] at hvalue hstate
            refine .inr ⟨fault, ?_⟩
            generalize ((readNext server settings queue).run s).state = s₁ at hvalue hstate ⊢
            cases harchive : ((archive server queue m.msgId).run s₁).value with
            | error fault =>
                simp only [harchive, Action.run_pure, reduceCtorEq] at hvalue
            | ok done =>
                simp only [harchive] at hvalue hstate
                exact ⟨_, rfl, counted_answers.mp ⟨harchive, rfl⟩, hvalue, hstate⟩

theorem dequeue_of_read {m : Message} {e : Envelope}
    (hread : ((server.read queue settings.visibilityTimeout).run s).Answers (some m) s')
    (hbody : e.IsReadIn m.body) (queues : List String) :
    ((dequeue server settings (queue :: queues)).run s).Answers (some (delivery queue m e)) s' := by
  obtain ⟨v, hjson, henvelope⟩ := hbody
  obtain ⟨events, hrun⟩ := hread.exists_events
  simp only [dequeue, readNext, hrun, bodyOf, hjson, Except.mapError, countUse, Action.run_bind,
    Action.run_count, Action.run_pure, henvelope, Effect.Answers, and_self]

end

section

variable {δ : Type} {server : QueueServer δ} (law : server.Law) {settings : Settings}
  {s s' : δ} {queue : String} {msgId : Int} {envelope : Envelope}

/-- What a poll that is answered does to a message with an envelope: it delivers the message,
which was in sight, and that counts, or it delivers another one or none. -/
inductive Polls (queue : String) (msgId : Int) (envelope : Envelope) :
    Option Letter → Option Letter → Option Delivery → Prop where
  | left {letter answer} (hother : ∀ d ∈ answer, ¬ Delivery.IsOf d queue msgId) :
    Polls queue msgId envelope letter letter answer
  | handed {l : Letter} {after : Option Letter} {m : Message} (hsight : l.inSight = true)
    (hid : m.msgId = msgId)
    (hreads : l.reads + 1 < 2 ^ 31 → m.readCount.toInt = l.reads + 1 ∧
      ∃ inSight, after = some { l with reads := l.reads + 1, inSight }) :
    Polls queue msgId envelope (some l) after (some (delivery queue m envelope))

theorem Polls.eq_of_other {letter after : Option Letter} {answer : Option Delivery}
    (h : Polls queue msgId envelope letter after answer)
    (hother : ∀ d ∈ answer, ¬ Delivery.IsOf d queue msgId) : after = letter := by
  cases h with
  | left _ => rfl
  | handed _ hid _ => exact absurd ⟨rfl, hid⟩ (hother _ rfl)

theorem Polls.of_own {letter after : Option Letter} {d : Delivery}
    (h : Polls queue msgId envelope letter after (some d)) (hof : d.IsOf queue msgId) :
    ∃ l m, d = delivery queue m envelope ∧ letter = some l ∧ l.inSight = true ∧
      m.msgId = msgId ∧ (l.reads + 1 < 2 ^ 31 → m.readCount.toInt = l.reads + 1 ∧
        ∃ inSight, after = some { l with reads := l.reads + 1, inSight }) := by
  cases h with
  | left hother => exact absurd hof (hother d rfl)
  | handed hsight hid hreads => exact ⟨_, _, rfl, rfl, hsight, hid, hreads⟩

theorem dequeue_polls (hs : law.IsSound s)
    (hbody : ∀ l ∈ law.letter? s queue msgId, envelope.IsReadIn l.body) {queues : List String}
    {answer : Option Delivery}
    (h : ((dequeue server settings queues).run s).Answers answer s') :
    law.IsSound s' ∧ Polls queue msgId envelope (law.letter? s queue msgId)
      (law.letter? s' queue msgId) answer := by
  induction queues generalizing s with
  | nil =>
      obtain ⟨hvalue, rfl⟩ := h
      obtain rfl : none = answer := Except.ok.inj hvalue
      exact ⟨hs, .left nofun⟩
  | cons q queues ih =>
      rcases dequeue_cons_answers h with ⟨s₁, hread, hrest⟩ | ⟨m, v, s₁, hread, hjson, hcases⟩
      · have hsame : law.letter? s₁ queue msgId = law.letter? s queue msgId :=
          law.read_other hs hread nofun
        have hend := ih (law.read_sound hs hread) (by rwa [hsame]) hrest
        rwa [hsame] at hend
      · have hsound : law.IsSound s₁ := law.read_sound hs hread
        by_cases hours : (q, m.msgId) = (queue, msgId)
        · -- a message with an envelope is delivered, never archived
          obtain ⟨rfl, hid⟩ := Prod.mk.inj hours
          obtain ⟨l, hletter, hsight, hsame, hreads⟩ := law.read_some hs hread
          rw [hid] at hletter hreads
          obtain ⟨v', hjson', henvelope⟩ := hbody l hletter
          rw [hsame, hjson'] at hjson
          obtain rfl := Except.ok.inj hjson
          rcases hcases with ⟨own, hown, rfl, rfl⟩ | ⟨fault, _, hfault, -⟩
          · obtain rfl : envelope = own := Except.ok.inj (henvelope.symm.trans hown)
            refine ⟨hsound, ?_⟩
            rw [hletter]
            exact .handed hsight hid hreads
          · rw [henvelope] at hfault
            cases hfault
        · have hsame : law.letter? s₁ queue msgId = law.letter? s queue msgId :=
            law.read_other hs hread fun m' hm' => by rwa [← Option.some.inj hm']
          rcases hcases with ⟨own, hown, rfl, rfl⟩ | ⟨fault, s₂, -, harchive, hrest⟩
          · refine ⟨hsound, ?_⟩
            rw [hsame]
            refine .left ?_
            rintro d ⟨⟩ ⟨rfl, rfl⟩
            exact hours rfl
          · have hkept := (law.archive_other hsound harchive hours).trans hsame
            have hend := ih (law.archive_sound hsound harchive) (by rwa [hkept]) hrest
            rwa [hkept] at hend

theorem ack_letter (hs : law.IsSound s) {receipt : Receipt}
    (h : ((ack server receipt).run s).Answers () s') :
    law.IsSound s' ∧ law.letter? s' receipt.queue receipt.msgId = none := by
  rw [ack_answers] at h
  exact ⟨law.archive_sound hs h, law.archive_self hs h⟩

theorem fail_letter (hs : law.IsSound s) {receipt : Receipt} {error : String}
    (h : ((fail server settings receipt error).run s).Answers () s') :
    law.IsSound s' ∧
      (receipt.maxRetry ≤ receipt.retryCount ∧
          law.letter? s' receipt.queue receipt.msgId = none ∨
        receipt.retryCount < receipt.maxRetry ∧ ∃ inSight,
          law.letter? s' receipt.queue receipt.msgId =
            (law.letter? s receipt.queue receipt.msgId).map fun l => { l with inSight }) := by
  rw [fail_answers] at h
  by_cases hlast : receipt.maxRetry ≤ receipt.retryCount
  · rw [if_pos hlast] at h
    exact ⟨law.archive_sound hs h, .inl ⟨hlast, law.archive_self hs h⟩⟩
  · rw [if_neg hlast] at h
    exact ⟨law.hide_sound hs h, .inr ⟨UInt32.not_le.mp hlast, law.hide_self hs h⟩⟩

end

end Messages

end TaskAudit
