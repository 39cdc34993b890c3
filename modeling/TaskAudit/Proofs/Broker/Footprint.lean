import Mathlib
import TaskAudit.Broker.Messages

/-!
# What the broker asks of its server

A poll of the broker over message queues reads the queues that it is given and archives
messages; a report archives a message or hides it. So what those statements leave alone is
left alone by the broker.
-/
namespace TaskAudit

namespace Action

variable {σ α β : Type} {P : σ → Prop}

/-- Does a property of the state outlast the action? -/
def Keeps (P : σ → Prop) (a : Action σ α) : Prop := ∀ s, P s → P (a.run s).state

theorem keeps_pure (x : α) : Keeps P (pure x : Action σ α) := fun _ h => h

theorem keeps_tell (e : Event) : Keeps P (tell e) := fun _ h => h

theorem Keeps.bind {a : Action σ α} {f : α → Action σ β} (ha : Keeps P a)
    (hf : ∀ x, Keeps P (f x)) : Keeps P (a >>= f) :=
  fun s h => hf _ _ (ha s h)

end Action

namespace Messages

variable {δ : Type} {server : QueueServer δ} {settings : Settings} {P : δ → Prop}

theorem counted_keeps {queue : String} {use : QueueUse} {a : Action δ (Except DatabaseFault Unit)}
    (h : Action.Keeps P a) : Action.Keeps P (counted queue use a) := by
  refine h.bind fun answer => ?_
  cases answer with
  | error fault => exact Action.keeps_pure _
  | ok done => exact (Action.keeps_tell _).bind fun _ => Action.keeps_pure _

theorem readNext_keeps {queue : String}
    (h : Action.Keeps P (server.read queue settings.visibilityTimeout)) :
    Action.Keeps P (readNext server settings queue) := by
  refine h.bind fun answer => ?_
  cases answer with
  | error fault => exact Action.keeps_pure _
  | ok read =>
      cases read with
      | none => exact (Action.keeps_tell _).bind fun _ => Action.keeps_pure _
      | some m =>
          cases hbody : bodyOf m with
          | error fault =>
              simp only [hbody]
              exact Action.keeps_pure _
          | ok body =>
              simp only [hbody]
              exact (Action.keeps_tell _).bind fun _ => Action.keeps_pure _

theorem dequeue_keeps {queues : List String}
    (hread : ∀ queue ∈ queues, Action.Keeps P (server.read queue settings.visibilityTimeout))
    (harchive : ∀ queue msgId, Action.Keeps P (server.archive queue msgId)) :
    Action.Keeps P (dequeue server settings queues) := by
  induction queues with
  | nil => exact Action.keeps_pure _
  | cons queue queues ih =>
      have hrest := ih fun q hq => hread q (List.mem_cons_of_mem queue hq)
      refine (readNext_keeps (hread queue List.mem_cons_self)).bind fun answer => ?_
      cases answer with
      | error e => exact Action.keeps_pure _
      | ok read =>
          cases read with
          | none => exact hrest
          | some found =>
              obtain ⟨m, body⟩ := found
              cases henvelope : Envelope.ofJson body with
              | ok envelope =>
                  simp only [henvelope]
                  exact Action.keeps_pure _
              | error fault =>
                  simp only [henvelope]
                  refine (Action.keeps_tell _).bind fun _ =>
                    (counted_keeps (harchive queue m.msgId)).bind fun answer => ?_
                  cases answer with
                  | error e => exact Action.keeps_pure _
                  | ok done => exact hrest

theorem fail_keeps {receipt : Receipt} {error : String}
    (harchive : ∀ queue msgId, Action.Keeps P (server.archive queue msgId))
    (hhide : ∀ queue msgId delay, Action.Keeps P (server.hide queue msgId delay)) :
    Action.Keeps P (fail server settings receipt error) := by
  unfold fail
  split
  · exact (Action.keeps_tell _).bind fun _ => counted_keeps (harchive _ _)
  · exact counted_keeps (hhide _ _ _)

end Messages

end TaskAudit
