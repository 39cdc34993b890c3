import Mathlib
import TaskAudit.Proofs.Broker.Letters

/-!
# What a poll asks of its server

A server can be made to write down every statement that it is sent, with its answer; the broker
does not notice. What a poll writes down is one exchange after another: a queue is read, and if
a message without an envelope came out of it, that message is archived. So a message that was
read is delivered or archived before anything else happens, and the first statement that fails is
the last one.
-/
namespace TaskAudit

/-- A statement with its answer. -/
inductive Exchange where
  | create (queue : String) (answer : Except DatabaseFault Unit)
  | send (queue body : String) (delay : Int) (answer : Except DatabaseFault Unit)
  | read (queue : String) (outOfSight : Int) (answer : Except DatabaseFault (Option Message))
  | archive (queue : String) (msgId : Int) (answer : Except DatabaseFault Unit)
  | hide (queue : String) (msgId delay : Int) (answer : Except DatabaseFault Unit)
  | close
  deriving DecidableEq

namespace Exchange

def readQueue? : Exchange → Option String
  | read queue .. => some queue
  | _ => none

/-- Is the statement one that a poll cannot go on from? A message counts as read only if its text
is JSON. -/
inductive Fails : Exchange → DatabaseFault → Prop where
  | read {queue outOfSight fault} : Fails (read queue outOfSight (.error fault)) fault
  | body {queue outOfSight m fault} (h : Messages.bodyOf m = .error fault) :
    Fails (read queue outOfSight (.ok (some m))) fault
  | archive {queue msgId fault} : Fails (archive queue msgId (.error fault)) fault

end Exchange

section

variable {δ α : Type}

/-- The effect on a server that writes down what passes, if this is what it has written. -/
def Effect.logged (e : Effect δ α) (log : List Exchange) : Effect (δ × List Exchange) α :=
  ⟨e.value, (e.state, log), e.events⟩

/-- The action, with its answer written down. -/
def Action.noted (a : Action δ α) (entry : α → Exchange) : Action (δ × List Exchange) α :=
  fun s => (a.run s.1).logged (s.2 ++ [entry (a.run s.1).value])

/-- A server that writes down what passes. -/
def QueueServer.minuted (server : QueueServer δ) : QueueServer (δ × List Exchange) where
  create queue := (server.create queue).noted (.create queue)
  send queue body delay := (server.send queue body delay).noted (.send queue body delay)
  read queue outOfSight := (server.read queue outOfSight).noted (.read queue outOfSight)
  archive queue msgId := (server.archive queue msgId).noted (.archive queue msgId)
  hide queue msgId delay := (server.hide queue msgId delay).noted (.hide queue msgId delay)
  close := server.close.noted fun _ => .close

@[simp] theorem Action.run_noted (a : Action δ α) (entry : α → Exchange) (s : δ)
    (log : List Exchange) :
    (a.noted entry).run (s, log) = (a.run s).logged (log ++ [entry (a.run s).value]) := rfl

end

/-- Does the message carry a task? -/
def Message.IsTask (m : Message) : Prop := ∃ e : Envelope, e.IsReadIn m.body

/-- Is the text of the message JSON, but no envelope? -/
def Message.IsStray (m : Message) : Prop :=
  ∃ v fault, Json.read m.body = .ok v ∧ Envelope.ofJson v = .error fault

theorem Message.IsStray.not_isTask {m : Message} (h : m.IsStray) : ¬ m.IsTask := by
  rintro ⟨e, v, hjson, henvelope⟩
  obtain ⟨v', fault, hjson', hfault⟩ := h
  obtain rfl := Except.ok.inj (hjson.symm.trans hjson')
  rw [henvelope] at hfault
  cases hfault

theorem Envelope.IsReadIn.unique {e e' : Envelope} {body : String} (h : e.IsReadIn body)
    (h' : e'.IsReadIn body) : e = e' := by
  obtain ⟨v, hjson, henvelope⟩ := h
  obtain ⟨v', hjson', henvelope'⟩ := h'
  obtain rfl := Except.ok.inj (hjson.symm.trans hjson')
  exact Except.ok.inj (henvelope.symm.trans henvelope')

namespace Exchange

theorem Fails.unique {x : Exchange} {fault fault' : DatabaseFault} (h : x.Fails fault)
    (h' : x.Fails fault') : fault = fault' := by
  cases h with
  | read => cases h' with | read => rfl
  | body hbody => cases h' with | body hbody' => exact Except.error.inj (hbody.symm.trans hbody')
  | archive => cases h' with | archive => rfl

/-- A message whose text is JSON was read. -/
theorem Fails.not_read {queue : String} {outOfSight : Int} {m : Message} {fault : DatabaseFault}
    (h : (Exchange.read queue outOfSight (.ok (some m))).Fails fault) (v : Json) :
    Json.read m.body ≠ .ok v := by
  intro hjson
  cases h with
  | body hbody =>
      rw [Messages.bodyOf, hjson] at hbody
      cases hbody

end Exchange

namespace Messages

section

variable {δ : Type} {server : QueueServer δ} {settings : Settings} {s : δ} {queue : String}
  {log : List Exchange}

theorem counted_noted {use : QueueUse} {a : Action δ (Except DatabaseFault Unit)}
    {entry : Except DatabaseFault Unit → Exchange} :
    (counted queue use (a.noted entry)).run (s, log) =
      ((counted queue use a).run s).logged (log ++ [entry (a.run s).value]) := by
  simp only [counted, Action.run_bind, Action.run_noted, Effect.logged]
  generalize a.run s = r
  obtain ⟨value, state, events⟩ := r
  cases value with
  | error fault => rfl
  | ok done => rfl

theorem archive_minuted {msgId : Int} :
    (archive server.minuted queue msgId).run (s, log) =
      ((archive server queue msgId).run s).logged
        (log ++ [.archive queue msgId ((server.archive queue msgId).run s).value]) :=
  counted_noted

theorem makeQueue_minuted_of_ok
    (h : ((makeQueue server.minuted queue).run (s, log)).value = .ok ()) :
    ((makeQueue server.minuted queue).run (s, log)).state.2 = log ++ [.create queue (.ok ())] := by
  simp only [makeQueue, counted, QueueServer.minuted, Action.run_bind, Action.run_noted,
    Effect.logged] at h ⊢
  cases hmade : ((server.create queue).run s).value with
  | error fault => simp [hmade] at h
  | ok done => rfl

theorem makeQueue_minuted_of_error {fault : Error}
    (h : ((makeQueue server.minuted queue).run (s, log)).value = .error fault) :
    ∃ cause, fault = .storage cause ∧
      ((makeQueue server.minuted queue).run (s, log)).state.2 =
        log ++ [.create queue (.error cause)] := by
  simp only [makeQueue, counted, QueueServer.minuted, Action.run_bind, Action.run_noted,
    Effect.logged] at h ⊢
  cases hmade : ((server.create queue).run s).value with
  | error cause =>
      simp only [hmade, Action.run_pure, Except.error.injEq] at h
      exact ⟨cause, h.symm, rfl⟩
  | ok done => simp [hmade] at h

theorem readNext_minuted :
    (readNext server.minuted settings queue).run (s, log) =
      ((readNext server settings queue).run s).logged
        (log ++ [.read queue settings.visibilityTimeout
          ((server.read queue settings.visibilityTimeout).run s).value]) := by
  simp only [readNext, QueueServer.minuted, Action.run_bind, Action.run_noted, Effect.logged]
  generalize (server.read queue settings.visibilityTimeout).run s = r
  obtain ⟨value, state, events⟩ := r
  cases value with
  | error fault => rfl
  | ok read =>
      cases read with
      | none => rfl
      | some m => cases hbody : bodyOf m <;> simp only [hbody] <;> rfl

theorem bodyOf_of_read {m : Message} {v : Json} (h : Json.read m.body = .ok v) :
    bodyOf m = .ok v := by
  rw [bodyOf, h]
  rfl

theorem readNext_cases (server : QueueServer δ) (settings : Settings) (queue : String) (s : δ) :
    let answer := ((server.read queue settings.visibilityTimeout).run s).value
    let value := ((readNext server settings queue).run s).value
    (∃ fault, (Exchange.read queue settings.visibilityTimeout answer).Fails fault ∧
        value = .error (.storage fault)) ∨
      answer = .ok none ∧ value = .ok none ∨
        ∃ m v, answer = .ok (some m) ∧ Json.read m.body = .ok v ∧ value = .ok (some (m, v)) := by
  simp only [readNext, Action.run_bind]
  generalize (server.read queue settings.visibilityTimeout).run s = r
  obtain ⟨value, state, events⟩ := r
  cases value with
  | error fault => exact .inl ⟨fault, .read, rfl⟩
  | ok read =>
      cases read with
      | none => exact .inr (.inl ⟨rfl, rfl⟩)
      | some m =>
          cases hjson : Json.read m.body with
          | error fault =>
              have hbody : bodyOf m = .error (.column "2" fault.message) := by
                rw [bodyOf, hjson]
                rfl
              simp only [hbody]
              exact .inl ⟨_, .body hbody, rfl⟩
          | ok v =>
              simp only [bodyOf_of_read hjson]
              exact .inr (.inr ⟨m, v, rfl, hjson, rfl⟩)

theorem archive_cases (server : QueueServer δ) (queue : String) (msgId : Int) (s : δ) :
    let answer := ((server.archive queue msgId).run s).value
    let value := ((archive server queue msgId).run s).value
    (∃ fault, answer = .error fault ∧ value = .error (.storage fault)) ∨
      answer = .ok () ∧ value = .ok () := by
  simp only [archive, counted, Action.run_bind]
  generalize (server.archive queue msgId).run s = r
  obtain ⟨value, state, events⟩ := r
  cases value with
  | error fault => exact .inl ⟨fault, rfl, rfl⟩
  | ok done => exact .inr ⟨rfl, rfl⟩

end

/-- What a poll of some queues can write down, and how it ends. -/
inductive Poll (settings : Settings) :
    List String → List Exchange → Except Error (Option Delivery) → Prop where
  | finished : Poll settings [] [] (.ok none)
  | unread {queue queues answer fault}
    (h : (Exchange.read queue settings.visibilityTimeout answer).Fails fault) :
    Poll settings (queue :: queues) [.read queue settings.visibilityTimeout answer]
      (.error (.storage fault))
  | empty {queue queues log value} (h : Poll settings queues log value) :
    Poll settings (queue :: queues)
      (.read queue settings.visibilityTimeout (.ok none) :: log) value
  | delivered {queue queues m} {e : Envelope} (h : e.IsReadIn m.body) :
    Poll settings (queue :: queues) [.read queue settings.visibilityTimeout (.ok (some m))]
      (.ok (some (delivery queue m e)))
  | kept {queue queues} {m : Message} {fault} (hstray : m.IsStray) :
    Poll settings (queue :: queues)
      [.read queue settings.visibilityTimeout (.ok (some m)),
        .archive queue m.msgId (.error fault)] (.error (.storage fault))
  | dropped {queue queues} {m : Message} {log value} (hstray : m.IsStray)
    (h : Poll settings queues log value) :
    Poll settings (queue :: queues)
      (.read queue settings.visibilityTimeout (.ok (some m)) ::
        .archive queue m.msgId (.ok ()) :: log) value

/-- A poll does the same on a server that writes down what passes. -/
theorem dequeue_minuted {δ : Type} (server : QueueServer δ) (settings : Settings)
    (queues : List String) (s : δ) (before : List Exchange) :
    ∃ log, Poll settings queues log ((dequeue server settings queues).run s).value ∧
      (dequeue server.minuted settings queues).run (s, before) =
        ((dequeue server settings queues).run s).logged (before ++ log) := by
  -- What a queue adds to the log, and how the poll goes on, is one way in which a poll can begin.
  induction queues generalizing s before with
  | nil => exact ⟨[], .finished, by rw [List.append_nil]; rfl⟩
  | cons queue queues ih =>
      simp only [dequeue, Action.run_bind, readNext_minuted, Effect.logged]
      have hcases := readNext_cases server settings queue s
      generalize ((server.read queue settings.visibilityTimeout).run s).value = read at hcases ⊢
      generalize (readNext server settings queue).run s = r at hcases ⊢
      obtain ⟨value, state, events⟩ := r
      rcases hcases with ⟨fault, hfails, rfl⟩ | ⟨rfl, rfl⟩ | ⟨m, v, rfl, hjson, rfl⟩
      · exact ⟨_, .unread hfails, rfl⟩
      · obtain ⟨log, hpoll, hrun⟩ :=
          ih state (before ++ [.read queue settings.visibilityTimeout (.ok none)])
        refine ⟨_, .empty hpoll, ?_⟩
        rw [hrun, Effect.logged]
        simp
      · cases henvelope : Envelope.ofJson v with
        | ok e =>
            simp only [henvelope]
            exact ⟨_, .delivered ⟨v, hjson, henvelope⟩, rfl⟩
        | error fault =>
            have hstray : m.IsStray := ⟨v, fault, hjson, henvelope⟩
            simp only [henvelope, Action.run_bind, Action.run_note, archive_minuted, Effect.logged]
            have hcases := archive_cases server queue m.msgId state
            generalize ((server.archive queue m.msgId).run state).value = answer at hcases ⊢
            generalize (archive server queue m.msgId).run state = r at hcases ⊢
            obtain ⟨value, state', events'⟩ := r
            rcases hcases with ⟨fault, rfl, rfl⟩ | ⟨rfl, rfl⟩
            · exact ⟨_, .kept hstray, by simp⟩
            · obtain ⟨log, hpoll, hrun⟩ :=
                ih state' (before ++ [.read queue settings.visibilityTimeout (.ok (some m))] ++
                  [.archive queue m.msgId (.ok ())])
              refine ⟨_, .dropped hstray hpoll, ?_⟩
              rw [hrun, Effect.logged]
              simp

/-- What an exchange of a poll is, between those before and those after it. -/
inductive Stands (settings : Settings) (value : Except Error (Option Delivery))
    (before after : List Exchange) : Exchange → Prop where
  | unread {queue answer fault}
    (h : (Exchange.read queue settings.visibilityTimeout answer).Fails fault)
    (hlast : after = []) (hvalue : value = .error (.storage fault)) :
    Stands settings value before after (.read queue settings.visibilityTimeout answer)
  | empty {queue} :
    Stands settings value before after (.read queue settings.visibilityTimeout (.ok none))
  | delivered {queue m} {e : Envelope} (h : e.IsReadIn m.body) (hlast : after = [])
    (hvalue : value = .ok (some (delivery queue m e))) :
    Stands settings value before after (.read queue settings.visibilityTimeout (.ok (some m)))
  | stray {queue m answer rest} (h : m.IsStray)
    (hnext : after = .archive queue m.msgId answer :: rest) :
    Stands settings value before after (.read queue settings.visibilityTimeout (.ok (some m)))
  | archived {queue msgId m earlier} (h : m.IsStray) (hid : m.msgId = msgId)
    (hlast : before = earlier ++ [.read queue settings.visibilityTimeout (.ok (some m))]) :
    Stands settings value before after (.archive queue msgId (.ok ()))
  | kept {queue msgId m fault earlier} (h : m.IsStray) (hid : m.msgId = msgId)
    (hlast : before = earlier ++ [.read queue settings.visibilityTimeout (.ok (some m))])
    (hend : after = []) (hvalue : value = .error (.storage fault)) :
    Stands settings value before after (.archive queue msgId (.error fault))

section

variable {settings : Settings} {queues : List String} {log before after : List Exchange}
  {value : Except Error (Option Delivery)} {x : Exchange}

theorem Stands.append (h : Stands settings value before after x) (first : List Exchange) :
    Stands settings value (first ++ before) after x := by
  cases h with
  | unread h hlast hvalue => exact .unread h hlast hvalue
  | empty => exact .empty
  | delivered h hlast hvalue => exact .delivered h hlast hvalue
  | stray h hnext => exact .stray h hnext
  | archived h hid hlast => exact .archived h hid (by rw [hlast, List.append_assoc])
  | kept h hid hlast hend hvalue =>
      exact .kept h hid (by rw [hlast, List.append_assoc]) hend hvalue

theorem Stands.cons (first : List Exchange) {y : Exchange}
    (hnext : Stands settings value first log y)
    (hrest : ∀ before', log = before' ++ x :: after →
      Stands settings value (first ++ y :: before') after x)
    (hlog : y :: log = before ++ x :: after) : Stands settings value (first ++ before) after x := by
  rcases List.cons_eq_append_iff.mp hlog with ⟨rfl, hhead⟩ | ⟨before', rfl, htail⟩
  · obtain ⟨rfl, rfl⟩ := List.cons.inj hhead
    rw [List.append_nil]
    exact hnext
  · exact hrest before' htail

theorem Poll.stands (h : Poll settings queues log value) (hlog : log = before ++ x :: after) :
    Stands settings value before after x := by
  induction h generalizing before with
  | finished => simp at hlog
  | unread h => exact Stands.cons [] (.unread h rfl rfl) (by simp) hlog
  | empty h ih => exact Stands.cons [] .empty (fun _ hrest => (ih hrest).append [_]) hlog
  | delivered h => exact Stands.cons [] (.delivered h rfl rfl) (by simp) hlog
  | kept hstray =>
      refine Stands.cons [] (.stray hstray rfl) (fun _ hrest => ?_) hlog
      exact Stands.cons [_] (.kept hstray rfl (List.nil_append _).symm rfl rfl) (by simp) hrest
  | dropped hstray h ih =>
      refine Stands.cons [] (.stray hstray rfl) (fun _ hrest => ?_) hlog
      refine Stands.cons [_] (.archived hstray rfl (List.nil_append _).symm) (fun _ hrest => ?_) hrest
      exact (ih hrest).append [_, _]

theorem Poll.reads (h : Poll settings queues log value) :
    log.filterMap Exchange.readQueue? <+: queues := by
  induction h with
  | finished => exact List.prefix_rfl
  | unread h => exact List.prefix_append [_] _
  | empty h ih => exact List.prefix_cons_inj _ |>.mpr ih
  | delivered h => exact List.prefix_append [_] _
  | kept hstray => exact List.prefix_append [_] _
  | dropped hstray h ih => exact List.prefix_cons_inj _ |>.mpr ih

theorem Poll.reads_all (h : Poll settings queues log (.ok none)) :
    log.filterMap Exchange.readQueue? = queues := by
  generalize hvalue : Except.ok none = value at h
  induction h with
  | finished => rfl
  | unread h => cases hvalue
  | empty h ih => exact congrArg (List.cons _) (ih hvalue)
  | delivered h => cases hvalue
  | kept hstray => cases hvalue
  | dropped hstray h ih => exact congrArg (List.cons _) (ih hvalue)

theorem Poll.delivered_last {d : Delivery} (h : Poll settings queues log (.ok (some d))) :
    ∃ before queue m, ∃ e : Envelope,
      log = before ++ [.read queue settings.visibilityTimeout (.ok (some m))] ∧
        e.IsReadIn m.body ∧ d = delivery queue m e := by
  generalize hvalue : Except.ok (some d) = value at h
  induction h with
  | finished => cases hvalue
  | unread h => cases hvalue
  | empty h ih =>
      obtain ⟨before, queue, m, e, rfl, hread, rfl⟩ := ih hvalue
      exact ⟨_ :: before, queue, m, e, rfl, hread, rfl⟩
  | delivered h =>
      obtain rfl := Option.some.inj (Except.ok.inj hvalue)
      exact ⟨[], _, _, _, rfl, h, rfl⟩
  | kept hstray => cases hvalue
  | dropped hstray h ih =>
      obtain ⟨before, queue, m, e, rfl, hread, rfl⟩ := ih hvalue
      exact ⟨_ :: _ :: before, queue, m, e, rfl, hread, rfl⟩

theorem Poll.failed_last {e : Error} (h : Poll settings queues log (.error e)) :
    ∃ before x fault, log = before ++ [x] ∧ x.Fails fault ∧ e = .storage fault := by
  generalize hvalue : Except.error e = value at h
  induction h with
  | finished => cases hvalue
  | unread h => exact ⟨[], _, _, rfl, h, Except.error.inj hvalue⟩
  | empty h ih =>
      obtain ⟨before, x, fault, rfl, hfails, rfl⟩ := ih hvalue
      exact ⟨_ :: before, x, fault, rfl, hfails, rfl⟩
  | delivered h => cases hvalue
  | kept hstray => exact ⟨[_], _, _, rfl, .archive, Except.error.inj hvalue⟩
  | dropped hstray h ih =>
      obtain ⟨before, x, fault, rfl, hfails, rfl⟩ := ih hvalue
      exact ⟨_ :: _ :: before, x, fault, rfl, hfails, rfl⟩

end

end Messages

/-- Was the delivery made of a message of the queue and of the envelope in it? -/
structure Delivery.IsMadeOf (d : Delivery) (queue : String) (m : Message) (e : Envelope) :
    Prop where
  task : d.task = ⟨e.taskType, e.payload.compact.toUTF8⟩
  receipt : d.receipt.queue = queue ∧ d.receipt.msgId = m.msgId
  context : d.context.taskId = e.taskId ∧ d.context.queue = queue
  maxRetry : d.context.maxRetry = e.maxRetry ∧ d.receipt.maxRetry = e.maxRetry
  retryCount : d.context.retryCount = d.receipt.retryCount ∧
    (d.receipt.retryCount.toNat : Int) = max (m.readCount.toInt - 1) 0

namespace Messages

/-- The count of reads less one, or zero; it always fits. -/
theorem toNat_retryCount (m : Message) :
    ((retryCount m).toNat : Int) = max (m.readCount.toInt - 1) 0 := by
  have hlt : m.readCount.toInt < 2 ^ 31 := m.readCount.toInt_lt
  have hfit : (m.readCount.toInt - 1).toNat < 2 ^ 32 := by omega
  rw [retryCount, UInt32.toNat_ofNat_of_lt' hfit]
  omega

theorem delivery_isMadeOf (queue : String) (m : Message) (e : Envelope) :
    (delivery queue m e).IsMadeOf queue m e where
  task := rfl
  receipt := ⟨rfl, rfl⟩
  context := ⟨rfl, rfl⟩
  maxRetry := ⟨rfl, rfl⟩
  retryCount := ⟨rfl, toNat_retryCount m⟩

/-- Does what a poll wrote down, and how it ended, account for every message that it read? -/
structure LosesNothing (settings : Settings) (queues : List String) (log : List Exchange)
    (value : Except Error (Option Delivery)) : Prop where
  /-- The queues are read in their order, for one message each. -/
  reads : log.filterMap Exchange.readQueue? <+: queues
  /-- Apart from that, only the message just read is archived, and only if it has no envelope. -/
  asks : ∀ before x after, log = before ++ x :: after →
    (∃ queue answer, x = .read queue settings.visibilityTimeout answer) ∨
      ∃ earlier queue, ∃ m : Message, ∃ answer,
        before = earlier ++ [.read queue settings.visibilityTimeout (.ok (some m))] ∧
          x = .archive queue m.msgId answer ∧ m.IsStray
  /-- The first message with an envelope ends the poll and is delivered. -/
  delivers : ∀ before queue m after, ∀ e : Envelope,
    log = before ++ .read queue settings.visibilityTimeout (.ok (some m)) :: after →
      e.IsReadIn m.body → after = [] ∧ ∃ d, value = .ok (some d) ∧ d.IsMadeOf queue m e
  /-- If the poll is answered, a message that was read is delivered or was archived at once. -/
  settles : ∀ answer, value = .ok answer → ∀ before queue m after,
    log = before ++ .read queue settings.visibilityTimeout (.ok (some m)) :: after →
      (after = [] ∧ ∃ e : Envelope, ∃ d, e.IsReadIn m.body ∧ answer = some d ∧
          d.IsMadeOf queue m e) ∨
        ∃ rest, after = .archive queue m.msgId (.ok ()) :: rest
  /-- What is delivered was read last. -/
  delivered : ∀ d, value = .ok (some d) → ∃ before queue m, ∃ e : Envelope,
    log = before ++ [.read queue settings.visibilityTimeout (.ok (some m))] ∧
      e.IsReadIn m.body ∧ d.IsMadeOf queue m e
  /-- The poll answers with nothing only if it has read all the queues. -/
  nothing : value = .ok none → log.filterMap Exchange.readQueue? = queues
  /-- A statement that fails is the last; the poll fails, and no message that it read has an
  envelope. -/
  fails : ∀ before x after fault, log = before ++ x :: after → x.Fails fault →
    after = [] ∧ value = .error (.storage fault) ∧
      ∀ queue outOfSight m, .read queue outOfSight (.ok (some m)) ∈ log → ¬ m.IsTask
  /-- The poll fails for no other reason. -/
  failed : ∀ e, value = .error e →
    ∃ before x fault, log = before ++ [x] ∧ x.Fails fault ∧ e = .storage fault

section

variable {settings : Settings} {queues : List String} {log : List Exchange}
  {value : Except Error (Option Delivery)}

theorem Poll.of_task (h : Poll settings queues log value) {before after : List Exchange}
    {queue : String} {outOfSight : Int} {m : Message} {e : Envelope}
    (hlog : log = before ++ .read queue outOfSight (.ok (some m)) :: after)
    (hread : e.IsReadIn m.body) : after = [] ∧ value = .ok (some (delivery queue m e)) := by
  cases h.stands hlog with
  | unread hfails _ _ =>
      obtain ⟨v, hjson, -⟩ := hread
      exact absurd hjson (hfails.not_read v)
  | delivered hown hlast hvalue =>
      obtain rfl := hown.unique hread
      exact ⟨hlast, hvalue⟩
  | stray hstray _ => exact absurd ⟨e, hread⟩ hstray.not_isTask

theorem Poll.of_fails (h : Poll settings queues log value) {before after : List Exchange}
    {x : Exchange} {fault : DatabaseFault} (hlog : log = before ++ x :: after)
    (hfails : x.Fails fault) : after = [] ∧ value = .error (.storage fault) := by
  cases h.stands hlog with
  | unread hown hlast hvalue =>
      obtain rfl := hown.unique hfails
      exact ⟨hlast, hvalue⟩
  | empty => cases hfails
  | delivered hread _ _ =>
      obtain ⟨v, hjson, -⟩ := hread
      exact absurd hjson (hfails.not_read v)
  | stray hstray _ =>
      obtain ⟨v, -, hjson, -⟩ := hstray
      exact absurd hjson (hfails.not_read v)
  | archived _ _ _ => cases hfails
  | kept _ _ _ hend hvalue =>
      obtain rfl := Exchange.Fails.archive.unique hfails
      exact ⟨hend, hvalue⟩

/-- What a poll writes down accounts for every message that it read. -/
theorem Poll.losesNothing (h : Poll settings queues log value) :
    LosesNothing settings queues log value where
  reads := h.reads
  asks before x after hlog := by
    cases h.stands hlog with
    | unread _ _ _ => exact .inl ⟨_, _, rfl⟩
    | empty => exact .inl ⟨_, _, rfl⟩
    | delivered _ _ _ => exact .inl ⟨_, _, rfl⟩
    | stray _ _ => exact .inl ⟨_, _, rfl⟩
    | archived hstray hid hlast => exact .inr ⟨_, _, _, _, hlast, by rw [hid], hstray⟩
    | kept hstray hid hlast _ _ => exact .inr ⟨_, _, _, _, hlast, by rw [hid], hstray⟩
  delivers before queue m after e hlog hread := by
    obtain ⟨hlast, hvalue⟩ := h.of_task hlog hread
    exact ⟨hlast, _, hvalue, delivery_isMadeOf queue m e⟩
  settles answer hanswer before queue m after hlog := by
    subst hanswer
    cases h.stands hlog with
    | unread _ _ hvalue => cases hvalue
    | delivered hread hlast hvalue =>
        exact .inl ⟨hlast, _, _, hread, Except.ok.inj hvalue, delivery_isMadeOf queue m _⟩
    | @stray _ _ archived rest hstray hnext =>
        have hsplit : log = (before ++ [.read queue settings.visibilityTimeout (.ok (some m))]) ++
            .archive queue m.msgId archived :: rest := by
          rw [hlog, hnext, List.append_assoc, List.singleton_append]
        cases h.stands hsplit with
        | archived _ _ _ => exact .inr ⟨rest, hnext⟩
        | kept _ _ _ _ hvalue => cases hvalue
  delivered d hvalue := by
    subst hvalue
    obtain ⟨before, queue, m, e, hlog, hread, rfl⟩ := h.delivered_last
    exact ⟨before, queue, m, e, hlog, hread, delivery_isMadeOf queue m e⟩
  nothing hvalue := by
    subst hvalue
    exact h.reads_all
  fails before x after fault hlog hfails := by
    obtain ⟨hlast, hvalue⟩ := h.of_fails hlog hfails
    refine ⟨hlast, hvalue, ?_⟩
    rintro queue outOfSight m hmem ⟨e, hread⟩
    obtain ⟨earlier, later, hsplit⟩ := List.append_of_mem hmem
    obtain ⟨-, hdelivered⟩ := h.of_task hsplit hread
    rw [hvalue] at hdelivered
    cases hdelivered
  failed e hvalue := by
    subst hvalue
    exact h.failed_last

end

/-- Whatever the server answers, a poll reads its queues in order, for one message each, and
stops at the first message with an envelope, which it delivers. If it is answered, every message
that it read was delivered or archived; if a statement fails, it fails and asks nothing more. -/
theorem dequeue_loses_nothing {δ : Type} (server : QueueServer δ) (settings : Settings)
    (queues : List String) (s : δ) :
    ∃ log, (dequeue server.minuted settings queues).run (s, []) =
        ((dequeue server settings queues).run s).logged log ∧
      LosesNothing settings queues log ((dequeue server settings queues).run s).value := by
  obtain ⟨log, hpoll, hrun⟩ := dequeue_minuted server settings queues s []
  exact ⟨log, hrun, hpoll.losesNothing⟩

end Messages

end TaskAudit
