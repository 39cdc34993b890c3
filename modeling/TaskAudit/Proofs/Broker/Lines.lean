import Mathlib
import TaskAudit.Proofs.Broker.QueueLaw

/-!
# Which message a poll delivers

The messages of a queue that are in sight stand in a line. A poll looks at one message for
each name that it is given, the next one of that queue's line, and delivers the first of these
that is a task. A message that is none is archived, and what stands behind it in its line is
looked at only if the queue is named again. So a poll delivers a task of the first queue that
holds one if that queue's line begins with a task, and if not it may come back with nothing.
-/
namespace TaskAudit

/-- A message in sight: its number and its text. -/
structure Note where
  msgId : Int
  body : String
  deriving DecidableEq

def Note.IsRoutable (n : Note) : Prop := ∃ e : Envelope, e.IsReadIn n.body

theorem Note.not_isRoutable {msgId : Int} {body : String} {v : Json} {fault : Json.Mismatch}
    (hjson : Json.read body = .ok v) (hfault : Envelope.ofJson v = .error fault) :
    ¬ IsRoutable ⟨msgId, body⟩ := by
  rintro ⟨e, v', hjson', henvelope⟩
  obtain rfl := Except.ok.inj (hjson.symm.trans hjson')
  rw [hfault] at henvelope
  cases henvelope

/-- Was the delivery made of the message of a queue? -/
def Delivery.Carries (d : Delivery) (queue : String) (n : Note) : Prop :=
  ∃ m e, d = Messages.delivery queue m e ∧ m.msgId = n.msgId ∧ m.body = n.body ∧
    e.IsReadIn n.body

theorem Delivery.Carries.queue_eq {d : Delivery} {queue : String} {n : Note}
    (h : d.Carries queue n) : d.receipt.queue = queue := by
  obtain ⟨m, e, rfl, -⟩ := h
  rfl

theorem Delivery.Carries.isRoutable {d : Delivery} {queue : String} {n : Note}
    (h : d.Carries queue n) : n.IsRoutable := by
  obtain ⟨m, e, -, -, -, hbody⟩ := h
  exact ⟨e, hbody⟩

/-- What a server does to the lines of its queues. It is sound as long as it answers what it is
asked about queues that are there; a message that was read may be in sight again at once. -/
structure QueueServer.Lines {δ : Type} (server : QueueServer δ) where
  IsSound : δ → Prop
  IsThere : δ → String → Prop
  line : δ → String → List Note
  readable : ∀ {s queue n}, IsSound s → n ∈ line s queue → ∃ v, Json.read n.body = .ok v
  read_answers : ∀ {s queue} timeout, IsSound s → IsThere s queue →
    ∃ answer s', ((server.read queue timeout).run s).Answers answer s'
  read_sound : ∀ {s s' queue timeout answer}, IsSound s →
    ((server.read queue timeout).run s).Answers answer s' →
    IsSound s' ∧ ∀ other, IsThere s other → IsThere s' other
  read_none : ∀ {s s' queue timeout}, IsSound s →
    ((server.read queue timeout).run s).Answers none s' → line s queue = [] ∧ line s' queue = []
  read_some : ∀ {s s' queue timeout m}, IsSound s →
    ((server.read queue timeout).run s).Answers (some m) s' →
    ∃ rest, line s queue = ⟨m.msgId, m.body⟩ :: rest ∧
      (line s' queue).filter (·.msgId ≠ m.msgId) = rest
  read_other : ∀ {s s' queue timeout answer other}, IsSound s → other ≠ queue →
    ((server.read queue timeout).run s).Answers answer s' → line s' other = line s other
  archive_answers : ∀ {s queue} msgId, IsSound s → IsThere s queue →
    ∃ s', ((server.archive queue msgId).run s).Answers () s'
  archive_sound : ∀ {s s' queue msgId}, IsSound s →
    ((server.archive queue msgId).run s).Answers () s' →
    IsSound s' ∧ ∀ other, IsThere s other → IsThere s' other
  archive_self : ∀ {s s' queue msgId}, IsSound s →
    ((server.archive queue msgId).run s).Answers () s' →
    line s' queue = (line s queue).filter (·.msgId ≠ msgId)
  archive_other : ∀ {s s' queue msgId other}, IsSound s → other ≠ queue →
    ((server.archive queue msgId).run s).Answers () s' → line s' other = line s other

/-- The numbers of messages are distinct, and their texts are JSON. -/
@[mk_iff]
structure MessageQueue.IsReadable (q : MessageQueue) : Prop where
  msgIds : (q.messages.map (·.msgId)).Nodup
  bodies : ∀ m ∈ q.messages, ∃ v, Json.read m.body = .ok v

namespace MessageQueue

def note (m : QueuedMessage) : Note := ⟨m.msgId, m.body⟩

def line (clock : Int) (ms : List QueuedMessage) : List Note :=
  (ms.filter (·.visibleAt ≤ clock)).map note

section

variable {q : MessageQueue} {clock outOfSight : Int}

theorem line_append (ms ms' : List QueuedMessage) :
    line clock (ms ++ ms') = line clock ms ++ line clock ms' := by
  simp [line]

theorem line_eq_nil_iff {ms : List QueuedMessage} :
    line clock ms = [] ↔ ∀ m ∈ ms, ¬ m.visibleAt ≤ clock := by
  simp [line]

theorem line_filter (ms : List QueuedMessage) (msgId : Int) :
    line clock (ms.filter (·.msgId ≠ msgId)) = (line clock ms).filter (·.msgId ≠ msgId) := by
  rw [line, line, List.filter_map, List.filter_filter, List.filter_filter]
  congr 2
  funext m
  rw [Bool.and_comm]
  rfl

theorem empty_isReadable : IsReadable {} :=
  ⟨List.nodup_nil, fun _ hm => absurd hm List.not_mem_nil⟩

theorem IsReadable.archive (hq : q.IsReadable) (msgId : Int) : (q.archive msgId).IsReadable := by
  have hsublist := q.archive_sublist msgId
  exact ⟨hq.msgIds.sublist (hsublist.map _), fun m hm => hq.bodies m (hsublist.mem hm)⟩

/-- The message that is read leads the line, and does not lead it twice. -/
theorem IsReadable.read (hq : q.IsReadable) {m : Message} {messages : List QueuedMessage}
    (hread : readFirst clock outOfSight q.messages = some (m, messages)) :
    IsReadable { q with messages } ∧ ∃ rest, line clock q.messages = ⟨m.msgId, m.body⟩ :: rest ∧
      (line clock messages).filter (·.msgId ≠ m.msgId) = rest := by
  obtain ⟨before, own, after, hmessages, hbefore, hsight, rfl, rfl⟩ := readFirst_eq_some hread
  obtain ⟨hids, hbodies⟩ := hq
  rw [hmessages] at hids hbodies ⊢
  have hhidden : line clock before = [] := line_eq_nil_iff.mpr hbefore
  have hothers : ∀ m ∈ before ++ after, m.msgId ≠ own.msgId := by
    rw [List.map_append, List.map_cons, List.nodup_middle, ← List.map_append] at hids
    intro m hm heq
    exact (List.nodup_cons.mp hids).1 (List.mem_map.mpr ⟨m, hm, heq⟩)
  refine ⟨⟨?_, ?_⟩, line clock after, ?_, ?_⟩
  · simpa using hids
  · simpa [or_imp, forall_and] using hbodies
  · rw [line_append, hhidden, List.nil_append, line, List.filter_cons_of_pos (by simpa using hsight)]
    rfl
  · rw [← line_filter, List.filter_append, List.filter_cons_of_neg (by simp),
      ← List.filter_append, List.filter_eq_self.mpr (by simpa using hothers), line_append, hhidden,
      List.nil_append]

end

end MessageQueue

namespace Queues

variable {s s' : Queues} {name : String}

theorem isSome_find?_put (s : Queues) (name : String) (q : MessageQueue) {other : String}
    (h : (Named.find? other s.queues).isSome) :
    (Named.find? other (s.put name q).queues).isSome := by
  by_cases hother : other = name
  · subst hother
    rw [put, Named.find?_insert_self]
    rfl
  · rwa [put, Named.find?_insert_of_ne hother]

theorem exists_within {α : Type} (f : Int → MessageQueue → α × MessageQueue)
    (h : (Named.find? name s.queues).isSome) :
    ∃ answer s', ((within name f).run s).Answers answer s' := by
  obtain ⟨q, hq⟩ := Option.isSome_iff_exists.mp h
  refine ⟨(f s.clock q).1, s.put name (f s.clock q).2, ?_⟩
  simp [within, Action.run, hq, Effect.Answers]

def lines : server.Lines where
  IsSound s := ∀ name, (s.queue name).IsReadable
  IsThere s name := (Named.find? name s.queues).isSome
  line s name := MessageQueue.line s.clock (s.queue name).messages
  readable := by
    intro s queue n hs hn
    obtain ⟨m, hm, rfl⟩ := List.mem_map.mp hn
    exact (hs queue).bodies m (List.mem_filter.mp hm).1
  read_answers timeout _ hthere := exists_within _ hthere
  read_sound := by
    intro s s' queue timeout answer hs h
    rcases read_answers h with ⟨-, -, rfl⟩ | ⟨m, messages, -, hread, rfl⟩
    · exact ⟨forall_put hs (hs queue), fun _ => isSome_find?_put s queue _⟩
    · exact ⟨forall_put hs ((hs queue).read hread).1, fun _ => isSome_find?_put s queue _⟩
  read_none := by
    intro s s' queue timeout hs h
    rcases read_answers h with ⟨-, hnone, rfl⟩ | ⟨m, messages, hsome, -⟩
    · have hempty := MessageQueue.line_eq_nil_iff.mpr (MessageQueue.readFirst_eq_none.mp hnone)
      rw [put_queue_self]
      exact ⟨hempty, hempty⟩
    · cases hsome
  read_some := by
    intro s s' queue timeout m hs h
    rcases read_answers h with ⟨hnone, -⟩ | ⟨own, messages, hown, hread, rfl⟩
    · cases hnone
    · obtain rfl := Option.some.inj hown
      rw [put_queue_self]
      exact ((hs queue).read hread).2
  read_other := by
    intro s s' queue timeout answer other hs hne h
    rcases read_answers h with ⟨-, -, rfl⟩ | ⟨m, messages, -, hread, rfl⟩ <;>
    · rw [put_queue_of_ne hne]
      rfl
  archive_answers msgId _ hthere := by
    obtain ⟨_, s', h⟩ := exists_within (fun _ q => ((), q.archive msgId)) hthere
    exact ⟨s', h⟩
  archive_sound := by
    intro s s' queue msgId hs h
    obtain rfl := archive_answers h
    exact ⟨forall_put hs ((hs queue).archive msgId), fun _ => isSome_find?_put s queue _⟩
  archive_self := by
    intro s s' queue msgId hs h
    obtain rfl := archive_answers h
    rw [put_queue_self, MessageQueue.messages_archive, ← MessageQueue.line_filter]
    rfl
  archive_other := by
    intro s s' queue msgId other hs hne h
    obtain rfl := archive_answers h
    rw [put_queue_of_ne hne]
    rfl

end Queues

namespace Messages

/-- The message that a poll finds at a place of its list: the queue's next one after those it
found at earlier places. -/
def nextAt (line : String → List Note) (queues : List String) (place : Nat) : Option Note :=
  queues[place]?.bind fun queue => (line queue)[(queues.take place).count queue]?

def HasTask (line : String → List Note) (queue : String) : Prop := ∃ n ∈ line queue, n.IsRoutable

/-- The answer comes from the first place at which a task is found. -/
inductive TakesNext (line : String → List Note) (queues : List String) :
    Option Delivery → Prop where
  | nothing (hnone : ∀ place, ∀ n ∈ nextAt line queues place, ¬ n.IsRoutable) :
    TakesNext line queues none
  | taken {place : Nat} {queue : String} {n : Note} {d : Delivery}
    (hqueue : queues[place]? = some queue) (hnext : nextAt line queues place = some n)
    (hcarries : d.Carries queue n)
    (hbefore : ∀ earlier < place, ∀ n' ∈ nextAt line queues earlier, ¬ n'.IsRoutable) :
    TakesNext line queues (some d)

/-- The answer comes from the first queue that holds a task, wherever in its line that is. -/
inductive TakesFirst (line : String → List Note) (queues : List String) :
    Option Delivery → Prop where
  | nothing (hnone : ∀ queue ∈ queues, ¬ HasTask line queue) : TakesFirst line queues none
  | taken {place : Nat} {queue : String} {n : Note} {d : Delivery}
    (hqueue : queues[place]? = some queue) (hmem : n ∈ line queue) (hcarries : d.Carries queue n)
    (hbefore : ∀ other ∈ queues.take place, ¬ HasTask line other) :
    TakesFirst line queues (some d)

/-- Does the line of the first queue that holds a task begin with one? -/
def IsLed (line : String → List Note) (queues : List String) : Prop :=
  ∀ place queue, queues[place]? = some queue → HasTask line queue →
    (∀ other ∈ queues.take place, ¬ HasTask line other) →
    ∃ n ∈ (line queue).head?, n.IsRoutable

section

variable {line line' : String → List Note} {queue : String} {queues : List String}
  {answer : Option Delivery}

@[simp] theorem nextAt_zero : nextAt line (queue :: queues) 0 = (line queue).head? := by
  simp [nextAt, List.head?_eq_getElem?]

theorem nextAt_succ (hself : line' queue = (line queue).tail)
    (hother : ∀ other, other ≠ queue → line' other = line other) (place : Nat) :
    nextAt line (queue :: queues) (place + 1) = nextAt line' queues place := by
  simp only [nextAt, List.getElem?_cons_succ, List.take_succ_cons]
  cases hplace : queues[place]? with
  | none => rfl
  | some other =>
      rw [Option.bind_some, Option.bind_some]
      by_cases heq : other = queue
      · subst heq
        rw [List.count_cons_self, hself, List.getElem?_tail]
      · rw [List.count_cons_of_ne (Ne.symm heq), hother other heq]

theorem TakesNext.cons (hfirst : ∀ n ∈ (line queue).head?, ¬ n.IsRoutable)
    (hself : line' queue = (line queue).tail)
    (hother : ∀ other, other ≠ queue → line' other = line other)
    (h : TakesNext line' queues answer) : TakesNext line (queue :: queues) answer := by
  have hsucc : ∀ place, nextAt line (queue :: queues) (place + 1) = nextAt line' queues place :=
    nextAt_succ hself hother
  have hlater : ∀ place, (∀ earlier < place, ∀ n ∈ nextAt line' queues earlier, ¬ n.IsRoutable) →
      ∀ earlier < place + 1, ∀ n ∈ nextAt line (queue :: queues) earlier, ¬ n.IsRoutable := by
    intro place hbefore earlier hlt
    cases earlier with
    | zero =>
        rw [nextAt_zero]
        exact hfirst
    | succ earlier =>
        rw [hsucc]
        exact hbefore earlier (Nat.lt_of_succ_lt_succ hlt)
  cases h with
  | nothing hnone =>
      exact .nothing fun place =>
        hlater place (fun earlier _ => hnone earlier) place (Nat.lt_succ_self place)
  | @taken place _ _ _ hqueue hnext hcarries hbefore =>
      exact .taken (List.getElem?_cons_succ.trans hqueue) ((hsucc place).trans hnext) hcarries
        (hlater place hbefore)

theorem mem_take {place later : Nat} (hqueue : queues[place]? = some queue)
    (hlt : place < later) : queue ∈ queues.take later :=
  List.mem_of_getElem? ((List.getElem?_take_of_lt hlt).trans hqueue)

theorem nextAt_of_first {place : Nat} (hqueue : queues[place]? = some queue)
    (htask : HasTask line queue) (hfirst : ∀ other ∈ queues.take place, ¬ HasTask line other) :
    nextAt line queues place = (line queue).head? := by
  have hnew : queue ∉ queues.take place := fun hmem => hfirst queue hmem htask
  rw [nextAt, hqueue, Option.bind_some, List.count_eq_zero.mpr hnew, List.head?_eq_getElem?]

/-- A queue that holds a task is the first that does, or comes behind it. -/
theorem exists_first {place : Nat} (hqueue : queues[place]? = some queue)
    (htask : HasTask line queue) :
    ∃ first ≤ place, ∃ other, queues[first]? = some other ∧ HasTask line other ∧
      ∀ earlier ∈ queues.take first, ¬ HasTask line earlier := by
  induction place using Nat.strong_induction_on generalizing queue with
  | _ place ih =>
      by_cases hfirst : ∀ other ∈ queues.take place, ¬ HasTask line other
      · exact ⟨place, le_rfl, queue, hqueue, htask, hfirst⟩
      · push Not at hfirst
        obtain ⟨other, hmem, hother⟩ := hfirst
        obtain ⟨earlier, hearlier, hget⟩ := List.mem_take_iff_getElem.mp hmem
        have hlt : earlier < place := by omega
        obtain ⟨first, hle, hrest⟩ := ih earlier hlt (List.getElem?_eq_some_iff.mpr ⟨_, hget⟩) hother
        exact ⟨first, by omega, hrest⟩

/-- If that line begins with a task, the task is found at the latest where the queue is. -/
theorem IsLed.exists_next (hled : IsLed line queues) {place : Nat}
    (hqueue : queues[place]? = some queue) (htask : HasTask line queue) :
    ∃ first ≤ place, ∃ n ∈ nextAt line queues first, n.IsRoutable := by
  obtain ⟨first, hle, other, hother, hholds, hbefore⟩ := exists_first hqueue htask
  refine ⟨first, hle, ?_⟩
  rw [nextAt_of_first hother hholds hbefore]
  exact hled first other hother hholds hbefore

theorem TakesNext.takesFirst (hled : IsLed line queues) (h : TakesNext line queues answer) :
    TakesFirst line queues answer := by
  cases h with
  | nothing hnone =>
      refine .nothing fun queue hmem htask => ?_
      obtain ⟨place, hplace⟩ := List.mem_iff_getElem?.mp hmem
      obtain ⟨first, -, n, hn, hroutable⟩ := hled.exists_next hplace htask
      exact hnone first n hn hroutable
  | @taken place queue n d hqueue hnext hcarries hbefore =>
      have hmem : n ∈ line queue := by
        rw [nextAt, hqueue, Option.bind_some] at hnext
        exact List.mem_of_getElem? hnext
      refine .taken hqueue hmem hcarries fun other hother htask => ?_
      obtain ⟨earlier, hearlier, hget⟩ := List.mem_take_iff_getElem.mp hother
      obtain ⟨first, hle, n', hn', hroutable⟩ :=
        hled.exists_next (List.getElem?_eq_some_iff.mpr ⟨_, hget⟩) htask
      exact hbefore first (by omega) n' hn' hroutable

/-- Of distinct queues the one a task was taken from led with it. -/
theorem TakesFirst.isLed (h : TakesFirst line queues answer) (hnodup : queues.Nodup)
    (hnext : TakesNext line queues answer) : IsLed line queues := by
  intro place queue hqueue htask hbefore
  cases h with
  | nothing hnone => exact absurd htask (hnone queue (List.mem_of_getElem? hqueue))
  | @taken first own n _ hown hmem hcarries hfirst =>
      have hholds : HasTask line own := ⟨n, hmem, hcarries.isRoutable⟩
      have hsame : place = first := by
        rcases lt_trichotomy place first with hlt | heq | hlt
        · exact absurd htask (hfirst queue (mem_take hqueue hlt))
        · exact heq
        · exact absurd hholds (hbefore own (mem_take hown hlt))
      subst hsame
      obtain rfl : queue = own := Option.some.inj (hqueue.symm.trans hown)
      cases hnext with
      | @taken taken own' n' _ hown' hnext' hcarries' _ =>
          obtain rfl : queue = own' := hcarries.queue_eq.symm.trans hcarries'.queue_eq
          obtain rfl : place = taken :=
            (List.getElem?_inj (List.getElem?_eq_some_iff.mp hqueue).1 hnodup).mp
              (hqueue.trans hown'.symm)
          rw [nextAt_of_first hqueue htask hbefore] at hnext'
          exact ⟨n', hnext', hcarries'.isRoutable⟩

end

section

variable {δ : Type} {server : QueueServer δ} {settings : Settings} {s s₁ s₂ s' : δ}
  {queue : String} {queues : List String} {answer : Option Delivery}

theorem dequeue_of_none
    (hread : ((server.read queue settings.visibilityTimeout).run s).Answers none s₁)
    (hrest : ((dequeue server settings queues).run s₁).Answers answer s') :
    ((dequeue server settings (queue :: queues)).run s).Answers answer s' := by
  obtain ⟨events, hrun⟩ := hread.exists_events
  simp only [dequeue, readNext, Action.run_bind, hrun]
  exact hrest

theorem dequeue_of_unroutable {m : Message} {v : Json} {fault : Json.Mismatch}
    (hread : ((server.read queue settings.visibilityTimeout).run s).Answers (some m) s₁)
    (hjson : Json.read m.body = .ok v) (hfault : Envelope.ofJson v = .error fault)
    (harchive : ((server.archive queue m.msgId).run s₁).Answers () s₂)
    (hrest : ((dequeue server settings queues).run s₂).Answers answer s') :
    ((dequeue server settings (queue :: queues)).run s).Answers answer s' := by
  have hcounted : ((archive server queue m.msgId).run s₁).Answers () s₂ :=
    counted_answers.mpr harchive
  obtain ⟨events, hrun⟩ := hread.exists_events
  obtain ⟨events', harchived⟩ := hcounted.exists_events
  simp only [dequeue, readNext, hrun, bodyOf, hjson, Except.mapError, countUse, Action.run_bind,
    Action.run_count, Action.run_pure, hfault, Action.run_note, harchived]
  exact hrest

theorem exists_takesNext (lines : server.Lines) (settings : Settings) (hs : lines.IsSound s)
    (hthere : ∀ queue ∈ queues, lines.IsThere s queue) :
    ∃ answer s', ((dequeue server settings queues).run s).Answers answer s' ∧
      TakesNext (lines.line s) queues answer := by
  induction queues generalizing s with
  | nil => exact ⟨none, s, ⟨rfl, rfl⟩, .nothing fun place n hn => by simp [nextAt] at hn⟩
  | cons queue queues ih =>
      obtain ⟨hfirst, hlater⟩ := List.forall_mem_cons.mp hthere
      obtain ⟨read, s₁, hread⟩ := lines.read_answers settings.visibilityTimeout hs hfirst
      obtain ⟨hs₁, hthere₁⟩ := lines.read_sound hs hread
      cases read with
      | none =>
          obtain ⟨hempty, hempty'⟩ := lines.read_none hs hread
          obtain ⟨answer, s', hrest, htakes⟩ :=
            ih hs₁ fun other hother => hthere₁ other (hlater other hother)
          refine ⟨answer, s', dequeue_of_none hread hrest, htakes.cons ?_ ?_ ?_⟩
          · rw [hempty]
            nofun
          · rw [hempty, hempty', List.tail_nil]
          · exact fun other hne => lines.read_other hs hne hread
      | some m =>
          obtain ⟨rest, hline, hrest⟩ := lines.read_some hs hread
          have hmem : ⟨m.msgId, m.body⟩ ∈ lines.line s queue := by
            rw [hline]
            exact List.mem_cons_self
          obtain ⟨v, hjson⟩ := lines.readable hs hmem
          cases henvelope : Envelope.ofJson v with
          | ok e =>
              have hbody : e.IsReadIn m.body := ⟨v, hjson, henvelope⟩
              have hnext : nextAt (lines.line s) (queue :: queues) 0 =
                  some ⟨m.msgId, m.body⟩ := by
                rw [nextAt_zero, hline, List.head?_cons]
              have hcarries : (delivery queue m e).Carries queue ⟨m.msgId, m.body⟩ :=
                ⟨m, e, rfl, rfl, rfl, hbody⟩
              exact ⟨_, s₁, dequeue_of_read hread hbody queues,
                .taken List.getElem?_cons_zero hnext hcarries nofun⟩
          | error fault =>
              obtain ⟨s₂, harchive⟩ :=
                lines.archive_answers m.msgId hs₁ (hthere₁ queue hfirst)
              obtain ⟨hs₂, hthere₂⟩ := lines.archive_sound hs₁ harchive
              obtain ⟨answer, s', hanswer, htakes⟩ :=
                ih hs₂ fun other hother => hthere₂ other (hthere₁ other (hlater other hother))
              refine ⟨answer, s', dequeue_of_unroutable hread hjson henvelope harchive hanswer,
                htakes.cons ?_ ?_ ?_⟩
              · rw [hline]
                rintro _ ⟨⟩
                exact Note.not_isRoutable hjson henvelope
              · rw [lines.archive_self hs₁ harchive, hrest, hline, List.tail_cons]
              · exact fun other hne =>
                  (lines.archive_other hs₁ hne harchive).trans (lines.read_other hs hne hread)

end

/-- A poll of queues that are there always answers. It looks at one message for each name of
its list, the next in the line of that queue, and delivers the first that is a task; it answers
with nothing only if none of these is. So it delivers a task of the first queue that holds one
if the line of that queue begins with a task; of distinct queues it does so only then. -/
theorem dequeue_takes_next {δ : Type} {server : QueueServer δ} (lines : server.Lines)
    (settings : Settings) {s : δ} (hs : lines.IsSound s) {queues : List String}
    (hthere : ∀ queue ∈ queues, lines.IsThere s queue) :
    ∃ answer s', ((dequeue server settings queues).run s).Answers answer s' ∧
      TakesNext (lines.line s) queues answer ∧
      (IsLed (lines.line s) queues → TakesFirst (lines.line s) queues answer) ∧
      (queues.Nodup → TakesFirst (lines.line s) queues answer → IsLed (lines.line s) queues) := by
  obtain ⟨answer, s', hanswer, hnext⟩ := exists_takesNext lines settings hs hthere
  exact ⟨answer, s', hanswer, hnext, hnext.takesFirst,
    fun hnodup hfirst => hfirst.isLed hnodup hnext⟩

/-- Tasks out of sight, and messages in sight that are none, before and behind the first task
in sight. -/
theorem dequeue_takes_next_of_second :
    let task := "\x7b\"task_type\": \"mail\"\x7d"
    let s : Queues := ⟨0, [("a", ⟨[⟨1, 1, 60, task⟩, ⟨2, 0, 0, "\x7b\x7d"⟩], [], 2⟩),
      ("b", ⟨[⟨1, 2, 10, "\x7b\x7d"⟩, ⟨2, 0, 0, task⟩, ⟨3, 0, 0, "\x7b\x7d"⟩], [], 3⟩),
      ("c", ⟨[⟨1, 0, 0, task⟩], [], 1⟩)]⟩
    let queues := ["a", "b", "c", "a"]
    Queues.lines.IsSound s ∧ (∀ queue ∈ queues, Queues.lines.IsThere s queue) ∧
      ∃ d s', ((dequeue Queues.server {} queues).run s).Answers (some d) s' ∧
        d.receipt = ⟨"b", 2, 0, 25⟩ ∧ TakesNext (Queues.lines.line s) queues (some d) ∧
        TakesFirst (Queues.lines.line s) queues (some d) := by
  have hjson : Json.read "\x7b\"task_type\": \"mail\"\x7d" =
      .ok (.obj [("task_type", .str "mail")]) := by cbv
  have hempty : Json.read "\x7b\x7d" = .ok (.obj []) := rfl
  intro task s queues
  have hbody : Envelope.IsReadIn ⟨none, "mail", .null, 25⟩ task := ⟨_, hjson, rfl⟩
  have hs : Queues.lines.IsSound s :=
    Queues.forall_queue
      (by simp [s, MessageQueue.isReadable_iff, task, hjson, hempty]) MessageQueue.empty_isReadable
  have hthere : ∀ queue ∈ queues, Queues.lines.IsThere s queue := by
    simp [queues, s, Queues.lines, Named.find?]
  have hfirst : ¬ HasTask (Queues.lines.line s) "a" := by
    rintro ⟨n, hn, hroutable⟩
    obtain rfl : n = ⟨2, "\x7b\x7d"⟩ := List.mem_singleton.mp hn
    exact Note.not_isRoutable hempty rfl hroutable
  have hled : IsLed (Queues.lines.line s) queues := by
    intro place queue hqueue htask hbefore
    rcases place with _ | _ | place
    · obtain rfl : "a" = queue := Option.some.inj hqueue
      exact absurd htask hfirst
    · obtain rfl : "b" = queue := Option.some.inj hqueue
      exact ⟨⟨2, task⟩, rfl, _, hbody⟩
    · exact absurd ⟨⟨2, task⟩, List.mem_cons_self, _, hbody⟩ (hbefore "b" (by simp [queues]))
  have hvalue : ((dequeue Queues.server {} queues).run s).value =
      .ok (some (delivery "b" ⟨2, 1, task⟩ ⟨none, "mail", .null, 25⟩)) := by decide +kernel
  obtain ⟨answer, s', hanswer, hnext, htakes, -⟩ := dequeue_takes_next Queues.lines {} hs hthere
  obtain rfl := Except.ok.inj (hanswer.1.symm.trans hvalue)
  exact ⟨hs, hthere, _, s', hanswer, rfl, hnext, htakes hled⟩

/-- A message that is no task, with a task behind it. The poll comes back with nothing. -/
theorem dequeue_misses_task :
    let task := "\x7b\"task_type\": \"mail\"\x7d"
    let s : Queues := ⟨0, [("a", ⟨[⟨1, 0, 0, "\x7b\x7d"⟩, ⟨2, 0, 0, task⟩], [], 2⟩)]⟩
    Queues.lines.IsSound s ∧ Queues.lines.IsThere s "a" ∧ HasTask (Queues.lines.line s) "a" ∧
      ((dequeue Queues.server {} ["a"]).run s).value = .ok none ∧
      ¬ TakesFirst (Queues.lines.line s) ["a"] none := by
  have hjson : Json.read "\x7b\"task_type\": \"mail\"\x7d" =
      .ok (.obj [("task_type", .str "mail")]) := by cbv
  have hempty : Json.read "\x7b\x7d" = .ok (.obj []) := rfl
  intro task s
  have htask : HasTask (Queues.lines.line s) "a" :=
    ⟨⟨2, task⟩, List.mem_cons_of_mem _ List.mem_cons_self, _, _, hjson, rfl⟩
  refine ⟨?_, rfl, htask, by decide +kernel, ?_⟩
  · exact Queues.forall_queue
      (by simp [s, MessageQueue.isReadable_iff, task, hjson, hempty]) MessageQueue.empty_isReadable
  · rintro ⟨hnone⟩
    exact hnone "a" List.mem_cons_self htask

end Messages

end TaskAudit
