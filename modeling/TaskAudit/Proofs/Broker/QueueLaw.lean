import Mathlib
import TaskAudit.Broker.Messages.Queues
import TaskAudit.Proofs.Broker.Letters

/-!
# The queues in the process keep the law

As long as the numbers of the messages in a queue are distinct, and they stay so, every
statement does to a message what a broker relies on, and nothing to any other.
-/
namespace TaskAudit

namespace QueuedMessage

def letter (clock : Int) (m : QueuedMessage) : Letter :=
  ⟨m.readCount.toInt.toNat, m.visibleAt ≤ clock, m.body⟩

end QueuedMessage

namespace MessageQueue

/-- The numbers of messages are distinct, and their counts of reads are counts. -/
structure IsSound (q : MessageQueue) : Prop where
  msgIds : (q.messages.map (·.msgId)).Nodup
  counts : ∀ m ∈ q.messages, 0 ≤ m.readCount.toInt

def letter? (clock : Int) (q : MessageQueue) (msgId : Int) : Option Letter :=
  (q.messages.find? (·.msgId = msgId)).map (·.letter clock)

theorem readFirst_eq_some {clock outOfSight : Int} {ms ms' : List QueuedMessage} {m : Message}
    (h : readFirst clock outOfSight ms = some (m, ms')) :
    ∃ before q after, ms = before ++ q :: after ∧ (∀ b ∈ before, ¬ b.visibleAt ≤ clock) ∧
      q.visibleAt ≤ clock ∧ m = ⟨q.msgId, oneMore q.readCount, q.body⟩ ∧
      ms' = before ++
        { q with readCount := oneMore q.readCount, visibleAt := clock + outOfSight } :: after := by
  induction ms generalizing ms' with
  | nil => cases h
  | cons q ms ih =>
      rw [readFirst] at h
      by_cases hq : q.visibleAt ≤ clock
      · rw [if_pos hq] at h
        cases h
        exact ⟨[], q, ms, rfl, nofun, hq, rfl, rfl⟩
      · rw [if_neg hq, Option.map_eq_some_iff] at h
        obtain ⟨⟨m', rest⟩, hread, heq⟩ := h
        cases heq
        obtain ⟨before, own, after, rfl, hbefore, hown, rfl, rfl⟩ := ih hread
        exact ⟨q :: before, own, after, rfl, List.forall_mem_cons.mpr ⟨hq, hbefore⟩, hown, rfl, rfl⟩

theorem readFirst_eq_none {clock outOfSight : Int} {ms : List QueuedMessage} :
    readFirst clock outOfSight ms = none ↔ ∀ m ∈ ms, ¬ m.visibleAt ≤ clock := by
  induction ms with
  | nil => simp [readFirst]
  | cons q ms ih =>
      rw [readFirst, List.forall_mem_cons]
      by_cases hq : q.visibleAt ≤ clock
      · simp [hq]
      · rw [if_neg hq, Option.map_eq_none_iff, ih, and_iff_right hq]

theorem messages_archive (q : MessageQueue) (msgId : Int) :
    (q.archive msgId).messages = q.messages.filter (·.msgId ≠ msgId) := by
  unfold MessageQueue.archive
  split
  · rfl
  · next hnone =>
      rw [Bool.not_eq_true, List.any_eq_false] at hnone
      exact (List.filter_eq_self.mpr fun m hm => by simpa using hnone m hm).symm

theorem archive_sublist (q : MessageQueue) (msgId : Int) :
    (q.archive msgId).messages.Sublist q.messages := by
  rw [messages_archive]
  exact List.filter_sublist

/-- Counting stops only where the count would not fit. -/
theorem toInt_oneMore {n : Int32} (hn : 0 ≤ n.toInt) (hfit : n.toInt + 1 < 2 ^ 31) :
    (oneMore n).toInt = n.toInt + 1 := by
  have hne : n ≠ Int32.maxValue := by
    rintro rfl
    exact absurd hfit (by decide)
  have hone : (1 : Int32).toInt = 1 := rfl
  rw [oneMore, if_neg hne, Int32.toInt_add, hone, Int.bmod_eq_of_le] <;> omega

theorem oneMore_nonneg {n : Int32} (hn : 0 ≤ n.toInt) : 0 ≤ (oneMore n).toInt := by
  by_cases hmax : n = Int32.maxValue
  · rw [oneMore, if_pos hmax]
    exact hn
  · have hlt : n.toInt < 2 ^ 31 := n.toInt_lt
    have hne : n.toInt ≠ 2 ^ 31 - 1 := fun heq => hmax (Int32.toInt_inj.mp heq)
    rw [toInt_oneMore hn (by omega)]
    omega

section

variable {q : MessageQueue} {clock : Int} {msgId : Int}

theorem letter?_eq_none : q.letter? clock msgId = none ↔ msgId ∉ q.messages.map (·.msgId) := by
  simp [letter?]

theorem find?_of_split {ms before after : List QueuedMessage} {m : QueuedMessage}
    (hids : (ms.map (·.msgId)).Nodup) (hms : ms = before ++ m :: after) :
    ms.find? (·.msgId = m.msgId) = some m := by
  have hbefore : before.find? (·.msgId = m.msgId) = none := by
    rw [hms, List.map_append, List.map_cons, List.nodup_middle] at hids
    have hnot := (List.nodup_cons.mp hids).1
    rw [List.find?_eq_none]
    intro other hmem hid
    exact hnot (List.mem_append_left _ (List.mem_map.mpr ⟨other, hmem, of_decide_eq_true hid⟩))
  rw [hms, List.find?_append, hbefore, Option.none_or, List.find?_cons_of_pos (by simp)]

theorem IsSound.replace (hq : q.IsSound) (clock : Int) {before after : List QueuedMessage}
    {m : QueuedMessage} (m' : QueuedMessage) (hmessages : q.messages = before ++ m :: after)
    (hid : m'.msgId = m.msgId) (hcount : 0 ≤ m'.readCount.toInt) :
    IsSound { q with messages := before ++ m' :: after } ∧
      letter? clock { q with messages := before ++ m' :: after } m.msgId =
        some (m'.letter clock) ∧
      ∀ other, other ≠ m.msgId →
        letter? clock { q with messages := before ++ m' :: after } other =
          q.letter? clock other := by
  have hsame : (before ++ m' :: after).map (·.msgId) = q.messages.map (·.msgId) := by
    rw [hmessages, List.map_append, List.map_append, List.map_cons, List.map_cons, hid]
  have hids : ((before ++ m' :: after).map (·.msgId)).Nodup := by
    rw [hsame]
    exact hq.msgIds
  have hother : ∀ own ∈ before ++ after, 0 ≤ own.readCount.toInt := by
    intro own hown
    refine hq.counts own ?_
    rw [hmessages]
    exact ((List.sublist_cons_self m after).append_left before).mem hown
  refine ⟨⟨hids, ?_⟩, ?_, ?_⟩
  · intro own hown
    rcases List.mem_append.mp hown with hown | hown
    · exact hother own (List.mem_append_left _ hown)
    · rcases List.mem_cons.mp hown with rfl | hown
      · exact hcount
      · exact hother own (List.mem_append_right _ hown)
  · have hfind := find?_of_split hids rfl
    rw [hid] at hfind
    simp only [letter?]
    rw [hfind, Option.map_some]
  · intro other hother
    simp only [letter?, hmessages, List.find?_append]
    congr 2
    rw [List.find?_cons_of_neg (by simpa [hid] using hother.symm),
      List.find?_cons_of_neg (by simpa using hother.symm)]

/-- A message that is read was in sight and is read once more; no other one is. -/
theorem IsSound.read (hq : q.IsSound) {outOfSight : Int} {m : Message}
    {messages : List QueuedMessage}
    (hread : readFirst clock outOfSight q.messages = some (m, messages)) :
    IsSound { q with messages } ∧
      (∃ l, q.letter? clock m.msgId = some l ∧ l.inSight = true ∧ m.body = l.body ∧
        (l.reads + 1 < 2 ^ 31 → m.readCount.toInt = l.reads + 1 ∧
          ∃ inSight, letter? clock { q with messages } m.msgId =
            some { l with reads := l.reads + 1, inSight })) ∧
      ∀ other, other ≠ m.msgId →
        letter? clock { q with messages } other = q.letter? clock other := by
  obtain ⟨before, own, after, hmessages, -, hsight, rfl, rfl⟩ := readFirst_eq_some hread
  have hmem : own ∈ q.messages := by
    rw [hmessages]
    exact List.mem_append_cons_self
  have hcount := hq.counts own hmem
  obtain ⟨hsound, hletter, hothers⟩ := hq.replace clock
    { own with readCount := oneMore own.readCount, visibleAt := clock + outOfSight }
    hmessages rfl (oneMore_nonneg hcount)
  refine ⟨hsound, ⟨own.letter clock, ?_, decide_eq_true hsight, rfl, ?_⟩, hothers⟩
  · simp only [letter?]
    rw [find?_of_split hq.msgIds hmessages, Option.map_some]
  · intro hfit
    have hreads : ((own.letter clock).reads : Int) = own.readCount.toInt :=
      Int.toNat_of_nonneg hcount
    have hmore := toInt_oneMore hcount (by omega)
    have hnat : (own.readCount.toInt + 1).toNat = own.readCount.toInt.toNat + 1 := by omega
    refine ⟨by rw [hmore, hreads], decide (clock + outOfSight ≤ clock), ?_⟩
    rw [hletter, QueuedMessage.letter, hmore, hnat]
    rfl

theorem IsSound.archive (hq : q.IsSound) (clock msgId : Int) :
    (q.archive msgId).IsSound ∧ (q.archive msgId).letter? clock msgId = none ∧
      ∀ other, other ≠ msgId → (q.archive msgId).letter? clock other = q.letter? clock other := by
  have hmessages := q.messages_archive msgId
  have hsublist := q.archive_sublist msgId
  refine ⟨⟨hq.msgIds.sublist (hsublist.map _), fun m hm => hq.counts m (hsublist.mem hm)⟩, ?_, ?_⟩
  · rw [letter?_eq_none, hmessages]
    simp
  · intro other hother
    rw [letter?, letter?, hmessages, List.find?_filter]
    congr 2
    funext m
    by_cases hm : m.msgId = other
    · simp [hm, hother]
    · simp [hm]

theorem IsSound.hide (hq : q.IsSound) (clock msgId time : Int) :
    (q.hide msgId time).IsSound ∧
      (q.hide msgId time).letter? clock msgId =
        (q.letter? clock msgId).map fun l => { l with inSight := decide (time ≤ clock) } := by
  have hids : (q.hide msgId time).messages.map (·.msgId) = q.messages.map (·.msgId) := by
    simp only [MessageQueue.hide, List.map_map]
    refine List.map_congr_left fun m _ => ?_
    rw [Function.comp_apply]
    split <;> rfl
  refine ⟨⟨by rw [hids]; exact hq.msgIds, ?_⟩, ?_⟩
  · intro m hm
    obtain ⟨own, hown, rfl⟩ := List.mem_map.mp hm
    split <;> exact hq.counts own hown
  · simp only [letter?, MessageQueue.hide]
    induction q.messages with
    | nil => rfl
    | cons m ms ih =>
        by_cases hm : m.msgId = msgId
        · simp [hm, QueuedMessage.letter]
        · simpa [hm] using ih

end

end MessageQueue

namespace Queues

variable {s s' : Queues} {name : String}

@[simp] theorem put_queue_self (s : Queues) (name : String) (q : MessageQueue) :
    (s.put name q).queue name = q := by
  simp [queue, put]

theorem put_queue_of_ne {other : String} (h : other ≠ name) (s : Queues) (q : MessageQueue) :
    (s.put name q).queue other = s.queue other := by
  simp [queue, put, Named.find?_insert_of_ne h]

theorem within_answers {α : Type} {f : Int → MessageQueue → α × MessageQueue} {answer : α}
    (h : ((within name f).run s).Answers answer s') :
    answer = (f s.clock (s.queue name)).1 ∧ s' = s.put name (f s.clock (s.queue name)).2 := by
  obtain ⟨hvalue, rfl⟩ := h
  simp only [within, Action.run] at hvalue ⊢
  cases hfind : Named.find? name s.queues with
  | none => simp [hfind] at hvalue
  | some q =>
      simp only [hfind, Except.ok.injEq] at hvalue
      simp [queue, hfind, hvalue]

theorem forall_queue {P : MessageQueue → Prop} (hs : ∀ p ∈ s.queues, P p.2) (hempty : P {})
    (name : String) : P (s.queue name) := by
  unfold queue
  revert hs
  induction s.queues with
  | nil => exact fun _ => hempty
  | cons p rest ih =>
      obtain ⟨other, q⟩ := p
      intro hs
      obtain ⟨hq, hrest⟩ := List.forall_mem_cons.mp hs
      rw [Named.find?]
      split
      · exact hq
      · exact ih hrest

theorem forall_put {P : MessageQueue → Prop} (hs : ∀ name, P (s.queue name)) {q : MessageQueue}
    (hq : P q) (other : String) : P ((s.put name q).queue other) := by
  by_cases hother : other = name
  · subst hother
    rw [put_queue_self]
    exact hq
  · rw [put_queue_of_ne hother]
    exact hs other

theorem letter?_put {q : MessageQueue} {msgId : Int}
    (hq : ∀ other, other ≠ msgId → q.letter? s.clock other = (s.queue name).letter? s.clock other)
    {name' : String} {msgId' : Int} (hne : (name, msgId) ≠ (name', msgId')) :
    ((s.put name q).queue name').letter? s.clock msgId' =
      (s.queue name').letter? s.clock msgId' := by
  by_cases hname : name' = name
  · subst hname
    rw [put_queue_self]
    exact hq msgId' fun heq => hne (by rw [heq])
  · rw [put_queue_of_ne hname]

theorem read_answers {outOfSight : Int} {answer : Option Message}
    (h : ((server.read name outOfSight).run s).Answers answer s') :
    (answer = none ∧ MessageQueue.readFirst s.clock outOfSight (s.queue name).messages = none ∧
        s' = s.put name (s.queue name)) ∨
      ∃ m messages, answer = some m ∧
        MessageQueue.readFirst s.clock outOfSight (s.queue name).messages = some (m, messages) ∧
        s' = s.put name { s.queue name with messages } := by
  obtain ⟨hvalue, hstate⟩ := within_answers h
  cases hread : MessageQueue.readFirst s.clock outOfSight (s.queue name).messages with
  | none =>
      rw [hread] at hvalue hstate
      exact .inl ⟨hvalue, rfl, hstate⟩
  | some r =>
      rw [hread] at hvalue hstate
      exact .inr ⟨r.1, r.2, hvalue, rfl, hstate⟩

theorem archive_answers {msgId : Int} (h : ((server.archive name msgId).run s).Answers () s') :
    s' = s.put name ((s.queue name).archive msgId) :=
  (within_answers h).2

theorem hide_answers {msgId delay : Int}
    (h : ((server.hide name msgId delay).run s).Answers () s') :
    s' = s.put name ((s.queue name).hide msgId (s.clock + delay)) :=
  (within_answers h).2

def law : server.Law where
  IsSound s := ∀ name, (s.queue name).IsSound
  letter? s name msgId := (s.queue name).letter? s.clock msgId
  read_sound := by
    intro s s' queue timeout answer hs h
    rcases read_answers h with ⟨-, -, rfl⟩ | ⟨m, messages, -, hread, rfl⟩
    · exact forall_put hs (hs queue)
    · exact forall_put hs ((hs queue).read hread).1
  read_some := by
    intro s s' queue timeout m hs h
    rcases read_answers h with ⟨hnone, -⟩ | ⟨own, messages, hown, hread, rfl⟩
    · cases hnone
    · obtain rfl := Option.some.inj hown
      rw [put_queue_self]
      exact ((hs queue).read hread).2.1
  read_other := by
    intro s s' queue timeout answer queue' msgId' hs h hne
    rcases read_answers h with ⟨-, -, rfl⟩ | ⟨m, messages, rfl, hread, rfl⟩
    · by_cases hqueue : queue' = queue
      · subst hqueue
        rw [put_queue_self]
        rfl
      · rw [put_queue_of_ne hqueue]
        rfl
    · exact letter?_put ((hs queue).read hread).2.2 (hne m rfl)
  archive_sound := by
    intro s s' queue msgId hs h
    obtain rfl := archive_answers h
    exact forall_put hs ((hs queue).archive s.clock msgId).1
  archive_self := by
    intro s s' queue msgId hs h
    obtain rfl := archive_answers h
    rw [put_queue_self]
    exact ((hs queue).archive s.clock msgId).2.1
  archive_other := by
    intro s s' queue msgId queue' msgId' hs h hne
    obtain rfl := archive_answers h
    exact letter?_put ((hs queue).archive s.clock msgId).2.2 hne
  hide_sound := by
    intro s s' queue msgId delay hs h
    obtain rfl := hide_answers h
    exact forall_put hs ((hs queue).hide s.clock msgId _).1
  hide_self := by
    intro s s' queue msgId delay hs h
    obtain rfl := hide_answers h
    rw [put_queue_self]
    exact ⟨_, ((hs queue).hide s.clock msgId _).2⟩

end Queues

end TaskAudit
