import Mathlib
import TaskAudit.Broker.Backlog

/-!
# What the operations of the broker in memory do

One lemma for each operation, with everything that it can do: which entry it takes out
of which list, and where the entry goes. A list from which an entry is taken is written
as the part before the entry and the part after it.
-/
namespace TaskAudit.Backlog

theorem around_sublist {α : Type} (before rest : List α) (a : α) :
    (before ++ rest).Sublist (before ++ a :: rest) :=
  (List.sublist_cons_self a rest).append_left before

theorem around_eq_singleton {α : Type} {before rest : List α} {a b : α}
    (h : before ++ a :: rest = [b]) : a = b ∧ before = [] ∧ rest = [] := by
  cases before with
  | nil =>
      obtain ⟨rfl, rfl⟩ := List.cons.inj h
      exact ⟨rfl, rfl, rfl⟩
  | cons c before => simp at h

theorem takeReady_eq_some {queue : String} {now : Moment} {ws rest : List Waiting} {e : Entry}
    (h : takeReady queue now ws = some (e, rest)) :
    ∃ before after, ws = before ++ ⟨queue, e⟩ :: after ∧ rest = before ++ after ∧
      e.readyAt ≤ now ∧ ∀ w ∈ before, w.isReady queue now = false := by
  induction ws generalizing rest with
  | nil => cases h
  | cons w ws ih =>
      rw [takeReady] at h
      cases hw : w.isReady queue now with
      | true =>
          rw [hw, if_pos rfl] at h
          cases h
          rw [Waiting.isReady, Bool.and_eq_true, decide_eq_true_iff, decide_eq_true_iff] at hw
          obtain ⟨rfl, hready⟩ := hw
          exact ⟨[], ws, rfl, rfl, hready, nofun⟩
      | false =>
          rw [hw, if_neg Bool.false_ne_true, Option.map_eq_some_iff] at h
          obtain ⟨⟨e', rest'⟩, htake, heq⟩ := h
          cases heq
          obtain ⟨before, after, rfl, rfl, hready, hbefore⟩ := ih htake
          exact ⟨w :: before, after, rfl, rfl, hready, List.forall_mem_cons.mpr ⟨hw, hbefore⟩⟩

theorem takeFirst_eq_some {now : Moment} {ws rest : List Waiting} {queues : List String}
    {queue : String} {e : Entry} (h : takeFirst now ws queues = some (queue, e, rest)) :
    ∃ earlier later, queues = earlier ++ queue :: later ∧
      (∀ q ∈ earlier, takeReady q now ws = none) ∧ takeReady queue now ws = some (e, rest) := by
  induction queues with
  | nil => cases h
  | cons q qs ih =>
      rw [takeFirst] at h
      cases hq : takeReady q now ws with
      | some r =>
          rw [hq] at h
          cases h
          exact ⟨[], qs, rfl, nofun, hq⟩
      | none =>
          rw [hq] at h
          obtain ⟨earlier, later, rfl, hearlier, hready⟩ := ih h
          exact ⟨q :: earlier, later, rfl, List.forall_mem_cons.mpr ⟨hq, hearlier⟩, hready⟩

theorem takeReady_eq_none {queue : String} {now : Moment} {ws : List Waiting}
    (h : takeReady queue now ws = none) : ∀ w ∈ ws, w.isReady queue now = false := by
  induction ws with
  | nil => exact nofun
  | cons w ws ih =>
      rw [takeReady] at h
      cases hw : w.isReady queue now with
      | true =>
          rw [hw, if_pos rfl] at h
          cases h
      | false =>
          rw [hw, if_neg Bool.false_ne_true, Option.map_eq_none_iff] at h
          exact List.forall_mem_cons.mpr ⟨hw, ih h⟩

theorem takeFirst_eq_none {now : Moment} {ws : List Waiting} {queues : List String}
    (h : takeFirst now ws queues = none) : ∀ q ∈ queues, takeReady q now ws = none := by
  induction queues with
  | nil => exact nofun
  | cons q qs ih =>
      rw [takeFirst] at h
      cases hq : takeReady q now ws with
      | some r =>
          rw [hq] at h
          cases h
      | none =>
          rw [hq] at h
          exact List.forall_mem_cons.mpr ⟨hq, ih h⟩

theorem takeFlight_eq_some {msgId : Int} {fs rest : List (Int × Entry)} {e : Entry}
    (h : takeFlight msgId fs = some (e, rest)) :
    ∃ before after, fs = before ++ (msgId, e) :: after ∧ rest = before ++ after ∧
      msgId ∉ before.map Prod.fst := by
  induction fs generalizing rest with
  | nil => cases h
  | cons f fs ih =>
      rw [takeFlight] at h
      by_cases hf : f.1 = msgId
      · rw [if_pos hf] at h
        cases h
        exact ⟨[], fs, by rw [← hf]; rfl, rfl, List.not_mem_nil⟩
      · rw [if_neg hf, Option.map_eq_some_iff] at h
        obtain ⟨⟨e', rest'⟩, htake, heq⟩ := h
        cases heq
        obtain ⟨before, after, rfl, rfl, hbefore⟩ := ih htake
        refine ⟨f :: before, after, rfl, rfl, ?_⟩
        rw [List.map_cons, List.mem_cons, not_or]
        exact ⟨Ne.symm hf, hbefore⟩

theorem takeFlight_eq_none {msgId : Int} {fs : List (Int × Entry)} :
    takeFlight msgId fs = none ↔ msgId ∉ fs.map Prod.fst := by
  induction fs with
  | nil => simp [takeFlight]
  | cons f fs ih =>
      rw [takeFlight, List.map_cons, List.mem_cons, not_or, ← ih]
      by_cases hf : f.1 = msgId
      · simp [hf]
      · simp [hf, Ne.symm hf]

theorem enqueue_cases (id : String) (now : Now) (task : Task) (queue : String)
    (maxRetry : UInt32) (s : Backlog) :
    (s.closed = true ∧ (enqueue id now task queue maxRetry).run s =
      ⟨.error (.broker "memory broker is closed"), s, []⟩) ∨
    (s.closed = false ∧ (enqueue id now task queue maxRetry).run s =
      ⟨.ok ⟨id, queue, task.taskType, maxRetry, now.time⟩,
        { s with
          waiting := s.waiting ++ [⟨queue, ⟨id, task, maxRetry, 0, now.moment⟩⟩] }, []⟩) := by
  by_cases hs : s.closed = true
  · exact .inl ⟨hs, by simp only [enqueue, Action.run, if_pos hs]⟩
  · exact .inr ⟨Bool.eq_false_iff.mpr hs, by simp only [enqueue, Action.run, if_neg hs]⟩

/-- Polling an open broker takes the first ready task of the first queue that has one. -/
theorem dequeue_takes {s : Backlog} (hopen : s.closed = false) (now : Now)
    (queues : List String) :
    ((dequeue now queues).run s = ⟨.ok none, s, []⟩ ∧
      ∀ q ∈ queues, ∀ w ∈ s.waiting, w.isReady q now.moment = false) ∨
    ∃ earlier queue later e before rest, queues = earlier ++ queue :: later ∧
      (∀ q ∈ earlier, ∀ w ∈ s.waiting, w.isReady q now.moment = false) ∧
      s.waiting = before ++ ⟨queue, e⟩ :: rest ∧
      (∀ w ∈ before, w.isReady queue now.moment = false) ∧ e.readyAt ≤ now.moment ∧
      (dequeue now queues).run s =
        ⟨.ok (some (delivery queue (s.issued + 1) e)),
          { s with
            waiting := before ++ rest
            inFlight := s.inFlight ++ [((s.issued : Int) + 1, e)]
            issued := s.issued + 1 }, []⟩ := by
  have hclosed : ¬ s.closed = true := by
    rw [hopen]
    exact Bool.false_ne_true
  cases htake : takeFirst now.moment s.waiting queues with
  | none =>
      refine .inl ⟨?_, fun q hq => takeReady_eq_none (takeFirst_eq_none htake q hq)⟩
      simp only [dequeue, Action.run, if_neg hclosed, htake]
  | some r =>
      obtain ⟨queue, e, rest⟩ := r
      obtain ⟨earlier, later, hqueues, hearlier, hready⟩ := takeFirst_eq_some htake
      obtain ⟨before, after, hwaiting, rfl, hmoment, hbefore⟩ := takeReady_eq_some hready
      refine .inr ⟨earlier, queue, later, e, before, after, hqueues, ?_, hwaiting, hbefore,
        hmoment, ?_⟩
      · intro q hq
        exact takeReady_eq_none (hearlier q hq)
      · simp only [dequeue, Action.run, if_neg hclosed, htake]

theorem dequeue_cases (now : Now) (queues : List String) (s : Backlog) :
    (dequeue now queues).run s = ⟨.ok none, s, []⟩ ∨
    ∃ queue entry before after, s.closed = false ∧ queue ∈ queues ∧
      s.waiting = before ++ ⟨queue, entry⟩ :: after ∧ entry.readyAt ≤ now.moment ∧
      (dequeue now queues).run s =
        ⟨.ok (some (delivery queue (s.issued + 1) entry)),
          { s with
            waiting := before ++ after
            inFlight := s.inFlight ++ [((s.issued : Int) + 1, entry)]
            issued := s.issued + 1 }, []⟩ := by
  by_cases hs : s.closed = true
  · exact .inl (by simp only [dequeue, Action.run, if_pos hs])
  · have hopen : s.closed = false := Bool.eq_false_iff.mpr hs
    rcases dequeue_takes hopen now queues with
      ⟨hrun, -⟩ | ⟨earlier, queue, later, entry, before, after, rfl, -, hwaiting, -, hready, hrun⟩
    · exact .inl hrun
    · exact .inr ⟨queue, entry, before, after, hopen, List.mem_append_cons_self, hwaiting, hready,
        hrun⟩

theorem ack_cases (receipt : Receipt) (s : Backlog) :
    (receipt.msgId ∉ s.inFlight.map Prod.fst ∧
      (ack receipt).run s = ⟨.ok (), s, [.notice (.unknownAck receipt.msgId)]⟩) ∨
    ∃ entry before after, s.inFlight = before ++ (receipt.msgId, entry) :: after ∧
      receipt.msgId ∉ before.map Prod.fst ∧
      (ack receipt).run s = ⟨.ok (), { s with inFlight := before ++ after }, []⟩ := by
  cases htake : takeFlight receipt.msgId s.inFlight with
  | none => exact .inl ⟨takeFlight_eq_none.mp htake, by simp only [ack, Action.run, htake]⟩
  | some r =>
      obtain ⟨entry, rest⟩ := r
      obtain ⟨before, after, hflight, rfl, hbefore⟩ := takeFlight_eq_some htake
      exact .inr ⟨entry, before, after, hflight, hbefore, by simp only [ack, Action.run, htake]⟩

/-- Counting one more never overflows below a limit. -/
theorem toNat_add_one {n limit : UInt32} (h : n < limit) : (n + 1).toNat = n.toNat + 1 := by
  rw [UInt32.lt_iff_toNat_lt] at h
  have hlimit := limit.toNat_lt
  have hone : (1 : UInt32).toNat = 1 := rfl
  rw [UInt32.toNat_add, hone]
  omega

def retried (readyAt : Moment) (e : Entry) : Entry :=
  { e with retryCount := e.retryCount + 1, readyAt }

/-- A failed delivery is unknown, or its task is dead, waits again, or is lost because no
clock can show the moment of its next delivery. -/
theorem fail_cases (delay : Span) (now : Now) (receipt : Receipt) (error : String)
    (s : Backlog) :
    (receipt.msgId ∉ s.inFlight.map Prod.fst ∧ (fail delay now receipt error).run s =
      ⟨.settled, s, [.notice (.unknownFail receipt.msgId)]⟩) ∨
    ∃ entry before after, s.inFlight = before ++ (receipt.msgId, entry) :: after ∧
      receipt.msgId ∉ before.map Prod.fst ∧
      ((entry.maxRetry ≤ entry.retryCount ∧ (fail delay now receipt error).run s =
          ⟨.settled, { s with inFlight := before ++ after, dead := s.dead ++ [entry] },
            [.notice (.retriesExhausted entry.taskId receipt.queue error)]⟩) ∨
        (entry.retryCount < entry.maxRetry ∧ after? now.moment delay = none ∧
          (fail delay now receipt error).run s =
            ⟨.aborted, { s with inFlight := before ++ after }, []⟩) ∨
        ∃ readyAt, entry.retryCount < entry.maxRetry ∧ after? now.moment delay = some readyAt ∧
          (fail delay now receipt error).run s =
            ⟨.settled,
              { s with
                inFlight := before ++ after
                waiting := s.waiting ++ [⟨receipt.queue, retried readyAt entry⟩] }, []⟩) := by
  cases htake : takeFlight receipt.msgId s.inFlight with
  | none =>
      exact .inl ⟨takeFlight_eq_none.mp htake,
        by simp only [fail, Action.run, htake]⟩
  | some r =>
      obtain ⟨entry, rest⟩ := r
      obtain ⟨before, after, hflight, rfl, hbefore⟩ := takeFlight_eq_some htake
      refine .inr ⟨entry, before, after, hflight, hbefore, ?_⟩
      by_cases hdead : entry.maxRetry ≤ entry.retryCount
      · exact .inl ⟨hdead, by simp only [fail, Action.run, htake, if_pos hdead]⟩
      · have hlt : entry.retryCount < entry.maxRetry := UInt32.not_le.mp hdead
        cases hready : after? now.moment delay with
        | none =>
            refine .inr (.inl ⟨hlt, rfl, ?_⟩)
            simp only [fail, Action.run, htake, if_neg hdead, hready]
        | some readyAt =>
            refine .inr (.inr ⟨readyAt, hlt, rfl, ?_⟩)
            simp only [fail, Action.run, htake, if_neg hdead, hready, retried]

section

variable {s : Backlog} {receipt : Receipt}

theorem enqueue_state_of_error {id queue : String} {now : Now} {task : Task} {maxRetry : UInt32}
    {fault : Error} (h : ((enqueue id now task queue maxRetry).run s).value = .error fault) :
    ((enqueue id now task queue maxRetry).run s).state = s := by
  rcases enqueue_cases id now task queue maxRetry s with ⟨-, hrun⟩ | ⟨-, hrun⟩
  · rw [hrun]
  · rw [hrun] at h
    cases h

theorem dequeue_state_of_none {now : Now} {queues : List String}
    (h : ((dequeue now queues).run s).value = .ok none) :
    ((dequeue now queues).run s).state = s := by
  rcases dequeue_cases now queues s with hrun | ⟨_, _, _, _, -, -, -, -, hrun⟩
  · rw [hrun]
  · rw [hrun] at h
    cases h

theorem mem_of_split {msgId : Int} {entry : Entry} {before rest : List (Int × Entry)}
    (h : s.inFlight = before ++ (msgId, entry) :: rest) : msgId ∈ s.inFlight.map Prod.fst := by
  have hmem : (msgId, entry) ∈ s.inFlight := by
    rw [h]
    exact List.mem_append_cons_self
  exact List.mem_map.mpr ⟨(msgId, entry), hmem, rfl⟩

theorem ack_state_of_unknown (h : receipt.msgId ∉ s.inFlight.map Prod.fst) :
    ((ack receipt).run s).state = s := by
  rcases ack_cases receipt s with ⟨-, hrun⟩ | ⟨_, _, _, hflight, -⟩
  · rw [hrun]
  · exact absurd (mem_of_split hflight) h

theorem fail_state_of_unknown (h : receipt.msgId ∉ s.inFlight.map Prod.fst) (delay : Span)
    (now : Now) (error : String) : ((fail delay now receipt error).run s).state = s := by
  rcases fail_cases delay now receipt error s with ⟨-, hrun⟩ | ⟨_, _, _, hflight, -⟩
  · rw [hrun]
  · exact absurd (mem_of_split hflight) h

end

end TaskAudit.Backlog
