import Mathlib
import TaskAudit.Proofs.Broker.Budget
import TaskAudit.Proofs.Broker.Letters

/-!
# The deliveries of a message

What the broker over message queues makes of a message whose deliveries are reported in time
is a career like those of the broker in memory. The message is a task that waits, one in
flight from its delivery to the report of that, and one that is over when it is gone. The
count of its readings is the number of its deliveries, so these say how often the task failed
before.
-/
namespace TaskAudit

namespace Backlog

/-- Does the broker hold nothing of a task that could be delivered? -/
def Holding.IsIdle (held : Holding) : Prop := held.waiting = [] ∧ held.inFlight = []

/-- A task is over when a delivery of it succeeded, or all that it may have failed. -/
def IsOver (limit : Nat) (fates : List Fate) : Prop :=
  .succeeded ∈ fates ∨ fates = List.replicate (limit + 1) .failed

section

variable {id : String} {t : Ticket} {n : Nat} {held : Holding} {attempts : List Attempt}

theorem AllFailed.fates (h : AllFailed t n attempts) :
    attempts.map Prod.snd = List.replicate n .failed := by
  rw [List.eq_replicate_iff, List.length_map, h.length]
  refine ⟨rfl, fun fate hfate => ?_⟩
  obtain ⟨p, hp, rfl⟩ := List.mem_map.mp hfate
  exact h.fate hp

theorem AllFailed.not_isOver (h : AllFailed t n attempts) {limit : Nat} (hn : n ≤ limit) :
    ¬ IsOver limit (attempts.map Prod.snd) := by
  rw [h.fates]
  rintro (hmem | heq)
  · cases (List.mem_replicate.mp hmem).2
  · have hlength := congrArg List.length heq
    rw [List.length_replicate, List.length_replicate] at hlength
    omega

theorem not_isOver_live (limit : Nat) (hfailed : AllFailed t n attempts) (d : Delivery) :
    ¬ IsOver limit ((attempts ++ [(d, Fate.live)]).map Prod.snd) := by
  rw [List.map_append, hfailed.fates]
  rintro (hmem | heq)
  · rcases List.mem_append.mp hmem with hmem | hmem
    · cases (List.mem_replicate.mp hmem).2
    · cases List.mem_singleton.mp hmem
  · have hlive : Fate.live ∈ List.replicate (limit + 1) Fate.failed := by
      rw [← heq]
      exact List.mem_append_right _ List.mem_cons_self
    cases (List.mem_replicate.mp hlive).2

theorem Career.idle_of_isOver (h : Career id (some t) held attempts)
    (hover : IsOver t.maxRetry.toNat (attempts.map Prod.snd)) : held.IsIdle := by
  cases h with
  | waiting _ hretries hfailed =>
      exact absurd hover (hfailed.not_isOver (UInt32.le_iff_toNat_le.mp hretries))
  | flying _ _ hfailed => exact absurd hover (not_isOver_live _ hfailed _)
  | done _ _ _ | dead _ _ | lost _ _ _ => exact ⟨rfl, rfl⟩

/-- A dead task failed as often as it may. -/
theorem Career.dead_iff_fates (h : Career id (some t) held attempts) :
    held.dead ≠ [] ↔ attempts.map Prod.snd = List.replicate (t.maxRetry.toNat + 1) .failed := by
  rcases h.attempts_cases with
    ⟨n, -, hfailed, hdead⟩ | ⟨n, earlier, d, fate, -, -, -, hfate, rfl, hdead⟩
  · rw [hdead, hfailed.fates]
    refine ⟨fun heq => by rw [heq], fun heq => ?_⟩
    simpa using congrArg List.length heq
  · simp only [hdead, ne_eq, not_true_eq_false, false_iff, List.map_append]
    intro heq
    have hmem : fate ∈ List.replicate (t.maxRetry.toNat + 1) Fate.failed := by
      rw [← heq]
      exact List.mem_append_right _ List.mem_cons_self
    exact hfate (List.mem_replicate.mp hmem).2

theorem Career.exists_live (h : Career id (some t) held attempts) (hflight : held.inFlight ≠ []) :
    ∃ p ∈ attempts, p.2 = .live := by
  cases h with
  | flying _ _ _ => exact ⟨_, List.mem_append_right _ List.mem_cons_self, rfl⟩
  | waiting _ _ _ | done _ _ _ | dead _ _ | lost _ _ _ => exact absurd rfl hflight

theorem Career.waiting_of (h : Career id (some t) held attempts) (hidle : ¬ held.IsIdle)
    (hflight : held.inFlight = []) :
    ∃ e : Entry, e.taskId = id ∧ e.ticket = t ∧ e.retryCount ≤ e.maxRetry ∧
      AllFailed e.ticket e.retryCount.toNat attempts := by
  cases h with
  | @waiting queue e _ hid hretries hfailed => exact ⟨e, hid, rfl, hretries, hfailed⟩
  | flying _ _ _ => cases hflight
  | done _ _ _ | dead _ _ | lost _ _ _ => exact absurd ⟨rfl, rfl⟩ hidle

/-- If the last delivery of a task is live, it is in flight, and all before it failed. -/
theorem Career.of_live {d : Delivery}
    (h : Career id (some t) held (attempts ++ [(d, Fate.live)])) :
    ∃ (queue : String) (msgId : Int) (e : Entry), e.taskId = id ∧ e.ticket = t ∧
      d = delivery queue msgId e ∧ held = { inFlight := [(msgId, e)] } ∧
      e.retryCount ≤ e.maxRetry ∧ AllFailed e.ticket e.retryCount.toNat attempts := by
  have hlast : ((d, Fate.live) : Attempt) ∈ attempts ++ [(d, Fate.live)] :=
    List.mem_append_right _ List.mem_cons_self
  generalize hall : attempts ++ [(d, Fate.live)] = all at h hlast
  cases h with
  | waiting _ _ hfailed | dead _ hfailed | lost _ _ hfailed => cases hfailed.fate hlast
  | @flying queue msgId e earlier hid hretries hfailed =>
      obtain ⟨rfl, hd⟩ := List.append_inj' hall rfl
      obtain rfl : d = delivery queue msgId e := congrArg Prod.fst (List.cons.inj hd).1
      exact ⟨queue, msgId, e, hid, rfl, rfl, rfl, hretries, hfailed⟩
  | done _ _ hfailed =>
      obtain ⟨rfl, hd⟩ := List.append_inj' hall rfl
      cases congrArg Prod.snd (List.cons.inj hd).1

end

end Backlog

/-- What a delivery says about retries, in its context and in its receipt. -/
def Delivery.counts (d : Delivery) : (UInt32 × UInt32) × (UInt32 × UInt32) :=
  ((d.context.retryCount, d.context.maxRetry), (d.receipt.retryCount, d.receipt.maxRetry))

namespace Backlog

theorem Career.counts_eq {id id' : String} {t t' : Ticket} {held held' : Holding}
    {attempts attempts' : List Attempt} (h : Career id (some t) held attempts)
    (h' : Career id' (some t') held' attempts') (hlimit : t.maxRetry = t'.maxRetry)
    (hlength : attempts.length = attempts'.length) :
    attempts.map (·.1.counts) = attempts'.map (·.1.counts) := by
  refine List.ext_getElem (by simpa using hlength) fun k hk hk' => ?_
  rw [List.length_map] at hk hk'
  have hd := h.isDelivery (List.getElem?_eq_getElem hk)
  have hd' := h'.isDelivery (List.getElem?_eq_getElem hk')
  have hcontext := UInt32.toNat_inj.mp (hd.contextCount.trans hd'.contextCount.symm)
  have hreceipt := UInt32.toNat_inj.mp (hd.receiptCount.trans hd'.receiptCount.symm)
  rw [List.getElem_map, List.getElem_map, Delivery.counts, Delivery.counts, hcontext, hreceipt,
    hd.contextLimit, hd'.contextLimit, hd.receiptLimit, hd'.receiptLimit, hlimit]

end Backlog

/-- The part of a task that its envelope settles. -/
def Envelope.ticket (e : Envelope) (id : String) : Ticket :=
  ⟨id, ⟨e.taskType, e.payload.compact.toUTF8⟩, e.maxRetry⟩

namespace Messages

open Backlog (Fate)

section

variable {δ : Type} {server : QueueServer δ} (law : server.Law) (settings : Settings)
  (queue : String) (msgId : Int)

/-- What can happen to a server and a message in it, with the attempts at its task so far.
Anything else that happens changes at most whether the message is in sight. A delivery is
reported once, with its own receipt, and until then the message stays out of sight. -/
inductive Step : δ × List Backlog.Attempt → δ × List Backlog.Attempt → Prop where
  | meanwhile {s s' : δ} {attempts : List Backlog.Attempt} (hsound : law.IsSound s')
    (hletter : ∃ inSight, law.letter? s' queue msgId =
      (law.letter? s queue msgId).map fun l => { l with inSight })
    (htimeout : (∃ p ∈ attempts, p.2 = .live) →
      ∀ l ∈ law.letter? s' queue msgId, l.inSight = false) :
    Step (s, attempts) (s', attempts)
  | polled {s s' : δ} {queues : List String} {answer : Option Delivery}
    {attempts : List Backlog.Attempt}
    (hanswer : ((dequeue server settings queues).run s).Answers answer s')
    (hother : ∀ d ∈ answer, ¬ Delivery.IsOf d queue msgId) :
    Step (s, attempts) (s', attempts)
  | delivered {s s' : δ} {queues : List String} {d : Delivery} {attempts : List Backlog.Attempt}
    (hanswer : ((dequeue server settings queues).run s).Answers (some d) s')
    (hof : d.IsOf queue msgId) (htimeout : ∀ l ∈ law.letter? s' queue msgId, l.inSight = false) :
    Step (s, attempts) (s', attempts ++ [(d, Fate.live)])
  | acked {s s' : δ} {d : Delivery} {earlier : List Backlog.Attempt}
    (hanswer : ((ack server d.receipt).run s).Answers () s') :
    Step (s, earlier ++ [(d, Fate.live)]) (s', earlier ++ [(d, Fate.succeeded)])
  | failed {s s' : δ} {d : Delivery} {error : String} {earlier : List Backlog.Attempt}
    (hanswer : ((fail server settings d.receipt error).run s).Answers () s') :
    Step (s, earlier ++ [(d, Fate.live)]) (s', earlier ++ [(d, Fate.failed)])

abbrev Course : δ × List Backlog.Attempt → δ × List Backlog.Attempt → Prop :=
  Relation.ReflTransGen (Step law settings queue msgId)

end

section

variable {δ : Type} {server : QueueServer δ} {law : server.Law} {settings : Settings}
  {queue : String} {msgId : Int} {envelope : Envelope} {id : String}
  {s s' : δ} {attempts attempts' : List Backlog.Attempt} {held : Backlog.Holding}

/-- The attempts at the task of a message, as a career of what is held of it. -/
structure Follows (law : server.Law) (queue : String) (msgId : Int) (envelope : Envelope)
    (id : String) (s : δ) (attempts : List Backlog.Attempt) (held : Backlog.Holding) : Prop where
  sound : law.IsSound s
  career : Backlog.Career id (some (envelope.ticket id)) held attempts
  gone : law.letter? s queue msgId = none ↔ held.IsIdle
  body : ∀ l ∈ law.letter? s queue msgId, envelope.IsReadIn l.body
  reads : ∀ l ∈ law.letter? s queue msgId, l.reads = attempts.length
  hidden : ∀ l ∈ law.letter? s queue msgId, held.inFlight ≠ [] → l.inSight = false
  ended : held.IsIdle → Backlog.IsOver envelope.maxRetry.toNat (attempts.map Prod.snd)
  own : ∀ p ∈ attempts, p.1.IsOf queue msgId

theorem Follows.start (hs : law.IsSound s) {body : String} (hbody : envelope.IsReadIn body)
    {inSight : Bool} (hletter : law.letter? s queue msgId = some ⟨0, inSight, body⟩) :
    Follows law queue msgId envelope id s []
      { waiting := [⟨queue, ⟨id, (envelope.ticket id).task, envelope.maxRetry, 0, 0⟩⟩] } := by
  have hfailed : Backlog.AllFailed (envelope.ticket id) (0 : UInt32).toNat [] :=
    Backlog.allFailed_zero _
  constructor
  case sound => exact hs
  case career =>
    exact .waiting (e := ⟨id, (envelope.ticket id).task, envelope.maxRetry, 0, 0⟩) rfl
      UInt32.zero_le hfailed
  case gone => simp [hletter, Backlog.Holding.IsIdle]
  case body =>
    intro l hl
    obtain rfl := Option.some.inj (hletter.symm.trans hl)
    exact hbody
  case reads =>
    intro l hl
    obtain rfl := Option.some.inj (hletter.symm.trans hl)
    rfl
  case hidden => exact fun _ _ hflight => absurd rfl hflight
  case ended => exact fun hidle => by cases hidle.1
  case own => exact fun _ hp => absurd hp List.not_mem_nil

namespace Follows

theorem same {attempts' : List Backlog.Attempt} {held' : Backlog.Holding}
    (hf : Follows law queue msgId envelope id s attempts held) (hsound : law.IsSound s')
    (hletter : (law.letter? s' queue msgId).map (fun l => (l.reads, l.body)) =
      (law.letter? s queue msgId).map fun l => (l.reads, l.body))
    (hcareer : Backlog.Career id (some (envelope.ticket id)) held' attempts')
    (hlength : attempts'.length = attempts.length) (hidle : held'.IsIdle ↔ held.IsIdle)
    (hhidden : ∀ l ∈ law.letter? s' queue msgId, held'.inFlight ≠ [] → l.inSight = false)
    (hended : held'.IsIdle → Backlog.IsOver envelope.maxRetry.toNat (attempts'.map Prod.snd))
    (hown : ∀ p ∈ attempts', p.1.IsOf queue msgId) :
    Follows law queue msgId envelope id s' attempts' held' := by
  have hbefore : ∀ l' ∈ law.letter? s' queue msgId, ∃ l ∈ law.letter? s queue msgId,
      l.reads = l'.reads ∧ l.body = l'.body := by
    intro l' hl'
    have hpair : (law.letter? s queue msgId).map (fun l => (l.reads, l.body)) =
        some (l'.reads, l'.body) := by
      rw [← hletter, Option.mem_def.mp hl', Option.map_some]
    obtain ⟨l, hl, heq⟩ := Option.map_eq_some_iff.mp hpair
    exact ⟨l, hl, Prod.mk.inj heq⟩
  constructor
  case sound => exact hsound
  case career => exact hcareer
  case gone => rw [hidle, ← hf.gone, ← Option.map_eq_none_iff, hletter, Option.map_eq_none_iff]
  case body =>
    intro l' hl'
    obtain ⟨l, hl, -, hsame⟩ := hbefore l' hl'
    exact hsame ▸ hf.body l hl
  case reads =>
    intro l' hl'
    obtain ⟨l, hl, hsame, -⟩ := hbefore l' hl'
    rw [← hsame, hf.reads l hl, hlength]
  case hidden => exact hhidden
  case ended => exact hended
  case own => exact hown

theorem unread (hf : Follows law queue msgId envelope id s attempts held) (hsound : law.IsSound s')
    (hletter : ∃ inSight, law.letter? s' queue msgId =
      (law.letter? s queue msgId).map fun l => { l with inSight })
    (htimeout : (∃ p ∈ attempts, p.2 = .live) →
      ∀ l ∈ law.letter? s' queue msgId, l.inSight = false) :
    Follows law queue msgId envelope id s' attempts held := by
  obtain ⟨inSight, hletter⟩ := hletter
  refine hf.same hsound ?_ hf.career rfl Iff.rfl ?_ hf.ended hf.own
  · rw [hletter, Option.map_map]
    rfl
  · exact fun l hl hflight => htimeout (hf.career.exists_live hflight) l hl

theorem passed (hf : Follows law queue msgId envelope id s attempts held) (hsound : law.IsSound s')
    (hletter : law.letter? s' queue msgId = law.letter? s queue msgId) :
    Follows law queue msgId envelope id s' attempts held := by
  refine hf.same hsound ?_ hf.career rfl Iff.rfl ?_ hf.ended hf.own
  · rw [hletter]
  · rw [hletter]
    exact hf.hidden

/-- A delivery takes its count from the reading: that is how often the task failed before. -/
theorem delivery_eq {e : Entry} {m : Message} (hid : envelope.taskId = some id)
    (hticket : e.ticket = envelope.ticket id) (hm : m.readCount.toInt = e.retryCount.toNat + 1) :
    delivery queue m envelope = Backlog.delivery queue m.msgId e := by
  have hcount : retryCount m = e.retryCount := by
    have hnat : (m.readCount.toInt - 1).toNat = e.retryCount.toNat := by omega
    rw [retryCount, hnat, UInt32.ofNat_toNat]
  obtain ⟨rfl, htask, hlimit⟩ := Ticket.mk.inj hticket
  rw [delivery, Backlog.delivery, hcount, htask, hlimit, hid]

theorem delivered (hf : Follows law queue msgId envelope id s attempts held)
    (hid : envelope.taskId = some id) {l : Letter} {m : Message}
    (hletter : law.letter? s queue msgId = some l) (hsight : l.inSight = true)
    (hm : m.msgId = msgId)
    (hreads : m.readCount.toInt = l.reads + 1 ∧ ∃ inSight,
      law.letter? s' queue msgId = some { l with reads := l.reads + 1, inSight })
    (hsound : law.IsSound s') (htimeout : ∀ l ∈ law.letter? s' queue msgId, l.inSight = false) :
    ∃ held', Follows law queue msgId envelope id s'
      (attempts ++ [(delivery queue m envelope, Fate.live)]) held' := by
  have hidle : ¬ held.IsIdle := by
    rw [← hf.gone, hletter]
    exact Option.some_ne_none l
  have hflight : held.inFlight = [] := by
    by_contra hflying
    rw [hf.hidden l hletter hflying] at hsight
    cases hsight
  obtain ⟨e, hown, hticket, hretries, hfailed⟩ := hf.career.waiting_of hidle hflight
  obtain ⟨hcount, inSight, hafter⟩ := hreads
  have hlength : l.reads = attempts.length := hf.reads l hletter
  have hdelivery : delivery queue m envelope = Backlog.delivery queue msgId e := by
    rw [hlength, hfailed.length] at hcount
    rw [delivery_eq hid hticket hcount, hm]
  rw [hdelivery]
  refine ⟨{ inFlight := [(msgId, e)] }, ?_⟩
  constructor
  case sound => exact hsound
  case career =>
    rw [← hticket]
    exact .flying hown hretries hfailed
  case gone => simp [hafter, Backlog.Holding.IsIdle]
  case body =>
    intro _ hl
    obtain rfl := Option.some.inj (hafter.symm.trans hl)
    exact hf.body l hletter
  case reads =>
    intro _ hl
    obtain rfl := Option.some.inj (hafter.symm.trans hl)
    simp [hlength]
  case hidden => exact fun l hl _ => htimeout l hl
  case ended => exact fun hidle => by cases hidle.2
  case own =>
    intro p hp
    rcases List.mem_append.mp hp with hp | hp
    · exact hf.own p hp
    · obtain rfl := List.mem_singleton.mp hp
      exact ⟨rfl, rfl⟩

section

variable {earlier : List Backlog.Attempt} {d : Delivery} {fate : Fate}
  {held' : Backlog.Holding}

theorem own_report (hf : Follows law queue msgId envelope id s (earlier ++ [(d, Fate.live)]) held) :
    ∀ p ∈ earlier ++ [(d, fate)], p.1.IsOf queue msgId := by
  intro p hp
  rcases List.mem_append.mp hp with hp | hp
  · exact hf.own p (List.mem_append_left _ hp)
  · obtain rfl := List.mem_singleton.mp hp
    exact hf.own (d, Fate.live) (List.mem_append_right _ List.mem_cons_self)

theorem archived (hf : Follows law queue msgId envelope id s (earlier ++ [(d, Fate.live)]) held)
    (hsound : law.IsSound s') (hletter : law.letter? s' queue msgId = none)
    (hcareer : Backlog.Career id (some (envelope.ticket id)) held' (earlier ++ [(d, fate)]))
    (hidle : held'.IsIdle)
    (hended : Backlog.IsOver envelope.maxRetry.toNat ((earlier ++ [(d, fate)]).map Prod.snd)) :
    Follows law queue msgId envelope id s' (earlier ++ [(d, fate)]) held' := by
  have hnone : ∀ l, l ∉ law.letter? s' queue msgId := by
    intro l hl
    rw [hletter] at hl
    cases hl
  constructor
  case sound => exact hsound
  case career => exact hcareer
  case gone => exact ⟨fun _ => hidle, fun _ => hletter⟩
  case body => exact fun l hl => absurd hl (hnone l)
  case reads => exact fun l hl => absurd hl (hnone l)
  case hidden => exact fun l hl => absurd hl (hnone l)
  case ended => exact fun _ => hended
  case own => exact hf.own_report

theorem hiddenAgain (hf : Follows law queue msgId envelope id s (earlier ++ [(d, Fate.live)]) held)
    (hflight : ¬ held.IsIdle) (hsound : law.IsSound s')
    (hletter : ∃ inSight, law.letter? s' queue msgId =
      (law.letter? s queue msgId).map fun l => { l with inSight })
    (hcareer : Backlog.Career id (some (envelope.ticket id)) held' (earlier ++ [(d, fate)]))
    (hwaits : held'.waiting ≠ []) (hlanded : held'.inFlight = []) :
    Follows law queue msgId envelope id s' (earlier ++ [(d, fate)]) held' := by
  obtain ⟨inSight, hletter⟩ := hletter
  have hidle : ¬ held'.IsIdle := fun hidle => hwaits hidle.1
  refine hf.same hsound ?_ hcareer ?_ (iff_of_false hidle hflight) ?_ ?_ hf.own_report
  · rw [hletter, Option.map_map]
    rfl
  · rw [List.length_append, List.length_append, List.length_singleton, List.length_singleton]
  · exact fun _ _ hflying => absurd hlanded hflying
  · exact fun h => absurd h hidle

end

theorem acked {earlier : List Backlog.Attempt} {d : Delivery}
    (hf : Follows law queue msgId envelope id s (earlier ++ [(d, Fate.live)]) held)
    (hanswer : ((ack server d.receipt).run s).Answers () s') :
    ∃ held', Follows law queue msgId envelope id s' (earlier ++ [(d, Fate.succeeded)]) held' := by
  obtain ⟨hqueue, hnumber⟩ :=
    hf.own (d, Fate.live) (List.mem_append_right _ List.mem_cons_self)
  obtain ⟨hsound, hletter⟩ := ack_letter law hf.sound hanswer
  rw [hqueue, hnumber] at hletter
  obtain ⟨q, n, e, hown, hticket, rfl, -, hretries, hfailed⟩ := hf.career.of_live
  have hcareer : Backlog.Career id (some (envelope.ticket id)) {}
      (earlier ++ [(Backlog.delivery q n e, Fate.succeeded)]) := by
    rw [← hticket]
    exact .done hown hretries hfailed
  refine ⟨{}, hf.archived hsound hletter hcareer ⟨rfl, rfl⟩ (.inl ?_)⟩
  rw [List.map_append]
  exact List.mem_append_right _ List.mem_cons_self

theorem failed {earlier : List Backlog.Attempt} {d : Delivery} {error : String}
    (hf : Follows law queue msgId envelope id s (earlier ++ [(d, Fate.live)]) held)
    (hanswer : ((fail server settings d.receipt error).run s).Answers () s') :
    ∃ held', Follows law queue msgId envelope id s' (earlier ++ [(d, Fate.failed)]) held' := by
  obtain ⟨hqueue, hnumber⟩ :=
    hf.own (d, Fate.live) (List.mem_append_right _ List.mem_cons_self)
  obtain ⟨hsound, hletter⟩ := fail_letter law hf.sound hanswer
  rw [hqueue, hnumber] at hletter
  obtain ⟨q, n, e, hown, hticket, rfl, hheld, hretries, hfailed⟩ := hf.career.of_live
  have hmore := hfailed.succ (Backlog.delivery_isDelivery q n e)
  rcases hletter with ⟨hlast, hnone⟩ | ⟨hleft, hsame⟩
  · -- the count is the limit, so this was the last delivery that the task may have
    have hcount : e.retryCount = e.maxRetry := UInt32.le_antisymm hretries hlast
    rw [hcount] at hmore
    have hcareer : Backlog.Career id (some (envelope.ticket id)) { dead := [e] }
        (earlier ++ [(Backlog.delivery q n e, Fate.failed)]) := by
      rw [← hticket]
      exact .dead hown hmore
    refine ⟨_, hf.archived hsound hnone hcareer ⟨rfl, rfl⟩ (.inr ?_)⟩
    have hlimit : e.maxRetry = envelope.maxRetry := congrArg Ticket.maxRetry hticket
    rw [hmore.fates, hlimit]
  · have hcount : (Backlog.retried 0 e).retryCount.toNat = e.retryCount.toNat + 1 :=
      Backlog.toNat_add_one hleft
    rw [← hcount] at hmore
    have hcareer : Backlog.Career id (some (envelope.ticket id))
        { waiting := [⟨queue, Backlog.retried 0 e⟩] }
        (earlier ++ [(Backlog.delivery q n e, Fate.failed)]) := by
      rw [← hticket]
      exact Backlog.Career.waiting (e := Backlog.retried 0 e) hown
        (Backlog.History.retried_retries hleft 0) hmore
    have hflight : ¬ held.IsIdle := by
      rw [hheld]
      exact fun hidle => by cases hidle.2
    exact ⟨_, hf.hiddenAgain hflight hsound hsame hcareer (List.cons_ne_nil _ _) rfl⟩

/-- Every step keeps the career of the message, as long as its readings can be counted. -/
theorem step (hid : envelope.taskId = some id)
    (hf : Follows law queue msgId envelope id s attempts held)
    (hstep : Step law settings queue msgId (s, attempts) (s', attempts'))
    (hlength : attempts'.length < 2 ^ 31) :
    ∃ held', Follows law queue msgId envelope id s' attempts' held' := by
  cases hstep with
  | meanwhile hsound hletter htimeout => exact ⟨held, hf.unread hsound hletter htimeout⟩
  | polled hanswer hother =>
      obtain ⟨hsound, hpolls⟩ := dequeue_polls law hf.sound hf.body hanswer
      exact ⟨held, hf.passed hsound (hpolls.eq_of_other hother)⟩
  | delivered hanswer hof htimeout =>
      obtain ⟨hsound, hpolls⟩ := dequeue_polls law hf.sound hf.body hanswer
      obtain ⟨l, m, rfl, hletter, hsight, hm, hreads⟩ := hpolls.of_own hof
      have hfit : l.reads + 1 < 2 ^ 31 := by
        rw [hf.reads l hletter]
        simpa using hlength
      exact hf.delivered hid hletter hsight hm (hreads hfit) hsound htimeout
  | acked hanswer => exact hf.acked hanswer
  | failed hanswer => exact hf.failed hanswer

end Follows

theorem Step.length_le (h : Step law settings queue msgId (s, attempts) (s', attempts')) :
    attempts.length ≤ attempts'.length := by
  cases h with
  | meanwhile _ _ _ | polled _ _ => exact le_refl _
  | delivered _ _ _ | acked _ | failed _ => simp

/-- Every course keeps the career of the message, as long as its readings can be counted. -/
theorem Follows.course (hid : envelope.taskId = some id)
    (hf : Follows law queue msgId envelope id s attempts held)
    (hcourse : Course law settings queue msgId (s, attempts) (s', attempts'))
    (hlength : attempts'.length < 2 ^ 31) :
    ∃ held', Follows law queue msgId envelope id s' attempts' held' := by
  generalize hend : (s', attempts') = last at hcourse
  induction hcourse generalizing s' attempts' with
  | refl =>
      cases hend
      exact ⟨held, hf⟩
  | @tail middle last _ hstep ih =>
      subst hend
      obtain ⟨earlier, before⟩ := middle
      have hshorter := hstep.length_le
      obtain ⟨held', hbefore⟩ := ih (by omega) rfl
      exact hbefore.step hid hstep hlength

/-- A message that is gone and whose deliveries are all reported is delivered no more. -/
theorem Step.eq_of_gone (hs : law.IsSound s) (hgone : law.letter? s queue msgId = none)
    (hdecided : ∀ p ∈ attempts, p.2 ≠ .live)
    (h : Step law settings queue msgId (s, attempts) (s', attempts')) :
    law.IsSound s' ∧ law.letter? s' queue msgId = none ∧ attempts' = attempts := by
  -- there is no text, so any envelope is the one in it
  have hbody : ∀ l ∈ law.letter? s queue msgId, Envelope.IsReadIn ⟨none, "", .null, 0⟩ l.body := by
    rw [hgone]
    exact nofun
  cases h with
  | meanwhile hsound hletter _ =>
      obtain ⟨inSight, hletter⟩ := hletter
      refine ⟨hsound, ?_, rfl⟩
      rw [hletter, hgone, Option.map_none]
  | polled hanswer hother =>
      obtain ⟨hsound, hpolls⟩ := dequeue_polls law hs hbody hanswer
      exact ⟨hsound, (hpolls.eq_of_other hother).trans hgone, rfl⟩
  | delivered hanswer hof _ =>
      obtain ⟨-, hpolls⟩ := dequeue_polls law hs hbody hanswer
      obtain ⟨l, m, -, hletter, -⟩ := hpolls.of_own hof
      rw [hgone] at hletter
      cases hletter
  | acked _ | failed _ =>
      exact absurd rfl (hdecided _ (List.mem_append_right _ List.mem_cons_self))

theorem Course.eq_of_gone (hs : law.IsSound s) (hgone : law.letter? s queue msgId = none)
    (hdecided : ∀ p ∈ attempts, p.2 ≠ .live)
    (h : Course law settings queue msgId (s, attempts) (s', attempts')) :
    attempts' = attempts := by
  suffices hkept : law.IsSound s' ∧ law.letter? s' queue msgId = none ∧ attempts' = attempts from
    hkept.2.2
  generalize hend : (s', attempts') = last at h
  induction h generalizing s' attempts' with
  | refl =>
      cases hend
      exact ⟨hs, hgone, rfl⟩
  | @tail middle last _ hstep ih =>
      subst hend
      obtain ⟨earlier, before⟩ := middle
      obtain ⟨hsound, hnone, rfl⟩ := ih rfl
      exact hstep.eq_of_gone hsound hnone hdecided

end

end Messages

end TaskAudit
