import Mathlib
import TaskAudit.Proofs.Broker.Conservation

/-!
# What becomes of the deliveries of a task

An account follows a history and keeps what became of every delivery: nobody has reported
it yet, or the first report that found it in flight said that it succeeded or failed. Seen
for one id, an account is a career. All deliveries of the task but the last one failed, and
the last one says where the task is: a delivery in flight, a task that waits for its next
attempt or has none left, or one that is done. Reports with receipts that are used up or
made up find nothing in flight and are no part of any career.
-/
namespace TaskAudit.Backlog

/-- What became of a delivery. -/
inductive Fate where
  | live
  | succeeded
  | failed
  deriving DecidableEq

/-- A delivery and what became of it. -/
abbrev Attempt := Delivery × Fate

/-- A report decides the fate of the delivery with its number, unless that is decided. -/
def settle (msgId : Int) (fate : Fate) (attempts : List Attempt) : List Attempt :=
  attempts.map fun p => if p.1.receipt.msgId = msgId ∧ p.2 = .live then (p.1, fate) else p

@[simp] theorem settle_append (msgId : Int) (fate : Fate) (xs ys : List Attempt) :
    settle msgId fate (xs ++ ys) = settle msgId fate xs ++ settle msgId fate ys :=
  List.map_append

theorem settle_of_decided {attempts : List Attempt} (h : ∀ p ∈ attempts, p.2 ≠ .live) (msgId : Int)
    (fate : Fate) : settle msgId fate attempts = attempts := by
  refine (List.map_congr_left fun p hp => ?_).trans (List.map_id attempts)
  rw [if_neg fun hlive => h p hp hlive.2, id]

/-- The attempts after a report, if the call is one. -/
def Call.settle : Call → List Attempt → List Attempt
  | .ack receipt => Backlog.settle receipt.msgId .succeeded
  | .fail _ receipt _ => Backlog.settle receipt.msgId .failed
  | _ => id

def attemptsAt (id : String) (attempts : List Attempt) : List Attempt :=
  attempts.filter (·.1.context.taskId = some id)

theorem Call.map_fst_settle (call : Call) (attempts : List Attempt) :
    (call.settle attempts).map Prod.fst = attempts.map Prod.fst := by
  have hsettle : ∀ msgId fate, (Backlog.settle msgId fate attempts).map Prod.fst =
      attempts.map Prod.fst := by
    intro msgId fate
    rw [Backlog.settle, List.map_map]
    refine List.map_congr_left fun p _ => ?_
    rw [Function.comp_apply]
    split <;> rfl
  cases call with
  | ack receipt | fail now receipt error => exact hsettle _ _
  | _ => rfl

theorem attemptsAt_settle (id : String) (msgId : Int) (fate : Fate) (attempts : List Attempt) :
    attemptsAt id (settle msgId fate attempts) = settle msgId fate (attemptsAt id attempts) := by
  rw [attemptsAt, settle, List.filter_map]
  refine congrArg _ (List.filter_congr fun p _ => ?_)
  rw [Function.comp_apply]
  split <;> rfl

/-- What the broker holds of a task. -/
structure Holding where
  waiting : List Waiting := []
  inFlight : List (Int × Entry) := []
  dead : List Entry := []

def holding (s : Backlog) (id : String) : Holding where
  waiting := s.waiting.filter (·.entry.taskId = id)
  inFlight := s.inFlight.filter (·.2.taskId = id)
  dead := s.dead.filter (·.taskId = id)

namespace History

/-- The deliveries of a history that an earlier one did not have. -/
def since (later earlier : History) : List Delivery :=
  later.delivered.drop earlier.delivered.length

theorem since_of_same {later earlier : History} (h : later.delivered = earlier.delivered) :
    later.since earlier = [] := by
  rw [since, h, List.drop_length]

/-- What was submitted under an id. -/
def ticket? (h : History) (id : String) : Option Ticket :=
  (h.accepted.find? (·.2.taskId = id)).map Prod.snd

theorem ticket?_eq_none {h : History} {id : String} : h.ticket? id = none ↔ id ∉ h.acceptedIds := by
  simp [ticket?, acceptedIds]

theorem ticket?_of_mem {h : History} (hids : h.acceptedIds.Nodup) {p : String × Ticket}
    (hp : p ∈ h.accepted) : h.ticket? p.2.taskId = some p.2 := by
  have hunique : ∀ q ∈ h.accepted, q.2.taskId = p.2.taskId → q = p := fun q hq heq =>
    List.inj_on_of_nodup_map hids hq hp heq
  obtain ⟨q, hfind⟩ : ∃ q, h.accepted.find? (·.2.taskId = p.2.taskId) = some q :=
    Option.isSome_iff_exists.mp (List.find?_isSome.mpr ⟨p, hp, decide_eq_true rfl⟩)
  have hsame := List.find?_some hfind
  have hq := hunique q (List.mem_of_find?_eq_some hfind) (of_decide_eq_true hsame)
  rw [ticket?, hfind, hq, Option.map_some]

theorem ticket?_of_new {h : History} {call : Call} {calls : List Call}
    (hnew : (h.acceptedIds ++ (call :: calls).filterMap Call.newId?).Nodup) :
    ∀ id ∈ call.newId?, h.ticket? id = none := by
  intro id hid
  rw [ticket?_eq_none]
  intro haccepted
  refine List.disjoint_of_nodup_append hnew haccepted ?_
  exact List.mem_filterMap.mpr ⟨call, List.mem_cons_self, hid⟩

theorem Moves.delivered_append {delay : Span} {h h' : History} {call : Call}
    (hmove : Moves delay h call h') : ∃ ds, h'.delivered = h.delivered ++ ds := by
  cases hmove with
  | delivered _ _ _ _ => exact ⟨_, rfl⟩
  | _ => exact ⟨[], (List.append_nil _).symm⟩

end History

/-- A history and what became of its deliveries. -/
structure Account where
  history : History := {}
  attempts : List Attempt := []

namespace Account

def after (delay : Span) (a : Account) (call : Call) : Account where
  history := a.history.after delay call
  attempts := call.settle a.attempts ++
    ((a.history.after delay call).since a.history).map fun d => (d, .live)

def run (delay : Span) (calls : List Call) (a : Account) : Account := calls.foldl (after delay) a

@[simp] theorem run_nil (delay : Span) (a : Account) : run delay [] a = a := rfl

@[simp] theorem run_cons (delay : Span) (call : Call) (calls : List Call) (a : Account) :
    run delay (call :: calls) a = run delay calls (a.after delay call) := rfl

theorem run_append (delay : Span) (before later : List Call) (a : Account) :
    run delay (before ++ later) a = run delay later (run delay before a) :=
  List.foldl_append

theorem run_history (delay : Span) (calls : List Call) (a : Account) :
    (run delay calls a).history = a.history.run delay calls := by
  induction calls generalizing a with
  | nil => rfl
  | cons call calls ih => exact ih (a.after delay call)

def attemptsOf (a : Account) (id : String) : List Attempt := attemptsAt id a.attempts

/-- No attempt is left out: they are the deliveries of the history. -/
theorem run_attempts (delay : Span) (calls : List Call) (a : Account)
    (ha : a.attempts.map Prod.fst = a.history.delivered) :
    (run delay calls a).attempts.map Prod.fst = (run delay calls a).history.delivered := by
  induction calls generalizing a with
  | nil => exact ha
  | cons call calls ih =>
      refine ih (a.after delay call) ?_
      have hsettle : (call.settle a.attempts).map Prod.fst = a.history.delivered := by
        rw [← ha, call.map_fst_settle]
      obtain ⟨ds, hds⟩ := (History.after_moves delay a.history call).delivered_append
      simp only [after, List.map_append, hsettle, List.map_map, Function.comp_def, List.map_id',
        History.since, hds, List.drop_left]

end Account

/-- A delivery of the task that was delivered `k` times before. -/
structure IsDelivery (t : Ticket) (k : Nat) (d : Delivery) : Prop where
  taskId : d.context.taskId = some t.taskId
  task : d.task = t.task
  contextCount : d.context.retryCount.toNat = k
  contextLimit : d.context.maxRetry = t.maxRetry
  receiptCount : d.receipt.retryCount.toNat = k
  receiptLimit : d.receipt.maxRetry = t.maxRetry

theorem delivery_isDelivery (queue : String) (msgId : Int) (e : Entry) :
    IsDelivery e.ticket e.retryCount.toNat (delivery queue msgId e) :=
  ⟨rfl, rfl, rfl, rfl, rfl, rfl⟩

/-- Are these the first `n` attempts at a task, and did all of them fail? -/
def AllFailed (t : Ticket) (n : Nat) (attempts : List Attempt) : Prop :=
  List.Forall₂ (fun k p => IsDelivery t k p.1 ∧ p.2 = .failed) (List.range n) attempts

section

variable {t : Ticket} {n : Nat} {attempts : List Attempt}

theorem allFailed_zero (t : Ticket) : AllFailed t 0 [] := .nil

theorem AllFailed.length (h : AllFailed t n attempts) : attempts.length = n := by
  rw [← List.Forall₂.length_eq h, List.length_range]

theorem AllFailed.succ (h : AllFailed t n attempts) {d : Delivery} (hd : IsDelivery t n d) :
    AllFailed t (n + 1) (attempts ++ [(d, .failed)]) := by
  rw [AllFailed, List.range_succ]
  exact List.rel_append h (.cons ⟨hd, rfl⟩ .nil)

theorem AllFailed.getElem? (h : AllFailed t n attempts) {k : Nat} {p : Attempt}
    (hp : attempts[k]? = some p) : IsDelivery t k p.1 ∧ p.2 = .failed := by
  obtain ⟨hk, rfl⟩ := List.getElem?_eq_some_iff.mp hp
  have hrange : k < (List.range n).length := by rwa [List.Forall₂.length_eq h]
  have hget := List.Forall₂.get h hrange hk
  simpa using hget

theorem AllFailed.fate (h : AllFailed t n attempts) {p : Attempt} (hp : p ∈ attempts) :
    p.2 = .failed := by
  obtain ⟨k, hk⟩ := List.getElem?_of_mem hp
  exact (h.getElem? hk).2

theorem AllFailed.settle (h : AllFailed t n attempts) (msgId : Int) (fate : Fate) :
    settle msgId fate attempts = attempts :=
  settle_of_decided (fun p hp => by rw [h.fate hp]; exact Fate.noConfusion) msgId fate

/-- What the broker holds of a task, and the attempts at it. -/
inductive Career (id : String) : Option Ticket → Holding → List Attempt → Prop where
  | unknown : Career id none {} []
  | waiting {queue : String} {e : Entry} {attempts} (hid : e.taskId = id)
    (hretries : e.retryCount ≤ e.maxRetry)
    (hfailed : AllFailed e.ticket e.retryCount.toNat attempts) :
    Career id (some e.ticket) { waiting := [⟨queue, e⟩] } attempts
  | flying {queue : String} {msgId : Int} {e : Entry} {attempts} (hid : e.taskId = id)
    (hretries : e.retryCount ≤ e.maxRetry)
    (hfailed : AllFailed e.ticket e.retryCount.toNat attempts) :
    Career id (some e.ticket) { inFlight := [(msgId, e)] }
      (attempts ++ [(delivery queue msgId e, .live)])
  | done {queue : String} {msgId : Int} {e : Entry} {attempts} (hid : e.taskId = id)
    (hretries : e.retryCount ≤ e.maxRetry)
    (hfailed : AllFailed e.ticket e.retryCount.toNat attempts) :
    Career id (some e.ticket) {} (attempts ++ [(delivery queue msgId e, .succeeded)])
  | dead {e : Entry} {attempts} (hid : e.taskId = id)
    (hfailed : AllFailed e.ticket (e.maxRetry.toNat + 1) attempts) :
    Career id (some e.ticket) { dead := [e] } attempts
  | lost {e : Entry} {attempts} (hid : e.taskId = id) (hretries : e.retryCount < e.maxRetry)
    (hfailed : AllFailed e.ticket (e.retryCount.toNat + 1) attempts) :
    Career id (some e.ticket) {} attempts

namespace Career

variable {id queue : String} {ticket : Option Ticket} {held : Holding} {msgId : Int} {e : Entry}

theorem settle_of_ne (h : Career id ticket held attempts) (hne : ∀ f ∈ held.inFlight, f.1 ≠ msgId)
    (fate : Fate) : settle msgId fate attempts = attempts := by
  cases h with
  | unknown => rfl
  | waiting _ _ hfailed | dead _ hfailed | lost _ _ hfailed => exact hfailed.settle msgId fate
  | @flying queue number e _ _ _ hfailed =>
      have hnumber : number ≠ msgId := hne (number, e) (List.mem_singleton_self _)
      rw [settle_append, hfailed.settle]
      simp [settle, delivery, hnumber]
  | done _ _ hfailed =>
      rw [settle_append, hfailed.settle]
      simp [settle]

theorem deliver (h : Career id ticket held attempts) (hw : ⟨queue, e⟩ ∈ held.waiting)
    (msgId : Int) : held = { waiting := [⟨queue, e⟩] } ∧
      Career id ticket { inFlight := [(msgId, e)] }
        (attempts ++ [(delivery queue msgId e, .live)]) := by
  cases h with
  | waiting hid hretries hfailed =>
      cases List.mem_singleton.mp hw
      exact ⟨rfl, .flying hid hretries hfailed⟩
  | unknown | flying _ _ _ | done _ _ _ | dead _ _ | lost _ _ _ => cases hw

theorem flying_eq (h : Career id ticket held attempts) (hf : (msgId, e) ∈ held.inFlight) :
    ticket = some e.ticket ∧ held = { inFlight := [(msgId, e)] } ∧ e.retryCount ≤ e.maxRetry ∧
      ∃ queue earlier, AllFailed e.ticket e.retryCount.toNat earlier ∧
        attempts = earlier ++ [(delivery queue msgId e, .live)] := by
  cases h with
  | @flying queue _ _ earlier hid hretries hfailed =>
      cases List.mem_singleton.mp hf
      exact ⟨rfl, rfl, hretries, queue, earlier, hfailed, rfl⟩
  | unknown | waiting _ _ _ | done _ _ _ | dead _ _ | lost _ _ _ => cases hf

end Career

end

section

variable {a : Account} {delay : Span}

/-- A delivery leaves those in flight, and its task comes to wait again, to be dead, or to
nothing. -/
structure Leaves (s : Backlog) (msgId : Int) (e : Entry) (ws : List Waiting) (ds : List Entry)
    (s' : Backlog) : Prop where
  inFlight : ∃ before rest, s.inFlight = before ++ (msgId, e) :: rest ∧ s'.inFlight = before ++ rest
  waiting : s'.waiting = s.waiting ++ ws
  dead : s'.dead = s.dead ++ ds
  issued : s'.issued = s.issued
  waits : ∀ w ∈ ws, w.entry.taskId = e.taskId
  dies : ∀ d ∈ ds, d.taskId = e.taskId

namespace Leaves

variable {s s' : Backlog} {msgId : Int} {e : Entry} {ws : List Waiting} {ds : List Entry}

theorem mem (h : Leaves s msgId e ws ds s') : (msgId, e) ∈ s.inFlight := by
  obtain ⟨before, rest, hflight, -⟩ := h.inFlight
  rw [hflight]
  exact List.mem_append_cons_self

theorem sublist (h : Leaves s msgId e ws ds s') : s'.inFlight.Sublist s.inFlight := by
  obtain ⟨before, rest, hflight, hrest⟩ := h.inFlight
  rw [hflight, hrest]
  exact around_sublist before rest (msgId, e)

theorem holding_self (h : Leaves s msgId e ws ds s')
    (hheld : s.holding e.taskId = { inFlight := [(msgId, e)] }) :
    s'.holding e.taskId = { waiting := ws, dead := ds } := by
  obtain ⟨before, rest, hflight, hrest⟩ := h.inFlight
  have hcons : ((msgId, e) :: rest).filter (·.2.taskId = e.taskId) =
      (msgId, e) :: rest.filter (·.2.taskId = e.taskId) :=
    List.filter_cons_of_pos (decide_eq_true rfl)
  have hws : ws.filter (·.entry.taskId = e.taskId) = ws :=
    List.filter_eq_self.mpr fun w hw => decide_eq_true (h.waits w hw)
  have hds : ds.filter (·.taskId = e.taskId) = ds :=
    List.filter_eq_self.mpr fun d hd => decide_eq_true (h.dies d hd)
  simp only [holding, Holding.mk.injEq, hflight, List.filter_append, hcons] at hheld
  obtain ⟨hwaiting, hown, hdead⟩ := hheld
  obtain ⟨-, hbefore, hafter⟩ := around_eq_singleton hown
  simp only [holding, hrest, h.waiting, h.dead, List.filter_append, hwaiting, hbefore, hafter,
    hdead, hws, hds, List.nil_append]

theorem holding_of_ne (h : Leaves s msgId e ws ds s') {other : String} (hne : other ≠ e.taskId) :
    s'.holding other = s.holding other := by
  obtain ⟨before, rest, hflight, hrest⟩ := h.inFlight
  have hcons : ((msgId, e) :: rest).filter (·.2.taskId = other) =
      rest.filter (·.2.taskId = other) :=
    List.filter_cons_of_neg (by simpa using hne.symm)
  have hws : ws.filter (·.entry.taskId = other) = [] :=
    List.filter_eq_nil_iff.mpr fun w hw => by simpa [h.waits w hw] using hne.symm
  have hds : ds.filter (·.taskId = other) = [] :=
    List.filter_eq_nil_iff.mpr fun d hd => by simpa [h.dies d hd] using hne.symm
  simp only [holding, hflight, hrest, h.waiting, h.dead, List.filter_append, hcons, hws, hds,
    List.append_nil]

end Leaves

/-- Every id has a career, and numbers of deliveries in flight are used once. -/
structure Kept (a : Account) : Prop where
  careers : ∀ id, Career id (a.history.ticket? id) (a.history.backlog.holding id) (a.attemptsOf id)
  msgIds : (a.history.backlog.inFlight.map Prod.fst).Nodup
  issued : ∀ f ∈ a.history.backlog.inFlight, f.1 ≤ a.history.backlog.issued

namespace Kept

theorem empty : Kept {} := ⟨fun _ => .unknown, List.nodup_nil, nofun⟩

theorem msgId_ne (h : Kept a) {msgId : Int} {e : Entry}
    (he : (msgId, e) ∈ a.history.backlog.inFlight) {other : String} (hne : other ≠ e.taskId) :
    ∀ f ∈ (a.history.backlog.holding other).inFlight, f.1 ≠ msgId := by
  intro f hf hmsgId
  obtain ⟨hf, hother⟩ := List.mem_filter.mp hf
  obtain rfl := List.inj_on_of_nodup_map h.msgIds hf he hmsgId
  exact hne (of_decide_eq_true hother).symm

theorem leave (h : Kept a) {msgId : Int} {e : Entry} {ws : List Waiting} {ds : List Entry}
    {s : Backlog} (hleaves : Leaves a.history.backlog msgId e ws ds s) (acked : List Entry)
    (fate : Fate)
    (hown : ∀ queue earlier, e.retryCount ≤ e.maxRetry →
      AllFailed e.ticket e.retryCount.toNat earlier →
      Career e.taskId (some e.ticket) { waiting := ws, dead := ds }
        (earlier ++ [(delivery queue msgId e, fate)])) :
    Kept
      { history := { a.history with backlog := s, acked }
        attempts := settle msgId fate a.attempts } := by
  refine ⟨fun other => ?_, ?_, ?_⟩
  · have hcareer := h.careers other
    simp only [Account.attemptsOf, attemptsAt_settle, History.ticket?] at hcareer ⊢
    by_cases hother : other = e.taskId
    · subst hother
      have hmem : (msgId, e) ∈ (a.history.backlog.holding e.taskId).inFlight :=
        List.mem_filter.mpr ⟨hleaves.mem, decide_eq_true rfl⟩
      obtain ⟨hticket, hheld, hretries, queue, earlier, hfailed, hattempts⟩ :=
        hcareer.flying_eq hmem
      have hsettle : settle msgId fate (attemptsAt e.taskId a.attempts) =
          earlier ++ [(delivery queue msgId e, fate)] := by
        rw [hattempts, settle_append, hfailed.settle]
        simp [settle, delivery]
      rw [hticket, hleaves.holding_self hheld, hsettle]
      exact hown queue earlier hretries hfailed
    · rw [hleaves.holding_of_ne hother,
        hcareer.settle_of_ne (h.msgId_ne hleaves.mem hother) fate]
      exact hcareer
  · exact h.msgIds.sublist (hleaves.sublist.map Prod.fst)
  · intro f hf
    rw [hleaves.issued]
    exact h.issued f (hleaves.sublist.mem hf)

theorem deliver (h : Kept a) {queue : String} {e : Entry} {before rest : List Waiting}
    (hwaiting : a.history.backlog.waiting = before ++ ⟨queue, e⟩ :: rest) :
    let msgId : Int := a.history.backlog.issued + 1
    Kept
      { history := { a.history with
          backlog.waiting := before ++ rest
          backlog.inFlight := a.history.backlog.inFlight ++ [(msgId, e)]
          backlog.issued := a.history.backlog.issued + 1
          delivered := a.history.delivered ++ [delivery queue msgId e] }
        attempts := a.attempts ++ [(delivery queue msgId e, .live)] } := by
  intro msgId
  refine ⟨fun other => ?_, ?_, ?_⟩
  · have hcareer := h.careers other
    by_cases hother : e.taskId = other
    · have hw : ⟨queue, e⟩ ∈ (a.history.backlog.holding other).waiting := by
        simp only [holding, hwaiting, List.filter_append]
        exact List.mem_append_right _
          (List.mem_filter.mpr ⟨List.mem_cons_self, decide_eq_true hother⟩)
      obtain ⟨hheld, hnew⟩ := hcareer.deliver hw msgId
      have hcons : (⟨queue, e⟩ :: rest).filter (·.entry.taskId = other) =
          ⟨queue, e⟩ :: rest.filter (·.entry.taskId = other) :=
        List.filter_cons_of_pos (decide_eq_true hother)
      simp only [holding, Holding.mk.injEq, hwaiting, List.filter_append, hcons] at hheld
      obtain ⟨hwait, hflight, hdead⟩ := hheld
      obtain ⟨-, hbefore, hrest⟩ := around_eq_singleton hwait
      simpa [holding, Account.attemptsOf, attemptsAt, hbefore, hrest, hflight, hdead, hother,
        delivery, History.ticket?] using hnew
    · simpa [holding, Account.attemptsOf, attemptsAt, hwaiting, hother, delivery, History.ticket?]
        using hcareer
  · rw [List.map_append, List.map_singleton]
    refine h.msgIds.append (List.nodup_singleton _) ?_
    rw [List.disjoint_singleton]
    intro hmem
    obtain ⟨f, hf, hmsgId⟩ := List.mem_map.mp hmem
    have hissued := h.issued f hf
    omega
  · intro f hf
    push_cast
    rcases List.mem_append.mp hf with hf | hf
    · have hissued := h.issued f hf
      omega
    · obtain rfl := List.mem_singleton.mp hf
      exact le_refl _

theorem accept (h : Kept a) {id queue : String} {task : Task} {maxRetry : UInt32}
    (hnew : a.history.ticket? id = none) (readyAt : Moment) :
    Kept { a with
      history.backlog.waiting :=
        a.history.backlog.waiting ++ [⟨queue, ⟨id, task, maxRetry, 0, readyAt⟩⟩]
      history.accepted := a.history.accepted ++ [(queue, ⟨id, task, maxRetry⟩)] } := by
  refine ⟨fun other => ?_, h.msgIds, h.issued⟩
  have hcareer := h.careers other
  by_cases hother : id = other
  · subst hother
    rw [hnew] at hcareer
    generalize hheld : a.history.backlog.holding id = held at hcareer
    generalize hattempts : a.attemptsOf id = attempts at hcareer
    cases hcareer
    simp only [holding, Holding.mk.injEq] at hheld
    simp only [Account.attemptsOf] at hattempts
    have hwaits : Career id (some (⟨id, task, maxRetry, 0, readyAt⟩ : Entry).ticket)
        { waiting := [⟨queue, ⟨id, task, maxRetry, 0, readyAt⟩⟩] } [] :=
      .waiting rfl UInt32.zero_le (allFailed_zero _)
    have hticket := Option.map_eq_none_iff.mp hnew
    simpa [History.ticket?, hticket, holding, hheld.1, hheld.2.1, hheld.2.2, hattempts,
      Account.attemptsOf, Entry.ticket] using hwaits
  · simpa [History.ticket?, holding, hother, Account.attemptsOf] using hcareer

theorem report (h : Kept a) {msgId : Int}
    (hunknown : msgId ∉ a.history.backlog.inFlight.map Prod.fst) (fate : Fate) :
    Kept { a with attempts := settle msgId fate a.attempts } := by
  refine ⟨fun id => ?_, h.msgIds, h.issued⟩
  have hcareer := h.careers id
  have hsettle := hcareer.settle_of_ne (fun f hf hmsgId => hunknown
    (List.mem_map.mpr ⟨f, List.mem_of_mem_filter hf, hmsgId⟩)) fate
  simp only [Account.attemptsOf, attemptsAt_settle] at hcareer hsettle ⊢
  rw [hsettle]
  exact hcareer

/-- Every call keeps every career, if its id is new. -/
theorem after (h : Kept a) {call : Call} (hnew : ∀ id ∈ call.newId?, a.history.ticket? id = none) :
    Kept (a.after delay call) := by
  have hmove := History.after_moves delay a.history call
  rw [Account.after]
  generalize a.history.after delay call = later at hmove ⊢
  -- only a delivery adds an attempt
  have hquiet : later.delivered = a.history.delivered →
      call.settle a.attempts ++ (later.since a.history).map (fun d => (d, Fate.live)) =
        call.settle a.attempts := by
    intro hsame
    rw [History.since_of_same hsame, List.map_nil, List.append_nil]
  cases hmove with
  | refused _ | idle =>
      rw [hquiet rfl]
      exact h
  | closed =>
      rw [hquiet rfl]
      exact ⟨h.careers, h.msgIds, h.issued⟩
  | @accepted id now _ _ _ _ =>
      rw [hquiet rfl]
      exact h.accept (hnew id rfl) now.moment
  | delivered _ _ _ hwaiting =>
      rw [History.since, List.drop_left, List.map_singleton]
      exact h.deliver hwaiting
  | ackUnknown hunknown | failUnknown hunknown =>
      rw [hquiet rfl]
      exact h.report hunknown _
  | @acked receipt e before rest hflight =>
      rw [hquiet rfl]
      have hleaves : Leaves a.history.backlog receipt.msgId e [] []
          { a.history.backlog with inFlight := before ++ rest } :=
        ⟨⟨before, rest, hflight, rfl⟩, by simp, by simp, rfl, nofun, nofun⟩
      exact h.leave hleaves _ .succeeded fun _ _ hretries hfailed => .done rfl hretries hfailed
  | @buried now receipt error e before rest hflight hretries =>
      rw [hquiet rfl]
      have hleaves : Leaves a.history.backlog receipt.msgId e [] [e]
          { a.history.backlog with
            inFlight := before ++ rest
            dead := a.history.backlog.dead ++ [e] } :=
        ⟨⟨before, rest, hflight, rfl⟩, by simp, rfl, rfl, nofun, by simp⟩
      refine h.leave hleaves _ .failed fun queue _ hle hfailed => ?_
      have hcount : e.retryCount = e.maxRetry := UInt32.le_antisymm hle hretries
      have hdead := hfailed.succ (delivery_isDelivery queue receipt.msgId e)
      rw [hcount] at hdead
      exact .dead rfl hdead
  | @lost now receipt error e before rest hflight hretries _ =>
      rw [hquiet rfl]
      have hleaves : Leaves a.history.backlog receipt.msgId e [] []
          { a.history.backlog with inFlight := before ++ rest } :=
        ⟨⟨before, rest, hflight, rfl⟩, by simp, by simp, rfl, nofun, nofun⟩
      refine h.leave hleaves _ .failed fun queue _ _ hfailed => ?_
      exact .lost rfl hretries (hfailed.succ (delivery_isDelivery queue receipt.msgId e))
  | @retried now receipt error e before rest readyAt hflight hretries _ =>
      rw [hquiet rfl]
      have hleaves : Leaves a.history.backlog receipt.msgId e
          [⟨receipt.queue, Backlog.retried readyAt e⟩] []
          { a.history.backlog with
            inFlight := before ++ rest
            waiting := a.history.backlog.waiting ++
              [⟨receipt.queue, Backlog.retried readyAt e⟩] } :=
        ⟨⟨before, rest, hflight, rfl⟩, rfl, by simp, rfl, by simp [Backlog.retried], nofun⟩
      refine h.leave hleaves _ .failed fun queue _ _ hfailed => ?_
      have hcount : (Backlog.retried readyAt e).retryCount.toNat = e.retryCount.toNat + 1 :=
        toNat_add_one hretries
      have hwaits := hfailed.succ (delivery_isDelivery queue receipt.msgId e)
      rw [← hcount] at hwaits
      exact .waiting rfl (History.retried_retries hretries readyAt) hwaits

/-- Every run keeps every career. -/
theorem run (h : Kept a) {calls : List Call}
    (hnew : (a.history.acceptedIds ++ calls.filterMap Call.newId?).Nodup) :
    Kept (Account.run delay calls a) := by
  induction calls generalizing a with
  | nil => exact h
  | cons call calls ih =>
      have hafter : Kept (a.after delay call) := h.after (History.ticket?_of_new hnew)
      exact ih hafter (History.nodup_after hnew)

end Kept

end

end TaskAudit.Backlog
