import Mathlib
import TaskAudit.Proofs.Broker.Steps

/-!
# The broker in memory loses and doubles no task

A history is a broker together with what its callers could see so far: the tasks that it
accepted, the deliveries that it handed out, and the tasks whose deliveries were
acknowledged. Every call moves at most one entry from one place to another, so the
accepted tasks are always those that wait, are in flight, are dead or were acknowledged,
and each of them is in one place only.
-/
namespace TaskAudit

/-- What a broker never changes about a task. -/
structure Ticket where
  taskId : String
  task : Task
  maxRetry : UInt32
  deriving DecidableEq

def Entry.ticket (e : Entry) : Ticket := ⟨e.taskId, e.task, e.maxRetry⟩

namespace Backlog

@[simp] theorem retried_ticket (readyAt : Moment) (e : Entry) :
    (retried readyAt e).ticket = e.ticket := rfl

@[simp] theorem retried_retryCount (readyAt : Moment) (e : Entry) :
    (retried readyAt e).retryCount = e.retryCount + 1 := rfl

@[simp] theorem retried_maxRetry (readyAt : Moment) (e : Entry) :
    (retried readyAt e).maxRetry = e.maxRetry := rfl

/-- A call of the broker. -/
inductive Call where
  | enqueue (id : String) (now : Now) (task : Task) (queue : String) (maxRetry : UInt32)
  | dequeue (now : Now) (queues : List String)
  | ack (receipt : Receipt)
  | fail (now : Now) (receipt : Receipt) (error : String)
  | close

def Call.newId? : Call → Option String
  | enqueue id _ _ _ _ => some id
  | _ => none

/-- Can a clock show the moment of the next delivery, if the call reports a failure? -/
def Call.IsShowable (delay : Span) : Call → Prop
  | fail now _ _ => after? now.moment delay ≠ none
  | _ => True

instance (delay : Span) : DecidablePred (Call.IsShowable delay) := fun call => by
  cases call <;> unfold Call.IsShowable <;> infer_instance

def inFlight? (s : Backlog) (msgId : Int) : Option Entry :=
  (s.inFlight.find? (·.1 = msgId)).map Prod.snd

theorem inFlight?_of_split {s : Backlog} {msgId : Int} {entry : Entry}
    {before after : List (Int × Entry)} (h : s.inFlight = before ++ (msgId, entry) :: after)
    (hbefore : msgId ∉ before.map Prod.fst) : s.inFlight? msgId = some entry := by
  have hnone : before.find? (·.1 = msgId) = none := by
    rw [List.find?_eq_none]
    intro f hf hid
    exact hbefore (List.mem_map.mpr ⟨f, hf, of_decide_eq_true hid⟩)
  rw [inFlight?, h, List.find?_append, hnone, Option.none_or,
    List.find?_cons_of_pos (by simp), Option.map_some]

theorem inFlight?_of_notMem {s : Backlog} {msgId : Int} (h : msgId ∉ s.inFlight.map Prod.fst) :
    s.inFlight? msgId = none := by
  rw [inFlight?, Option.map_eq_none_iff, List.find?_eq_none]
  intro f hf hid
  exact h (List.mem_map.mpr ⟨f, hf, of_decide_eq_true hid⟩)

/-- A broker and what its callers have seen of it: the accepted tasks with the queues they
were submitted to, the deliveries, and the tasks whose deliveries were acknowledged. -/
structure History where
  backlog : Backlog := {}
  accepted : List (String × Ticket) := []
  delivered : List Delivery := []
  acked : List Entry := []

namespace History

def after (delay : Span) (h : History) : Call → History
  | .enqueue id now task queue maxRetry =>
    let e := (Backlog.enqueue id now task queue maxRetry).run h.backlog
    { h with
      backlog := e.state
      accepted := match e.value with
        | .ok _ => h.accepted ++ [(queue, ⟨id, task, maxRetry⟩)]
        | .error _ => h.accepted }
  | .dequeue now queues =>
    let e := (Backlog.dequeue now queues).run h.backlog
    { h with
      backlog := e.state
      delivered := match e.value with
        | .ok (some d) => h.delivered ++ [d]
        | _ => h.delivered }
  | .ack receipt =>
    { h with
      backlog := ((Backlog.ack receipt).run h.backlog).state
      acked := h.acked ++ (h.backlog.inFlight? receipt.msgId).toList }
  | .fail now receipt error =>
    { h with backlog := ((Backlog.fail delay now receipt error).run h.backlog).state }
  | .close => { h with backlog := (Backlog.close.run h.backlog).state }

def run (delay : Span) (calls : List Call) (h : History) : History := calls.foldl (after delay) h

@[simp] theorem run_nil (delay : Span) (h : History) : run delay [] h = h := rfl

@[simp] theorem run_cons (delay : Span) (call : Call) (calls : List Call) (h : History) :
    run delay (call :: calls) h = run delay calls (h.after delay call) := rfl

/-- Everything that a call can do to a history. -/
inductive Moves (delay : Span) (h : History) : Call → History → Prop where
  | refused {id now task queue maxRetry} (hclosed : h.backlog.closed = true) :
    Moves delay h (.enqueue id now task queue maxRetry) h
  | accepted {id now task queue maxRetry} (hopen : h.backlog.closed = false) :
    Moves delay h (.enqueue id now task queue maxRetry)
      { h with
        backlog.waiting :=
          h.backlog.waiting ++ [⟨queue, ⟨id, task, maxRetry, 0, now.moment⟩⟩]
        accepted := h.accepted ++ [(queue, ⟨id, task, maxRetry⟩)] }
  | idle {now queues} : Moves delay h (.dequeue now queues) h
  | delivered {now queues queue entry before rest} (hopen : h.backlog.closed = false)
    (hqueue : queue ∈ queues) (hready : entry.readyAt ≤ now.moment)
    (hwaiting : h.backlog.waiting = before ++ ⟨queue, entry⟩ :: rest) :
    Moves delay h (.dequeue now queues)
      { h with
        backlog.waiting := before ++ rest
        backlog.inFlight := h.backlog.inFlight ++ [((h.backlog.issued : Int) + 1, entry)]
        backlog.issued := h.backlog.issued + 1
        delivered := h.delivered ++ [delivery queue (h.backlog.issued + 1) entry] }
  | ackUnknown {receipt} (hunknown : receipt.msgId ∉ h.backlog.inFlight.map Prod.fst) :
    Moves delay h (.ack receipt) h
  | acked {receipt entry before rest}
    (hflight : h.backlog.inFlight = before ++ (receipt.msgId, entry) :: rest) :
    Moves delay h (.ack receipt)
      { h with backlog.inFlight := before ++ rest, acked := h.acked ++ [entry] }
  | failUnknown {now receipt error}
    (hunknown : receipt.msgId ∉ h.backlog.inFlight.map Prod.fst) :
    Moves delay h (.fail now receipt error) h
  | buried {now receipt error entry before rest}
    (hflight : h.backlog.inFlight = before ++ (receipt.msgId, entry) :: rest)
    (hretries : entry.maxRetry ≤ entry.retryCount) :
    Moves delay h (.fail now receipt error)
      { h with
        backlog.inFlight := before ++ rest
        backlog.dead := h.backlog.dead ++ [entry] }
  | lost {now receipt error entry before rest}
    (hflight : h.backlog.inFlight = before ++ (receipt.msgId, entry) :: rest)
    (hretries : entry.retryCount < entry.maxRetry) (hready : after? now.moment delay = none) :
    Moves delay h (.fail now receipt error)
      { h with backlog.inFlight := before ++ rest }
  | retried {now receipt error entry before rest readyAt}
    (hflight : h.backlog.inFlight = before ++ (receipt.msgId, entry) :: rest)
    (hretries : entry.retryCount < entry.maxRetry)
    (hready : after? now.moment delay = some readyAt) :
    Moves delay h (.fail now receipt error)
      { h with
        backlog.inFlight := before ++ rest
        backlog.waiting :=
          h.backlog.waiting ++ [⟨receipt.queue, Backlog.retried readyAt entry⟩] }
  | closed : Moves delay h .close { h with backlog.closed := true }

theorem after_moves (delay : Span) (h : History) (call : Call) :
    Moves delay h call (h.after delay call) := by
  cases call with
  | enqueue id now task queue maxRetry =>
      rcases enqueue_cases id now task queue maxRetry h.backlog with ⟨hclosed, hrun⟩ | ⟨hopen, hrun⟩
      · simp only [after, hrun]
        exact .refused hclosed
      · simp only [after, hrun]
        exact .accepted hopen
  | dequeue now queues =>
      rcases dequeue_cases now queues h.backlog with
        hrun | ⟨queue, entry, before, rest, hopen, hqueue, hwaiting, hready, hrun⟩
      · simp only [after, hrun]
        exact .idle
      · simp only [after, hrun]
        exact .delivered hopen hqueue hready hwaiting
  | ack receipt =>
      rcases ack_cases receipt h.backlog with
        ⟨hunknown, hrun⟩ | ⟨entry, before, rest, hflight, hbefore, hrun⟩
      · simp only [after, hrun, inFlight?_of_notMem hunknown, Option.toList_none, List.append_nil]
        exact .ackUnknown hunknown
      · simp only [after, hrun, inFlight?_of_split hflight hbefore, Option.toList_some]
        exact .acked hflight
  | fail now receipt error =>
      rcases fail_cases delay now receipt error h.backlog with
        ⟨hunknown, hrun⟩ | ⟨entry, before, rest, hflight, -, ⟨hretries, hrun⟩ |
          ⟨hretries, hready, hrun⟩ | ⟨readyAt, hretries, hready, hrun⟩⟩
      · simp only [after, hrun]
        exact .failUnknown hunknown
      · simp only [after, hrun]
        exact .buried hflight hretries
      · simp only [after, hrun]
        exact .lost hflight hretries hready
      · simp only [after, hrun]
        exact .retried hflight hretries hready
  | close => exact .closed

/-- All entries of a history: those that wait, that are in flight, that are dead and that
were acknowledged. -/
def entries (h : History) : List Entry :=
  h.backlog.waiting.map Waiting.entry ++ (h.backlog.inFlight.map Prod.snd ++
    (h.backlog.dead ++ h.acked))

/-- The accepted tasks are those that the history has an entry for, and no entry has used
more than its retries. -/
structure IsConserved (h : History) : Prop where
  tickets : (h.accepted.map Prod.snd).Perm (h.entries.map Entry.ticket)
  retries : ∀ e ∈ h.entries, e.retryCount ≤ e.maxRetry

theorem empty_isConserved : IsConserved {} := ⟨.refl [], nofun⟩

theorem IsConserved.of_perm {h h' : History} (hc : h.IsConserved)
    (haccepted : h'.accepted = h.accepted) (hperm : h.entries.Perm h'.entries) :
    h'.IsConserved where
  tickets := haccepted ▸ hc.tickets.trans (hperm.map Entry.ticket)
  retries := fun e he => hc.retries e (hperm.mem_iff.mpr he)

theorem IsConserved.of_new {h h' : History} (hc : h.IsConserved) {queue : String} (entry : Entry)
    (haccepted : h'.accepted = h.accepted ++ [(queue, entry.ticket)])
    (hperm : (entry :: h.entries).Perm h'.entries) (hretries : entry.retryCount ≤ entry.maxRetry) :
    h'.IsConserved where
  tickets := by
    rw [haccepted, List.map_append]
    exact (List.perm_append_singleton _ _).trans
      ((hc.tickets.cons entry.ticket).trans (hperm.map Entry.ticket))
  retries := by
    intro e he
    rcases List.mem_cons.mp (hperm.mem_iff.mpr he) with rfl | he
    · exact hretries
    · exact hc.retries e he

theorem IsConserved.of_replaced {h h' : History} (hc : h.IsConserved) (entry entry' : Entry)
    (rest : List Entry) (haccepted : h'.accepted = h.accepted)
    (hperm : h.entries.Perm (entry :: rest)) (hperm' : (entry' :: rest).Perm h'.entries)
    (hticket : entry'.ticket = entry.ticket) (hretries : entry'.retryCount ≤ entry'.maxRetry) :
    h'.IsConserved where
  tickets := by
    have hsame : (entry :: rest).map Entry.ticket = (entry' :: rest).map Entry.ticket := by
      rw [List.map_cons, List.map_cons, hticket]
    rw [haccepted]
    exact hc.tickets.trans ((hperm.map Entry.ticket).trans (hsame ▸ hperm'.map Entry.ticket))
  retries := by
    intro e he
    rcases List.mem_cons.mp (hperm'.mem_iff.mpr he) with rfl | he
    · exact hretries
    · exact hc.retries e (hperm.mem_iff.mpr (List.mem_cons_of_mem _ he))

theorem retried_retries {e : Entry} (h : e.retryCount < e.maxRetry) (readyAt : Moment) :
    (Backlog.retried readyAt e).retryCount ≤ (Backlog.retried readyAt e).maxRetry := by
  rw [retried_retryCount, retried_maxRetry, UInt32.le_iff_toNat_le, toNat_add_one h]
  rwa [UInt32.lt_iff_toNat_lt] at h

/-- One call loses and doubles nothing. -/
theorem IsConserved.moves {delay : Span} {h h' : History} {call : Call} (hc : h.IsConserved)
    (hcall : call.IsShowable delay) (hmove : Moves delay h call h') : h'.IsConserved := by
  cases hmove with
  | refused _ | idle | ackUnknown _ | failUnknown _ => exact hc
  | closed => exact hc.of_perm rfl (.refl _)
  | @accepted id now task queue maxRetry _ =>
      refine hc.of_new ⟨id, task, maxRetry, 0, now.moment⟩ rfl
        (List.perm_iff_count.mpr fun e => ?_) (UInt32.zero_le)
      simp only [entries, List.map_append, List.map_cons, List.map_nil,
        List.count_append, List.count_cons, List.count_nil]
      omega
  | delivered _ _ _ hwaiting =>
      refine hc.of_perm rfl (List.perm_iff_count.mpr fun e => ?_)
      simp only [entries, hwaiting, List.map_append, List.map_cons, List.map_nil,
        List.count_append, List.count_cons, List.count_nil]
      omega
  | acked hflight | buried hflight _ =>
      refine hc.of_perm rfl (List.perm_iff_count.mpr fun e => ?_)
      simp only [entries, hflight, List.map_append, List.map_cons,
        List.count_append, List.count_cons, List.count_nil]
      omega
  | lost _ _ hready => exact absurd hready hcall
  | @retried _ _ _ entry before rest readyAt hflight hretries _ =>
      refine hc.of_replaced entry (Backlog.retried readyAt entry)
        (h.backlog.waiting.map Waiting.entry ++
          ((before ++ rest).map Prod.snd ++ (h.backlog.dead ++ h.acked)))
        rfl (List.perm_iff_count.mpr fun e => ?_) (List.perm_iff_count.mpr fun e => ?_)
        (retried_ticket readyAt entry) (retried_retries hretries readyAt)
      · simp only [entries, hflight, List.map_append, List.map_cons,
          List.count_append, List.count_cons]
        omega
      · simp only [entries, List.map_append, List.map_cons, List.map_nil,
          List.count_append, List.count_cons, List.count_nil]
        omega

theorem IsConserved.run {delay : Span} {h : History} {calls : List Call} (hc : h.IsConserved)
    (hcalls : ∀ call ∈ calls, call.IsShowable delay) : (run delay calls h).IsConserved := by
  induction calls generalizing h with
  | nil => exact hc
  | cons call calls ih =>
      have hmove := hc.moves (hcalls call List.mem_cons_self) (after_moves delay h call)
      exact ih hmove fun c hin => hcalls c (List.mem_cons_of_mem call hin)

def acceptedIds (h : History) : List String := h.accepted.map fun a => a.2.taskId

theorem nodup_after {delay : Span} {h : History} {call : Call} {calls : List Call}
    (hnew : (h.acceptedIds ++ (call :: calls).filterMap Call.newId?).Nodup) :
    ((h.after delay call).acceptedIds ++ calls.filterMap Call.newId?).Nodup := by
  have hmove := after_moves delay h call
  generalize h.after delay call = h' at hmove ⊢
  cases hmove with
  | accepted _ => simpa [acceptedIds, Call.newId?] using hnew
  | refused _ =>
      refine hnew.sublist (List.Sublist.append_left ?_ _)
      exact (List.sublist_cons_self _ calls).filterMap _
  | _ => exact hnew

/-- Ids that are new with every call stay different. -/
theorem nodup_acceptedIds {delay : Span} {h : History} {calls : List Call}
    (hnew : (h.acceptedIds ++ calls.filterMap Call.newId?).Nodup) :
    (run delay calls h).acceptedIds.Nodup := by
  induction calls generalizing h with
  | nil => simpa using hnew
  | cons call calls ih => exact ih (nodup_after hnew)

/-- If the call reports a failure, does it do so with a receipt that was handed out? -/
def IsGenuine (h : History) : Call → Prop
  | .fail _ receipt _ => ∃ d ∈ h.delivered, d.receipt = receipt
  | _ => True

/-- Are all failures of a run reported with receipts that were handed out before? -/
def AllGenuine (delay : Span) : History → List Call → Prop
  | _, [] => True
  | h, call :: calls => h.IsGenuine call ∧ AllGenuine delay (h.after delay call) calls

/-- Every task waits where it was submitted to. To keep that, the deliveries of the tasks in
flight must name the right queue, and a number must stand for one delivery only. -/
structure IsHome (h : History) : Prop where
  waiting : ∀ w ∈ h.backlog.waiting, (w.queue, w.entry.ticket) ∈ h.accepted
  inFlight : ∀ f ∈ h.backlog.inFlight, ∀ d ∈ h.delivered, d.receipt.msgId = f.1 →
    (d.receipt.queue, f.2.ticket) ∈ h.accepted
  flightIssued : ∀ f ∈ h.backlog.inFlight, f.1 ≤ h.backlog.issued
  deliveredIssued : ∀ d ∈ h.delivered, d.receipt.msgId ≤ h.backlog.issued

theorem empty_isHome : IsHome {} := ⟨nofun, nofun, nofun, nofun⟩

theorem IsHome.unflown {h : History} (hh : h.IsHome) {f : Int × Entry}
    {before rest : List (Int × Entry)} (hflight : h.backlog.inFlight = before ++ f :: rest) :
    IsHome { h with backlog.inFlight := before ++ rest } := by
  have hmem : ∀ g ∈ before ++ rest, g ∈ h.backlog.inFlight := by
    intro g hg
    rw [hflight]
    exact (around_sublist before rest f).mem hg
  exact ⟨hh.waiting, fun g hg => hh.inFlight g (hmem g hg),
    fun g hg => hh.flightIssued g (hmem g hg), hh.deliveredIssued⟩

theorem IsHome.accept {h : History} (hh : h.IsHome) (queue : String) (entry : Entry) :
    IsHome { h with
      backlog.waiting := h.backlog.waiting ++ [⟨queue, entry⟩]
      accepted := h.accepted ++ [(queue, entry.ticket)] } where
  waiting := by
    intro w hw
    rcases List.mem_append.mp hw with hw | hw
    · exact List.mem_append_left _ (hh.waiting w hw)
    · obtain rfl := List.mem_singleton.mp hw
      exact List.mem_append_right _ (List.mem_singleton_self _)
  inFlight := fun f hf d hd hid => List.mem_append_left _ (hh.inFlight f hf d hd hid)
  flightIssued := hh.flightIssued
  deliveredIssued := hh.deliveredIssued

/-- A delivery bears a number that no delivery had before. -/
theorem IsHome.deliver {h : History} (hh : h.IsHome) {queue : String} {entry : Entry}
    {before rest : List Waiting} (hwaiting : h.backlog.waiting = before ++ ⟨queue, entry⟩ :: rest) :
    IsHome { h with
      backlog.waiting := before ++ rest
      backlog.inFlight := h.backlog.inFlight ++ [((h.backlog.issued : Int) + 1, entry)]
      backlog.issued := h.backlog.issued + 1
      delivered := h.delivered ++ [delivery queue (h.backlog.issued + 1) entry] } where
  waiting := by
    intro w hw
    refine hh.waiting w ?_
    rw [hwaiting]
    exact (around_sublist before rest _).mem hw
  inFlight := by
    intro f hf d hd hid
    rcases List.mem_append.mp hf with hf | hf <;> rcases List.mem_append.mp hd with hd | hd
    · exact hh.inFlight f hf d hd hid
    -- the new number is above all that were issued, so it pairs with no other delivery
    · obtain rfl := List.mem_singleton.mp hd
      have hle := hh.flightIssued f hf
      simp only [delivery] at hid
      omega
    · obtain rfl := List.mem_singleton.mp hf
      have hle := hh.deliveredIssued d hd
      simp only at hid
      omega
    · obtain rfl := List.mem_singleton.mp hf
      obtain rfl := List.mem_singleton.mp hd
      refine hh.waiting ⟨queue, entry⟩ ?_
      rw [hwaiting]
      exact List.mem_append_cons_self
  flightIssued := by
    intro f hf
    rcases List.mem_append.mp hf with hf | hf
    · have hle := hh.flightIssued f hf
      push_cast
      omega
    · obtain rfl := List.mem_singleton.mp hf
      simp
  deliveredIssued := by
    intro d hd
    rcases List.mem_append.mp hd with hd | hd
    · have hle := hh.deliveredIssued d hd
      push_cast
      omega
    · obtain rfl := List.mem_singleton.mp hd
      simp [delivery]

theorem IsHome.moves {delay : Span} {h h' : History} {call : Call} (hh : h.IsHome)
    (hcall : h.IsGenuine call) (hmove : Moves delay h call h') : h'.IsHome := by
  cases hmove with
  | refused _ | idle | ackUnknown _ | failUnknown _ => exact hh
  | closed => exact ⟨hh.waiting, hh.inFlight, hh.flightIssued, hh.deliveredIssued⟩
  | @accepted id now task queue maxRetry _ =>
      exact hh.accept queue ⟨id, task, maxRetry, 0, now.moment⟩
  | delivered _ _ _ hwaiting => exact hh.deliver hwaiting
  | acked hflight | buried hflight _ | lost hflight _ _ =>
      have hrest := hh.unflown hflight
      exact ⟨hrest.waiting, hrest.inFlight, hrest.flightIssued, hrest.deliveredIssued⟩
  | @retried now receipt error entry before rest readyAt hflight _ _ =>
      -- the task waits where its receipt says, and a receipt that was handed out is right
      have hrest := hh.unflown hflight
      refine ⟨?_, hrest.inFlight, hrest.flightIssued, hrest.deliveredIssued⟩
      intro w hw
      rcases List.mem_append.mp hw with hw | hw
      · exact hh.waiting w hw
      · obtain rfl := List.mem_singleton.mp hw
        obtain ⟨d, hd, rfl⟩ := hcall
        refine hh.inFlight (d.receipt.msgId, entry) ?_ d hd rfl
        rw [hflight]
        exact List.mem_append_cons_self

theorem IsHome.run {delay : Span} {h : History} {calls : List Call} (hh : h.IsHome)
    (hcalls : AllGenuine delay h calls) : (run delay calls h).IsHome := by
  induction calls generalizing h with
  | nil => exact hh
  | cons call calls ih => exact ih (hh.moves hcalls.1 (after_moves delay h call)) hcalls.2

/-- Whatever is called, with whatever receipts: the accepted tasks are those that wait, are
in flight, are dead or were acknowledged, each of them once, as it was submitted, and with
no more retries than it may have. A call that finds nothing to do changes nothing. If
failures are reported with receipts that were handed out, every task that waits waits in
the queue it was submitted to. -/
theorem run_conserves (delay : Span) (calls : List Call)
    (hnew : (calls.filterMap Call.newId?).Nodup)
    (hshow : ∀ call ∈ calls, call.IsShowable delay) :
    let h := run delay calls {}
    let s := h.backlog
    let entries := s.waiting.map Waiting.entry ++ (s.inFlight.map Prod.snd ++ (s.dead ++ h.acked))
    (h.accepted.map Prod.snd).Perm (entries.map Entry.ticket) ∧
      (entries.map Entry.taskId).Nodup ∧
      (∀ e ∈ entries, e.retryCount ≤ e.maxRetry) ∧
      (∀ id now task queue maxRetry error,
        ((Backlog.enqueue id now task queue maxRetry).run s).value = .error error →
        ((Backlog.enqueue id now task queue maxRetry).run s).state = s) ∧
      (∀ now queues, ((Backlog.dequeue now queues).run s).value = .ok none →
        ((Backlog.dequeue now queues).run s).state = s) ∧
      (∀ receipt, receipt.msgId ∉ s.inFlight.map Prod.fst →
        ((Backlog.ack receipt).run s).state = s ∧
        ∀ now error, ((Backlog.fail delay now receipt error).run s).state = s) ∧
      (AllGenuine delay {} calls → ∀ w ∈ s.waiting, (w.queue, w.entry.ticket) ∈ h.accepted) := by
  intro h s entries
  have hc : h.IsConserved := empty_isConserved.run hshow
  have hids : h.acceptedIds.Nodup := nodup_acceptedIds hnew
  refine ⟨hc.tickets, ?_, hc.retries, ?_, ?_, ?_, ?_⟩
  · have hperm := hc.tickets.map Ticket.taskId
    rw [List.map_map, List.map_map] at hperm
    exact hperm.nodup_iff.mp hids
  · exact fun _ _ _ _ _ _ hvalue => enqueue_state_of_error hvalue
  · exact fun _ _ hvalue => dequeue_state_of_none hvalue
  · intro receipt hunknown
    exact ⟨ack_state_of_unknown hunknown, fun now error =>
      fail_state_of_unknown hunknown delay now error⟩
  · intro hgenuine
    exact (empty_isHome.run hgenuine).waiting

/-- One task that is retried once and then acknowledged, one that is dead, and reports with a
receipt that was used and with one that was made up. -/
theorem run_conserves_reports :
    let now : Now := ⟨0, Timestamp.epoch⟩
    let task : Task := ⟨"mail", "1".toUTF8⟩
    let receipt (msgId : Int) : Receipt := ⟨"q", msgId, 0, 1⟩
    let calls : List Call := [.enqueue "a" now task "q" 1, .enqueue "b" now task "q" 0,
      .dequeue now ["q"], .fail now (receipt 1) "no", .dequeue now ["q"],
      .fail now (receipt 2) "no", .fail now (receipt 1) "no", .ack (receipt 9),
      .dequeue now ["q"], .close, .ack (receipt 3), .enqueue "c" now task "q" 0]
    let h := run ⟨0⟩ calls {}
    (h.accepted.map Prod.snd).Perm (h.entries.map Entry.ticket) ∧
      h.backlog.dead.map Entry.taskId = ["b"] ∧ h.acked.map Entry.taskId = ["a"] := by
  intro now task receipt calls h
  exact ⟨(run_conserves ⟨0⟩ calls (by decide) (by decide)).1, by decide, by decide⟩

end History

end Backlog

end TaskAudit
