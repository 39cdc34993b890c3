import Mathlib
import TaskAudit.Proofs.Broker.Receipts

/-!
# In which order tasks are delivered

A queue is polled from its front for the first task that is ready. In it stand tasks that
were just submitted, which are ready at once, and tasks that failed, which are ready after
a delay, so the queue as a whole is not sorted by readiness. It is sorted on each of two
lanes, the tasks that wait for the first time and those that wait again: if the clock never
goes back, who arrives later on a lane is ready later. So the tasks of a lane leave in the
order of their arrival, whatever happens on other lanes.
-/
namespace TaskAudit

namespace Backlog

/-- Is no task ready that waits in the queue? -/
def HasNoneReady (s : Backlog) (now : Moment) (queue : String) : Prop :=
  ∀ e ∈ s.inQueue queue, now < e.readyAt

/-- A task of the first queue with a ready one is taken, the first that is ready there. All
others keep their places. -/
structure Takes (s : Backlog) (now : Moment) (queues : List String) (queue : String) (e : Entry)
    (s' : Backlog) : Prop where
  first : ∃ earlier later, queues = earlier ++ queue :: later ∧
    ∀ q ∈ earlier, s.HasNoneReady now q
  ready : e.readyAt ≤ now
  order : ∃ before after, s.inQueue queue = before ++ e :: after ∧
    (∀ e' ∈ before, now < e'.readyAt) ∧ s'.inQueue queue = before ++ after
  others : ∀ q, q ≠ queue → s'.inQueue q = s.inQueue q

theorem lt_readyAt {queue : String} {now : Moment} {ws : List Waiting}
    (h : ∀ w ∈ ws, w.isReady queue now = false) {e : Entry}
    (he : e ∈ (ws.filter (·.queue = queue)).map Waiting.entry) : now < e.readyAt := by
  obtain ⟨w, hw, rfl⟩ := List.mem_map.mp he
  obtain ⟨hmem, hqueue⟩ := List.mem_filter.mp hw
  have hready := h w hmem
  simp only [Waiting.isReady, hqueue, Bool.true_and, decide_eq_false_iff_not] at hready
  exact Nat.lt_of_not_le hready

/-- What polling an open broker can do, as each queue shows it. -/
theorem dequeue_takes_first {s : Backlog} (hopen : s.closed = false) (now : Now)
    (queues : List String) :
    ((dequeue now queues).run s = ⟨.ok none, s, []⟩ ∧
      ∀ q ∈ queues, s.HasNoneReady now.moment q) ∨
    ∃ queue e,
      ((dequeue now queues).run s).value = .ok (some (delivery queue (s.issued + 1) e)) ∧
        s.Takes now.moment queues queue e ((dequeue now queues).run s).state := by
  rcases dequeue_takes hopen now queues with
    ⟨hrun, hnone⟩ | ⟨earlier, queue, later, e, before, rest, rfl, hearlier, hwaiting, hbefore,
      hready, hrun⟩
  · exact .inl ⟨hrun, fun q hq e he => lt_readyAt (hnone q hq) he⟩
  · refine .inr ⟨queue, e, by rw [hrun], ?_⟩
    rw [hrun]
    constructor
    case first => exact ⟨earlier, later, rfl, fun q hq e he => lt_readyAt (hearlier q hq) he⟩
    case ready => exact hready
    case order =>
      refine ⟨(before.filter (·.queue = queue)).map Waiting.entry,
        (rest.filter (·.queue = queue)).map Waiting.entry, ?_, ?_, ?_⟩
      · simp [inQueue, hwaiting]
      · exact fun e' he' => lt_readyAt hbefore he'
      · simp [inQueue]
    case others =>
      intro q hq
      simp [inQueue, hwaiting, Ne.symm hq]

end Backlog

/-- A queue, and whether the tasks on the lane were delivered before. -/
abbrev Lane := String × Bool

def Waiting.lane (w : Waiting) : Lane := (w.queue, decide (w.entry.retryCount ≠ 0))

def Delivery.lane (d : Delivery) : Lane := (d.context.queue, decide (d.context.retryCount ≠ 0))

/-- How long a task on its lane waits before it is ready. -/
def Waiting.delay (delay : Span) (w : Waiting) : Nat := if w.lane.2 then delay.nanos else 0

namespace Backlog

def Call.moment? : Call → Option Moment
  | enqueue _ now _ _ _ | dequeue now _ | fail now _ _ => some now.moment
  | ack _ | close => none

theorem retried_retryCount_ne {e : Entry} (h : e.retryCount < e.maxRetry) (readyAt : Moment) :
    (retried readyAt e).retryCount ≠ 0 := by
  intro hzero
  have hone := toNat_add_one h
  rw [retried_retryCount] at hzero
  rw [hzero] at hone
  exact absurd hone (Nat.succ_ne_zero _).symm

theorem after?_eq_some {now readyAt : Moment} {delay : Span} (h : after? now delay = some readyAt) :
    readyAt = now + delay.nanos := by
  unfold after? at h
  split at h
  · exact (Option.some.inj h).symm
  · cases h

/-- A history with the tasks that came to wait and the deliveries, each with the call that
made it. -/
structure Timeline where
  history : History := {}
  arrivals : List (Call × Waiting) := []
  departures : List (Call × Delivery) := []

namespace Timeline

def after (delay : Span) (t : Timeline) (call : Call) : Timeline :=
  let later := t.history.after delay call
  { history := later
    arrivals := t.arrivals ++
      (later.backlog.waiting.drop t.history.backlog.waiting.length).map fun w => (call, w)
    departures := t.departures ++
      (later.delivered.drop t.history.delivered.length).map fun d => (call, d) }

def run (delay : Span) (calls : List Call) (t : Timeline) : Timeline :=
  calls.foldl (after delay) t

@[simp] theorem run_nil (delay : Span) (t : Timeline) : run delay [] t = t := rfl

@[simp] theorem run_cons (delay : Span) (call : Call) (calls : List Call) (t : Timeline) :
    run delay (call :: calls) t = run delay calls (t.after delay call) := rfl

def arrivalsOn (t : Timeline) (lane : Lane) : List (Call × Waiting) :=
  t.arrivals.filter (·.2.lane = lane)

def departuresFrom (t : Timeline) (lane : Lane) : List (Call × Delivery) :=
  t.departures.filter (·.2.lane = lane)

/-- How a task comes to wait: it was submitted, or a delivery of it failed. -/
inductive Arrives (delay : Span) (delivered : List Delivery) : Call × Waiting → Prop
  | submitted {id now task queue maxRetry} :
    Arrives delay delivered
      (.enqueue id now task queue maxRetry, ⟨queue, ⟨id, task, maxRetry, 0, now.moment⟩⟩)
  | failed {now receipt error queue e} (hretries : e.retryCount < e.maxRetry)
    (hdelivered : delivery queue receipt.msgId e ∈ delivered) :
    Arrives delay delivered
      (.fail now receipt error, ⟨receipt.queue, retried (now.moment + delay.nanos) e⟩)

/-- The delivery is one of the task that waited, to someone who asked for its queue when it
was ready. -/
structure Serves (a : Call × Waiting) (d : Call × Delivery) : Prop where
  delivery : ∃ msgId, d.2 = delivery a.2.queue msgId a.2.entry
  ready : ∃ now queues, d.1 = .dequeue now queues ∧ a.2.queue ∈ queues ∧
    a.2.entry.readyAt ≤ now.moment

/-- Everything that a call can do to a timeline: nothing comes or goes, a task comes to wait,
or one that waits is delivered. -/
inductive Moves (delay : Span) (t : Timeline) (call : Call) : Timeline → Prop
  | stay {later : History} (hwaiting : later.backlog.waiting = t.history.backlog.waiting)
    (hdelivered : later.delivered = t.history.delivered)
    (haccepted : later.accepted = t.history.accepted) :
    Moves delay t call { t with history := later }
  | arrive {later : History} {w : Waiting} (harrives : Arrives delay t.history.delivered (call, w))
    (hwaiting : later.backlog.waiting = t.history.backlog.waiting ++ [w])
    (hdelivered : later.delivered = t.history.delivered)
    (haccepted : later.accepted = t.history.accepted ++
      if w.lane.2 then [] else [(w.queue, w.entry.ticket)]) :
    Moves delay t call { t with history := later, arrivals := t.arrivals ++ [(call, w)] }
  | depart {later : History} {w : Waiting} {d : Delivery} {before rest : List Waiting}
    {now : Moment} (hmoment : call.moment? = some now)
    (hbefore : ∀ v ∈ before, v.isReady w.queue now = false) (hserves : Serves (call, w) (call, d))
    (hwaiting : t.history.backlog.waiting = before ++ w :: rest)
    (hrest : later.backlog.waiting = before ++ rest)
    (hdelivered : later.delivered = t.history.delivered ++ [d])
    (haccepted : later.accepted = t.history.accepted) :
    Moves delay t call { t with history := later, departures := t.departures ++ [(call, d)] }

section

variable {delay : Span} {t t' : Timeline} {call : Call} {later : History}

theorem after_of_stay (hlater : t.history.after delay call = later)
    (hwaiting : later.backlog.waiting = t.history.backlog.waiting)
    (hdelivered : later.delivered = t.history.delivered) :
    t.after delay call = { t with history := later } := by
  simp [after, hlater, hwaiting, hdelivered]

theorem after_of_arrive (hlater : t.history.after delay call = later) {w : Waiting}
    (hwaiting : later.backlog.waiting = t.history.backlog.waiting ++ [w])
    (hdelivered : later.delivered = t.history.delivered) :
    t.after delay call = { t with history := later, arrivals := t.arrivals ++ [(call, w)] } := by
  simp [after, hlater, hwaiting, hdelivered]

theorem after_of_depart (hlater : t.history.after delay call = later) {w : Waiting} {d : Delivery}
    {before rest : List Waiting} (hwaiting : t.history.backlog.waiting = before ++ w :: rest)
    (hrest : later.backlog.waiting = before ++ rest)
    (hdelivered : later.delivered = t.history.delivered ++ [d]) :
    t.after delay call =
      { t with history := later, departures := t.departures ++ [(call, d)] } := by
  have hlength : (before ++ rest).length ≤ (before ++ w :: rest).length := by
    simp only [List.length_append, List.length_cons]
    omega
  simp [after, hlater, hwaiting, hrest, hdelivered]

theorem dequeue_moves (delay : Span) (t : Timeline) (now : Now) (queues : List String) :
    Moves delay t (.dequeue now queues) (t.after delay (.dequeue now queues)) := by
  have hidle (hrun : (dequeue now queues).run t.history.backlog =
      ⟨.ok none, t.history.backlog, []⟩) :
      Moves delay t (.dequeue now queues) (t.after delay (.dequeue now queues)) := by
    have hlater : t.history.after delay (.dequeue now queues) = t.history := by
      simp only [History.after, hrun]
    rw [after_of_stay hlater rfl rfl]
    exact .stay rfl rfl rfl
  by_cases hclosed : t.history.backlog.closed = true
  · exact hidle (by simp only [dequeue, Action.run, if_pos hclosed])
  · rcases dequeue_takes (Bool.eq_false_iff.mpr hclosed) now queues with
      ⟨hrun, -⟩ | ⟨_, queue, _, e, before, rest, hqueues, -, hwaiting, hbefore, hready, hrun⟩
    · exact hidle hrun
    · generalize hlater : t.history.after delay (.dequeue now queues) = later
      have hgone := hlater
      simp only [History.after, hrun] at hgone
      subst hgone
      rw [after_of_depart hlater hwaiting rfl rfl]
      have hserves : Serves (.dequeue now queues, ⟨queue, e⟩)
          (.dequeue now queues, delivery queue (t.history.backlog.issued + 1) e) :=
        ⟨⟨_, rfl⟩, now, queues, rfl, hqueues ▸ List.mem_append_cons_self, hready⟩
      exact .depart rfl hbefore hserves hwaiting rfl rfl rfl

/-- The receipt of a delivery in flight was handed out, so a failure that is reported with it
is one of that delivery. -/
theorem after_moves (hn : t.history.IsNumbered) (delay : Span) (call : Call) :
    Moves delay t call (t.after delay call) := by
  have hmove := History.after_moves delay t.history call
  generalize hlater : t.history.after delay call = later at hmove
  cases hmove with
  | idle | delivered _ _ _ _ => exact dequeue_moves delay t _ _
  | refused _ | ackUnknown _ | acked _ | failUnknown _ | buried _ _ | lost _ _ _ | closed =>
      rw [after_of_stay hlater rfl rfl]
      exact .stay rfl rfl rfl
  | accepted _ =>
      rw [after_of_arrive hlater rfl rfl]
      exact .arrive .submitted rfl rfl rfl
  | @retried now receipt error e before rest readyAt hflight hretries hready =>
      rw [after_of_arrive hlater rfl rfl]
      obtain ⟨queue, hdelivered⟩ := hn.delivered (receipt.msgId, e)
        (by rw [hflight]; exact List.mem_append_cons_self)
      have harrives : Arrives delay t.history.delivered
          (.fail now receipt error, ⟨receipt.queue, retried readyAt e⟩) := by
        rw [after?_eq_some hready]
        exact .failed hretries hdelivered
      have hlane : (⟨receipt.queue, retried readyAt e⟩ : Waiting).lane.2 = true :=
        decide_eq_true (retried_retryCount_ne hretries readyAt)
      refine .arrive harrives rfl rfl ?_
      rw [hlane, if_pos rfl, List.append_nil]

end

theorem Arrives.mono {delay : Span} {delivered more : List Delivery} {a : Call × Waiting}
    (h : Arrives delay delivered a) : Arrives delay (delivered ++ more) a := by
  cases h with
  | submitted => exact .submitted
  | failed hretries hdelivered => exact .failed hretries (List.mem_append_left _ hdelivered)

theorem Arrives.due {delay : Span} {delivered : List Delivery} {call : Call} {w : Waiting}
    (h : Arrives delay delivered (call, w)) :
    ∃ now, call.moment? = some now ∧ w.entry.readyAt = now + w.delay delay := by
  cases h with
  | @submitted id now task queue maxRetry => exact ⟨now.moment, rfl, rfl⟩
  | @failed now receipt error queue e hretries _ =>
      have hlane : (⟨receipt.queue, retried (now.moment + delay.nanos) e⟩ : Waiting).lane.2 =
          true := decide_eq_true (retried_retryCount_ne hretries _)
      refine ⟨now.moment, rfl, ?_⟩
      rw [Waiting.delay, hlane, if_pos rfl]
      rfl

/-- Everything that came to wait is listed with the call that brought it, and every delivery
with the call that made it. -/
structure IsLog (delay : Span) (t : Timeline) : Prop where
  numbered : t.history.IsNumbered
  arrives : ∀ a ∈ t.arrivals, Arrives delay t.history.delivered a
  accepted : (t.arrivals.filter (·.2.lane.2 = false)).map (fun a => (a.2.queue, a.2.entry.ticket)) =
    t.history.accepted
  delivered : t.departures.map Prod.snd = t.history.delivered

theorem empty_isLog (delay : Span) : IsLog delay {} where
  numbered := History.empty_isNumbered
  arrives := fun _ ha => absurd ha List.not_mem_nil
  accepted := rfl
  delivered := rfl

section

variable {delay : Span} {t t' : Timeline} {call : Call}

theorem IsLog.moves (hl : t.IsLog delay) (hn : t'.history.IsNumbered)
    (hmove : Moves delay t call t') : t'.IsLog delay := by
  cases hmove with
  | stay hwaiting hdelivered haccepted =>
      refine ⟨hn, ?_, hl.accepted.trans haccepted.symm, hl.delivered.trans hdelivered.symm⟩
      intro a ha
      rw [hdelivered]
      exact hl.arrives a ha
  | @arrive later w harrives hwaiting hdelivered haccepted =>
      refine ⟨hn, ?_, ?_, hl.delivered.trans hdelivered.symm⟩
      · intro a ha
        rw [hdelivered]
        rcases List.mem_append.mp ha with ha | ha
        · exact hl.arrives a ha
        · obtain rfl := List.mem_singleton.mp ha
          exact harrives
      · rw [haccepted, List.filter_append, List.map_append, hl.accepted]
        cases hlane : w.lane.2 <;> simp [hlane]
  | depart _ _ _ _ _ hdelivered haccepted =>
      refine ⟨hn, ?_, hl.accepted.trans haccepted.symm, ?_⟩
      · intro a ha
        rw [hdelivered]
        exact (hl.arrives a ha).mono
      · rw [hdelivered, List.map_append, hl.delivered]
        rfl

theorem IsLog.after (hl : t.IsLog delay) (call : Call) : (t.after delay call).IsLog delay :=
  hl.moves (hl.numbered.moves (History.after_moves delay t.history call))
    (after_moves hl.numbered delay call)

theorem IsLog.run (hl : t.IsLog delay) (calls : List Call) : (run delay calls t).IsLog delay := by
  induction calls generalizing t with
  | nil => exact hl
  | cons call calls ih => exact ih (hl.after call)

/-- On every lane the first arrivals are gone, each with its delivery, and the rest wait, in
the order in which they get ready. -/
structure InOrder (delay : Span) (clock : Moment) (t : Timeline) : Prop where
  lanes : ∀ lane, ∃ gone left, t.arrivalsOn lane = gone ++ left ∧
    List.Forall₂ Serves gone (t.departuresFrom lane) ∧
    left.map Prod.snd = t.history.backlog.waiting.filter (·.lane = lane)
  sorted : t.history.backlog.waiting.Pairwise fun v w =>
    v.lane = w.lane → v.entry.readyAt ≤ w.entry.readyAt
  due : ∀ w ∈ t.history.backlog.waiting, w.entry.readyAt ≤ clock + w.delay delay

theorem empty_inOrder (delay : Span) (clock : Moment) : InOrder delay clock {} :=
  ⟨fun _ => ⟨[], [], rfl, .nil, rfl⟩, .nil, nofun⟩

namespace InOrder

variable {clock later : Moment}

theorem mono (ho : t.InOrder delay clock) (hclock : clock ≤ later) : t.InOrder delay later := by
  exact ⟨ho.lanes, ho.sorted, fun w hw =>
    (ho.due w hw).trans (Nat.add_le_add_right hclock (w.delay delay))⟩

theorem stay (ho : t.InOrder delay clock) {h : History}
    (hwaiting : h.backlog.waiting = t.history.backlog.waiting) :
    InOrder delay clock { t with history := h } := by
  obtain ⟨hlanes, hsorted, hdue⟩ := ho
  rw [← hwaiting] at hsorted hdue
  exact ⟨by rw [hwaiting]; exact hlanes, hsorted, hdue⟩

theorem arrive (ho : t.InOrder delay clock) {h : History} {w : Waiting}
    (hready : w.entry.readyAt = clock + w.delay delay)
    (hwaiting : h.backlog.waiting = t.history.backlog.waiting ++ [w]) :
    InOrder delay clock { t with history := h, arrivals := t.arrivals ++ [(call, w)] } := by
  constructor
  case lanes =>
    intro lane
    obtain ⟨gone, left, hsplit, hserves, hleft⟩ := ho.lanes lane
    refine ⟨gone, left ++ [(call, w)].filter (·.2.lane = lane), ?_, hserves, ?_⟩
    · rw [← List.append_assoc, ← hsplit]
      exact List.filter_append _ _
    · rw [hwaiting, List.filter_append, List.map_append, hleft]
      by_cases hlane : w.lane = lane <;> simp [hlane]
  case sorted =>
    rw [hwaiting, List.pairwise_append]
    refine ⟨ho.sorted, List.pairwise_singleton _ _, ?_⟩
    -- on one lane the delay is the same for all, and nobody arrived later than now
    intro v hv w' hw' hlane
    obtain rfl := List.mem_singleton.mp hw'
    have hdue := ho.due v hv
    have hdelay : v.delay delay = w'.delay delay := by
      unfold Waiting.delay
      rw [hlane]
    rw [hready, ← hdelay]
    exact hdue
  case due =>
    intro v hv
    rw [hwaiting] at hv
    rcases List.mem_append.mp hv with hv | hv
    · exact ho.due v hv
    · obtain rfl := List.mem_singleton.mp hv
      exact hready.le

/-- Nobody stands before the task that is taken on its lane, where such a task would be ready
earlier, and would have been taken. -/
theorem first_on_lane (ho : t.InOrder delay clock) {w : Waiting} {before rest : List Waiting}
    (hready : w.entry.readyAt ≤ clock) (hbefore : ∀ v ∈ before, v.isReady w.queue clock = false)
    (hwaiting : t.history.backlog.waiting = before ++ w :: rest) :
    before.filter (·.lane = w.lane) = [] := by
  refine List.filter_eq_nil_iff.mpr fun v hv hlane => ?_
  have hlane := of_decide_eq_true hlane
  have hsorted := ho.sorted
  rw [hwaiting, List.pairwise_append] at hsorted
  have hle := hsorted.2.2 v hv w List.mem_cons_self hlane
  have hnot := hbefore v hv
  have hqueue : v.queue = w.queue := congrArg Prod.fst hlane
  simp only [Waiting.isReady, hqueue, decide_true, Bool.true_and, decide_eq_false_iff_not] at hnot
  exact hnot (hle.trans hready)

/-- Who is delivered was the first to arrive of those on its lane. -/
theorem depart (ho : t.InOrder delay clock) {h : History} {w : Waiting} {d : Delivery}
    {before rest : List Waiting} (hready : w.entry.readyAt ≤ clock)
    (hbefore : ∀ v ∈ before, v.isReady w.queue clock = false) (hserves : Serves (call, w) (call, d))
    (hwaiting : t.history.backlog.waiting = before ++ w :: rest)
    (hrest : h.backlog.waiting = before ++ rest) :
    InOrder delay clock { t with history := h, departures := t.departures ++ [(call, d)] } := by
  have hsublist := around_sublist before rest w
  rw [← hrest, ← hwaiting] at hsublist
  have hfirst := ho.first_on_lane hready hbefore hwaiting
  have hlane : d.lane = w.lane := by
    obtain ⟨msgId, rfl⟩ := hserves.delivery
    rfl
  constructor
  case lanes =>
    intro lane
    obtain ⟨gone, left, hsplit, hgone, hleft⟩ := ho.lanes lane
    by_cases hown : w.lane = lane
    · subst hown
      have hcons : (w :: rest).filter (·.lane = w.lane) = w :: rest.filter (·.lane = w.lane) :=
        List.filter_cons_of_pos (decide_eq_true rfl)
      rw [hwaiting, List.filter_append, hfirst, List.nil_append, hcons] at hleft
      obtain ⟨a, left, rfl, rfl, hleft⟩ := List.map_eq_cons_iff.mp hleft
      refine ⟨gone ++ [a], left, hsplit.trans (List.append_cons gone a left), ?_, ?_⟩
      · have hdeparts : departuresFrom
            { t with history := h, departures := t.departures ++ [(call, d)] } a.2.lane =
            t.departuresFrom a.2.lane ++ [(call, d)] := by
          simp [departuresFrom, hlane]
        rw [hdeparts]
        exact List.rel_append hgone (.cons ⟨hserves.delivery, hserves.ready⟩ .nil)
      · rw [hleft, hrest, List.filter_append, hfirst, List.nil_append]
    · refine ⟨gone, left, hsplit, ?_, ?_⟩
      · have hdeparts : departuresFrom
            { t with history := h, departures := t.departures ++ [(call, d)] } lane =
            t.departuresFrom lane := by
          simp [departuresFrom, hlane, hown]
        rw [hdeparts]
        exact hgone
      · simp [hleft, hwaiting, hrest, hown]
  case sorted => exact ho.sorted.sublist hsublist
  case due => exact fun v hv => ho.due v (hsublist.mem hv)

theorem moves (ho : t.InOrder delay clock) (hmove : Moves delay t call t')
    (hclock : ∀ now ∈ call.moment?, clock ≤ now) :
    t'.InOrder delay (call.moment?.getD clock) := by
  have hmono : t.InOrder delay (call.moment?.getD clock) := by
    cases hmoment : call.moment? with
    | none => exact ho
    | some now => exact ho.mono (hclock now hmoment)
  cases hmove with
  | stay hwaiting _ _ => exact hmono.stay hwaiting
  | arrive harrives hwaiting _ _ =>
      obtain ⟨now, hmoment, hready⟩ := harrives.due
      rw [hmoment] at hmono ⊢
      exact hmono.arrive hready hwaiting
  | depart hmoment hbefore hserves hwaiting hrest _ _ =>
      obtain ⟨now, queues, hcall, -, hready⟩ := hserves.ready
      obtain rfl : call = .dequeue now queues := hcall
      obtain rfl := Option.some.inj hmoment
      exact hmono.depart hready hbefore hserves hwaiting hrest

theorem run (ho : t.InOrder delay clock) (hn : t.history.IsNumbered) {calls : List Call}
    (hclock : (clock :: calls.filterMap Call.moment?).Pairwise (· ≤ ·)) :
    ∃ later, (run delay calls t).InOrder delay later := by
  induction calls generalizing t clock with
  | nil => exact ⟨clock, ho⟩
  | cons call calls ih =>
      have hnext := hn.moves (History.after_moves delay t.history call)
      have hmove := after_moves hn delay call
      cases hmoment : call.moment? with
      | none =>
          rw [List.filterMap_cons_none hmoment] at hclock
          refine ih (ho.moves hmove ?_) hnext ?_
          · rw [hmoment]
            exact nofun
          · rw [hmoment]
            exact hclock
      | some now =>
          rw [List.filterMap_cons_some hmoment] at hclock
          obtain ⟨hle, hclock⟩ := List.pairwise_cons.mp hclock
          refine ih (ho.moves hmove ?_) hnext ?_
          · rw [hmoment]
            rintro _ ⟨⟩
            exact hle now List.mem_cons_self
          · rw [hmoment]
            exact hclock

end InOrder

theorem run_history (delay : Span) (calls : List Call) (t : Timeline) :
    (run delay calls t).history = t.history.run delay calls := by
  induction calls generalizing t with
  | nil => rfl
  | cons call calls ih => exact ih (t.after delay call)

theorem Moves.calls (hmove : Moves delay t call t') :
    (∃ came, t'.arrivals.map Prod.fst = t.arrivals.map Prod.fst ++ came ∧
        came.Sublist [call]) ∧
      ∃ went, t'.departures.map Prod.fst = t.departures.map Prod.fst ++ went ∧
        went.Sublist [call] := by
  have hnone {calls : List Call} : ∃ more, calls = calls ++ more ∧ more.Sublist [call] :=
    ⟨[], (List.append_nil calls).symm, List.nil_sublist _⟩
  cases hmove with
  | stay _ _ _ => exact ⟨hnone, hnone⟩
  | arrive _ _ _ _ => exact ⟨⟨[call], List.map_append, List.Sublist.refl _⟩, hnone⟩
  | depart _ _ _ _ _ _ _ => exact ⟨hnone, ⟨[call], List.map_append, List.Sublist.refl _⟩⟩

/-- What came and went did so in the order of the calls. -/
theorem run_calls (delay : Span) (hn : t.history.IsNumbered) (calls : List Call) :
    (∃ came, (run delay calls t).arrivals.map Prod.fst = t.arrivals.map Prod.fst ++ came ∧
        came.Sublist calls) ∧
      ∃ went, (run delay calls t).departures.map Prod.fst = t.departures.map Prod.fst ++ went ∧
        went.Sublist calls := by
  induction calls generalizing t with
  | nil =>
      exact ⟨⟨[], (List.append_nil _).symm, .slnil⟩, ⟨[], (List.append_nil _).symm, .slnil⟩⟩
  | cons call calls ih =>
      have hnext := hn.moves (History.after_moves delay t.history call)
      obtain ⟨⟨came, hcame, hcall⟩, ⟨went, hwent, hcall'⟩⟩ := (after_moves hn delay call).calls
      obtain ⟨⟨more, hmore, hcalls⟩, ⟨more', hmore', hcalls'⟩⟩ := ih (t := t.after delay call) hnext
      rw [hcame, List.append_assoc] at hmore
      rw [hwent, List.append_assoc] at hmore'
      exact ⟨⟨came ++ more, hmore, hcall.append hcalls⟩,
        ⟨went ++ more', hmore', hcall'.append hcalls'⟩⟩

end

/-- Whatever is called, with whatever receipts, if the clock does not go back. A poll of an
open broker takes the first ready task of the first queue that has one, and leaves all others
in their order; it finds nothing only if none is ready. The tasks that came to wait are those
that were submitted and those that failed, which are ready one delay after the failure, and
both are listed in the order of the calls, like the deliveries. On each lane, so for the first
deliveries of a queue and for the further ones, the deliveries are those of the first
arrivals, in their order and when they were ready, and the other arrivals wait. -/
theorem delivers_in_order (delay : Span) (calls : List Call)
    (hclock : (calls.filterMap Call.moment?).Pairwise (· ≤ ·)) :
    let t := run delay calls {}
    let s := t.history.backlog
    t.history = History.run delay calls {} ∧
      (s.closed = false → ∀ now queues,
        ((dequeue now queues).run s = ⟨.ok none, s, []⟩ ∧
          ∀ q ∈ queues, s.HasNoneReady now.moment q) ∨
        ∃ queue e,
          ((dequeue now queues).run s).value = .ok (some (delivery queue (s.issued + 1) e)) ∧
            s.Takes now.moment queues queue e ((dequeue now queues).run s).state) ∧
      (t.arrivals.map Prod.fst).Sublist calls ∧
      (∀ a ∈ t.arrivals, Arrives delay t.history.delivered a) ∧
      (t.arrivals.filter (·.2.lane.2 = false)).map (fun a => (a.2.queue, a.2.entry.ticket)) =
        t.history.accepted ∧
      (t.departures.map Prod.fst).Sublist calls ∧
      t.departures.map Prod.snd = t.history.delivered ∧
      ∀ lane, ∃ gone left, t.arrivalsOn lane = gone ++ left ∧
        List.Forall₂ Serves gone (t.departuresFrom lane) ∧
        left.map Prod.snd = s.waiting.filter (·.lane = lane) := by
  intro t s
  have hl : t.IsLog delay := (empty_isLog delay).run calls
  have hstart : (0 :: calls.filterMap Call.moment?).Pairwise (· ≤ ·) :=
    List.pairwise_cons.mpr ⟨fun now _ => Nat.zero_le now, hclock⟩
  obtain ⟨later, ho⟩ := (empty_inOrder delay 0).run History.empty_isNumbered hstart
  obtain ⟨⟨came, hcame, hcalls⟩, ⟨went, hwent, hcalls'⟩⟩ :=
    run_calls delay (t := {}) History.empty_isNumbered calls
  rw [List.map_nil, List.nil_append] at hcame hwent
  refine ⟨run_history delay calls {}, fun hopen now queues => dequeue_takes_first hopen now queues,
    ?_, hl.arrives, hl.accepted, ?_, hl.delivered, ho.lanes⟩
  · rw [hcame]
    exact hcalls
  · rw [hwent]
    exact hcalls'

/-- Two tasks fail and wait for five nanoseconds while a third one arrives: the first of them
is delivered again before the third one, because it stands before it and is ready by then. -/
theorem delivers_in_order_mixed :
    let now (moment : Moment) : Now := ⟨moment, Timestamp.epoch⟩
    let task : Task := ⟨"mail", "1".toUTF8⟩
    let receipt (msgId : Int) : Receipt := ⟨"q", msgId, 0, 1⟩
    let calls : List Call := [.enqueue "a" (now 0) task "q" 1, .enqueue "b" (now 0) task "q" 1,
      .dequeue (now 1) ["q"], .fail (now 2) (receipt 1) "no", .enqueue "c" (now 3) task "q" 1,
      .dequeue (now 4) ["q"], .fail (now 5) (receipt 2) "no", .dequeue (now 7) ["p", "q"],
      .dequeue (now 8) ["q"], .dequeue (now 9) ["q"], .dequeue (now 10) ["q"]]
    let t := run ⟨5⟩ calls {}
    t.departures.map Prod.snd = t.history.delivered ∧
      t.history.delivered.map (·.context.taskId) =
        [some "a", some "b", some "a", some "c", some "b"] ∧
      (t.departuresFrom ("q", false)).map (·.2.context.taskId) = [some "a", some "b", some "c"] ∧
      (t.departuresFrom ("q", true)).map (·.2.context.taskId) = [some "a", some "b"] := by
  intro now task receipt calls t
  obtain ⟨-, -, -, -, -, -, hdelivered, -⟩ := delivers_in_order ⟨5⟩ calls (by decide)
  exact ⟨hdelivered, by decide, by decide, by decide⟩

end Timeline

end Backlog

end TaskAudit
