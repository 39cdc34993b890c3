import Mathlib
import TaskAudit.Proofs.Worker.Watch

/-!
# Where a task stands

Of everything that a pool works with, the share of one id is what bears that id: the
entries at the broker, the executions, the calls of the handler and the record. A
standing says what that share looks like while a task is tried again and again: it waits
with the attempts behind it that failed, or one execution works on it, or it is dead, or
it is done. If handlers always end, and end as the task and the number of attempts before
tell, every turn of the pool leads from one standing to another.
-/
namespace TaskAudit.Worker
open scoped List

/-- The text of the last failed one among the first attempts. -/
def lastError (ends : UInt32 → Outcome) : Nat → Option String
  | 0 => none
  | n + 1 =>
    match ends (UInt32.ofNat n) with
    | .completed => lastError ends n
    | .failed text => some text

def statusAfter (ends : UInt32 → Outcome) : Nat → Status
  | 0 => .created
  | n + 1 => (ends (UInt32.ofNat n)).status

/-- The record of a task of which `n` attempts have ended and that no handler works on. Its
times were read from the clock in their order. -/
structure Rests (ends : UInt32 → Outcome) (clock : List Timestamp) (n : Nat) (r : Record) :
    Prop where
  status : r.status = statusAfter ends n
  error : r.errorMessage = lastError ends n
  result : r.resultPayload = none
  started : r.startedAt.isSome = decide (0 < n)
  finished : r.finishedAt.isSome = decide (0 < n)
  times : r.createdAt :: r.enqueuedAt :: (r.startedAt.toList ++ r.finishedAt.toList) <+ clock

/-- The record of a task of which `n` attempts have ended and that a handler works on. -/
structure Runs (ends : UInt32 → Outcome) (clock : List Timestamp) (n : Nat) (r : Record) :
    Prop where
  error : r.errorMessage = lastError ends n
  result : r.resultPayload = none
  started : r.startedAt.isSome = true
  times : r.createdAt :: r.enqueuedAt :: r.startedAt.toList <+ clock

section

variable {ends : UInt32 → Outcome} {clock later : List Timestamp} {n : Nat} {r : Record}

theorem Rests.mono (h : Rests ends clock n r) (hclock : clock <+ later) : Rests ends later n r :=
  ⟨h.status, h.error, h.result, h.started, h.finished, h.times.trans hclock⟩

theorem Runs.mono (h : Runs ends clock n r) (hclock : clock <+ later) : Runs ends later n r :=
  ⟨h.error, h.result, h.started, h.times.trans hclock⟩

theorem Rests.eachTime {P : Timestamp → Prop} (h : Rests ends clock n r)
    (hclock : ∀ t ∈ clock, P t) : r.EachTime P := by
  have htimes := fun t ht => hclock t (h.times.mem ht)
  simp only [List.mem_cons, List.mem_append, Option.mem_toList] at htimes
  exact ⟨htimes _ (.inl rfl), htimes _ (.inr (.inl rfl)),
    fun t ht => htimes t (.inr (.inr (.inl ht))), fun t ht => htimes t (.inr (.inr (.inr ht)))⟩

theorem Rests.open (h : Rests ends clock n r) (time : Timestamp) (id : String) :
    Runs ends (clock ++ [time]) n ((Tracking.opening time id).amend r) where
  error := h.error
  result := h.result
  started := rfl
  times := by
    have hcreated : [r.createdAt, r.enqueuedAt] <+ clock :=
      (List.prefix_append [r.createdAt, r.enqueuedAt] _).sublist.trans h.times
    exact hcreated.append (.refl [time])

theorem Runs.close (h : Runs ends clock n r) (time : Timestamp) (id : String) :
    Rests ends (clock ++ [time]) (n + 1)
      ((Tracking.closing (ends (UInt32.ofNat n)) time id).amend r) := by
  have htimes := h.times.append (.refl [time])
  have herror := h.error
  cases hend : ends (UInt32.ofNat n) with
  | completed =>
      refine ⟨?_, ?_, rfl, ?_, rfl, htimes⟩
      · simp [statusAfter, hend, Tracking.closing, Write.amend, Outcome.status]
      · simpa [lastError, hend, Tracking.closing, Write.amend] using herror
      · simpa [Tracking.closing, Write.amend] using h.started
  | failed text =>
      refine ⟨?_, ?_, h.result, ?_, rfl, htimes⟩
      · simp [statusAfter, hend, Tracking.closing, Write.amend, Outcome.status]
      · simp [lastError, hend, Tracking.closing, Write.amend]
      · simpa [Tracking.closing, Write.amend] using h.started

end

structure Job where
  task : Task
  queue : String
  maxRetry : UInt32

namespace Job

def entry (j : Job) (id : String) (retryCount : UInt32) (readyAt : Moment) : Entry :=
  ⟨id, j.task, j.maxRetry, retryCount, readyAt⟩

/-- May there be an attempt with this number of attempts before? -/
structure Allows (ends : Task → UInt32 → Outcome) (j : Job) (retryCount : UInt32) : Prop where
  retries : retryCount ≤ j.maxRetry
  failed : ∀ k < retryCount, ends j.task k ≠ .completed

theorem Allows.succ {ends : Task → UInt32 → Outcome} {j : Job} {retryCount : UInt32}
    (h : j.Allows ends retryCount) (hretries : retryCount < j.maxRetry)
    (hends : ends j.task retryCount ≠ .completed) : j.Allows ends (retryCount + 1) where
  retries := by
    rw [UInt32.le_iff_toNat_le, Backlog.toNat_add_one hretries]
    exact UInt32.lt_iff_toNat_lt.mp hretries
  failed := by
    intro k hk
    rw [UInt32.lt_iff_toNat_lt, Backlog.toNat_add_one hretries, Nat.lt_succ_iff_lt_or_eq] at hk
    rcases hk with hk | hk
    · exact h.failed k (UInt32.lt_iff_toNat_lt.mpr hk)
    · rwa [UInt32.toNat_inj.mp hk]

/-- Are these calls of the handler the first attempts of the job, in their order? -/
def Tried (j : Job) (attempts : List (Context × Task)) (n : Nat) : Prop :=
  attempts.map (fun a => (a.2, a.1.retryCount.toNat)) = (List.range n).map fun k => (j.task, k)

theorem tried_zero (j : Job) : j.Tried [] 0 := rfl

theorem Tried.succ {j : Job} {attempts : List (Context × Task)} {n : Nat} (h : j.Tried attempts n)
    {context : Context} (hcontext : context.retryCount.toNat = n) :
    j.Tried (attempts ++ [(context, j.task)]) (n + 1) := by
  rw [Tried, List.map_append, h, List.range_succ, List.map_append, List.map_singleton, hcontext]
  rfl

/-- How far the execution of an attempt is, with the calls of the handler and the record. -/
def IsAt (ends : Task → UInt32 → Outcome) (clock : List Timestamp) (j : Job)
    (retryCount : UInt32) : Stage → List (Context × Task) → Record → Prop
  | .arrived, attempts, r =>
    j.Tried attempts retryCount.toNat ∧ Rests (ends j.task) clock retryCount.toNat r
  | .started, attempts, r =>
    j.Tried attempts retryCount.toNat ∧ Runs (ends j.task) clock retryCount.toNat r
  | .stuck, _, _ => False
  | .ended outcome, attempts, r =>
    j.Tried attempts (retryCount.toNat + 1) ∧ Runs (ends j.task) clock retryCount.toNat r ∧
      outcome = ends j.task retryCount
  | .marked outcome, attempts, r =>
    j.Tried attempts (retryCount.toNat + 1) ∧ Rests (ends j.task) clock (retryCount.toNat + 1) r ∧
      outcome = ends j.task retryCount

theorem IsAt.mono {ends : Task → UInt32 → Outcome} {clock later : List Timestamp} {j : Job}
    {retryCount : UInt32} {stage : Stage} {attempts : List (Context × Task)} {r : Record}
    (h : j.IsAt ends clock retryCount stage attempts r) (hclock : clock <+ later) :
    j.IsAt ends later retryCount stage attempts r := by
  cases stage with
  | arrived | started => exact ⟨h.1, h.2.mono hclock⟩
  | stuck => exact h
  | ended _ | marked _ => exact ⟨h.1, h.2.1.mono hclock, h.2.2⟩

end Job

/-- What bears one id: in the hands of the broker, of the workers and of the trail. -/
structure Share where
  waiting : List Waiting := []
  inFlight : List (Int × Entry) := []
  dead : List Entry := []
  running : List Execution := []
  attempts : List (Context × Task) := []
  acked : List Entry := []
  record : Option Record := none

/-- The share of an id when its trail keeps a ledger. -/
def Watch.share {η : Type} (v : Watch η) (m : Ledger) (id : String) : Share where
  waiting := v.pool.broker.waiting.filter (·.entry.taskId = id)
  inFlight := v.pool.broker.inFlight.filter (·.2.taskId = id)
  dead := v.pool.broker.dead.filter (·.taskId = id)
  running := v.pool.running.filter (·.delivery.context.taskId = some id)
  attempts := v.attempts.filter (·.1.taskId = some id)
  acked := v.acked.filter (·.taskId = id)
  record := m id

/-- Where a task stands, if there is one with the id. -/
inductive Standing (ends : Task → UInt32 → Outcome) (clock : List Timestamp) (id : String) :
    Option Job → Share → Prop where
  | unknown : Standing ends clock id none {}
  | waiting {j : Job} {retryCount readyAt attempts r} (hallows : j.Allows ends retryCount)
    (htried : j.Tried attempts retryCount.toNat)
    (hrests : Rests (ends j.task) clock retryCount.toNat r) :
    Standing ends clock id (some j)
      { waiting := [⟨j.queue, j.entry id retryCount readyAt⟩], attempts, record := some r }
  | running {j : Job} {retryCount readyAt msgId number stage attempts r}
    (hallows : j.Allows ends retryCount) (hat : j.IsAt ends clock retryCount stage attempts r) :
    Standing ends clock id (some j)
      { inFlight := [(msgId, j.entry id retryCount readyAt)]
        running := [⟨number, Backlog.delivery j.queue msgId (j.entry id retryCount readyAt), stage⟩]
        attempts
        record := some r }
  | dead {j : Job} {readyAt attempts r} (hallows : j.Allows ends j.maxRetry)
    (hends : ends j.task j.maxRetry ≠ .completed)
    (htried : j.Tried attempts (j.maxRetry.toNat + 1))
    (hrests : Rests (ends j.task) clock (j.maxRetry.toNat + 1) r) :
    Standing ends clock id (some j)
      { dead := [j.entry id j.maxRetry readyAt], attempts, record := some r }
  | done {j : Job} {retryCount readyAt attempts r} (hallows : j.Allows ends retryCount)
    (hends : ends j.task retryCount = .completed)
    (htried : j.Tried attempts (retryCount.toNat + 1))
    (hrests : Rests (ends j.task) clock (retryCount.toNat + 1) r) :
    Standing ends clock id (some j)
      { acked := [j.entry id retryCount readyAt], attempts, record := some r }

namespace Standing

variable {ends : Task → UInt32 → Outcome} {clock later : List Timestamp} {id : String}
variable {job : Option Job} {share : Share}

theorem mono (h : Standing ends clock id job share) (hclock : clock <+ later) :
    Standing ends later id job share := by
  cases h with
  | unknown => exact .unknown
  | waiting hallows htried hrests => exact .waiting hallows htried (hrests.mono hclock)
  | running hallows hat => exact .running hallows (hat.mono hclock)
  | dead hallows hends htried hrests => exact .dead hallows hends htried (hrests.mono hclock)
  | done hallows hends htried hrests => exact .done hallows hends htried (hrests.mono hclock)

theorem waiting_eq (h : Standing ends clock id job share) {w : Waiting} (hw : w ∈ share.waiting) :
    share.waiting = [w] ∧ share.inFlight = [] ∧ share.running = [] := by
  cases h with
  | waiting _ _ _ => exact ⟨by rw [List.mem_singleton.mp hw], rfl, rfl⟩
  | _ => cases hw

theorem running_eq (h : Standing ends clock id job share) {x : Execution}
    (hx : x ∈ share.running) :
    share.waiting = [] ∧ share.running = [x] ∧
      ∃ entry, share.inFlight = [(x.delivery.receipt.msgId, entry)] := by
  cases h with
  | running _ _ =>
      obtain rfl := List.mem_singleton.mp hx
      exact ⟨rfl, rfl, _, rfl⟩
  | _ => cases hx

theorem take (h : Standing ends clock id job share) {queue : String} {entry : Entry}
    (hw : ⟨queue, entry⟩ ∈ share.waiting) (msgId : Int) (number : Nat) :
    Standing ends clock id job
      { share with
        waiting := []
        inFlight := [(msgId, entry)]
        running := [⟨number, Backlog.delivery queue msgId entry, .arrived⟩] } := by
  cases h with
  | waiting hallows htried hrests =>
      obtain ⟨rfl, rfl⟩ := Waiting.mk.inj (List.mem_singleton.mp hw)
      exact .running hallows ⟨htried, hrests⟩
  | _ => cases hw

theorem opened (h : Standing ends clock id job share) {x : Execution} (hx : x ∈ share.running)
    (hstage : x.stage = .arrived) (time : Timestamp) :
    Standing ends (clock ++ [time]) id job
      { share with
        running := [{ x with stage := .started }]
        record := share.record.map (Tracking.opening time id).amend } := by
  cases h with
  | running hallows hat =>
      obtain rfl := List.mem_singleton.mp hx
      obtain rfl := hstage
      exact .running hallows ⟨hat.1, hat.2.open time id⟩
  | _ => cases hx

theorem handled (h : Standing ends clock id job share) {x : Execution} (hx : x ∈ share.running)
    (hstage : x.stage = .started) :
    Standing ends clock id job
      { share with
        running := [{ x with
          stage := .ended (ends x.delivery.task x.delivery.context.retryCount) }]
        attempts := share.attempts ++ [(x.delivery.context, x.delivery.task)] } := by
  cases h with
  | running hallows hat =>
      obtain rfl := List.mem_singleton.mp hx
      obtain rfl := hstage
      exact .running hallows ⟨hat.1.succ rfl, hat.2, rfl⟩
  | _ => cases hx

theorem closed (h : Standing ends clock id job share) {x : Execution} (hx : x ∈ share.running)
    {outcome : Outcome} (hstage : x.stage = .ended outcome) (time : Timestamp) :
    Standing ends (clock ++ [time]) id job
      { share with
        running := [{ x with stage := .marked outcome }]
        record := share.record.map (Tracking.closing outcome time id).amend } := by
  cases h with
  | @running j retryCount _ _ _ _ _ _ hallows hat =>
      obtain rfl := List.mem_singleton.mp hx
      obtain rfl := hstage
      obtain ⟨htried, hruns, rfl⟩ := hat
      have hclose := hruns.close time id
      rw [UInt32.ofNat_toNat] at hclose
      exact .running hallows ⟨htried, hclose, rfl⟩
  | _ => cases hx

theorem acked (h : Standing ends clock id job share) {x : Execution} (hx : x ∈ share.running)
    (hstage : x.stage = .marked .completed) {msgId : Int} {entry : Entry}
    (hentry : share.inFlight = [(msgId, entry)]) :
    Standing ends clock id job
      { share with inFlight := [], running := [], acked := share.acked ++ [entry] } := by
  cases h with
  | running hallows hat =>
      obtain rfl := List.mem_singleton.mp hx
      obtain rfl := hstage
      obtain ⟨htried, hrests, hends⟩ := hat
      cases hentry
      exact .done hallows hends.symm htried hrests
  | _ => cases hx

theorem buried (h : Standing ends clock id job share) {x : Execution} (hx : x ∈ share.running)
    {text : String} (hstage : x.stage = .marked (.failed text)) {msgId : Int} {entry : Entry}
    (hentry : share.inFlight = [(msgId, entry)]) (hretries : entry.maxRetry ≤ entry.retryCount) :
    Standing ends clock id job
      { share with inFlight := [], running := [], dead := share.dead ++ [entry] } := by
  cases h with
  | @running j retryCount _ _ _ _ _ _ hallows hat =>
      obtain rfl := List.mem_singleton.mp hx
      obtain rfl := hstage
      obtain ⟨htried, hrests, hends⟩ := hat
      cases hentry
      obtain rfl : retryCount = j.maxRetry := UInt32.le_antisymm hallows.retries hretries
      exact .dead hallows (by rw [← hends]; nofun) htried hrests
  | _ => cases hx

theorem retried (h : Standing ends clock id job share) {x : Execution} (hx : x ∈ share.running)
    {text : String} (hstage : x.stage = .marked (.failed text)) {msgId : Int} {entry : Entry}
    (hentry : share.inFlight = [(msgId, entry)]) (hretries : entry.retryCount < entry.maxRetry)
    (readyAt : Moment) :
    Standing ends clock id job
      { share with
        waiting := [⟨x.delivery.receipt.queue, Backlog.retried readyAt entry⟩]
        inFlight := []
        running := [] } := by
  cases h with
  | @running j retryCount _ _ _ _ _ _ hallows hat =>
      obtain rfl := List.mem_singleton.mp hx
      obtain rfl := hstage
      obtain ⟨htried, hrests, hends⟩ := hat
      cases hentry
      have hsucc : (retryCount + 1).toNat = retryCount.toNat + 1 := Backlog.toNat_add_one hretries
      have hallows' := hallows.succ hretries (by rw [← hends]; nofun)
      exact .waiting hallows' (hsucc ▸ htried) (hsucc ▸ hrests)
  | _ => cases hx

end Standing

end TaskAudit.Worker
