import Mathlib
import TaskAudit.Proofs.Worker.Routing
import TaskAudit.Proofs.Worker.Submitted

/-!
# What a drained pool leaves

Tasks are submitted, and then a pool works on them until the broker has nothing more to
deliver. If how a handler ends depends on nothing but the task and the number of attempts
before, then so does all that is left: every task was tried until it succeeded for the
first time or had no retries left, it was acknowledged or is dead, and its record says
so. Neither the number of workers nor the order of their steps nor what the lottery of
the queues draws makes a difference.
-/
namespace TaskAudit

/-- How a handler answers to a task: it always ends. -/
inductive Answer where
  | ok
  | error (text : String)
  | panic (text : Option String)
  deriving DecidableEq, Repr

namespace Answer

def ending : Answer → Ending
  | ok => .succeeded
  | error text => .failed text
  | panic text => .panicked text

def outcome : Answer → Outcome
  | ok => .completed
  | error text => .failed text
  | panic text => .failed ("panic: " ++ text.getD "handler panicked")

@[simp] theorem outcome?_ending (a : Answer) : a.ending.outcome? = some a.outcome := by
  cases a <;> rfl

end Answer

namespace Routes

variable {η : Type}

/-- Does every handler answer as a function of its pattern, the task and the number of
attempts before says? -/
def AnswersAs (routes : Routes η) (answer : String → Task → UInt32 → Answer) : Prop :=
  ∀ p ∈ routes, ∀ context task s,
    ((p.2 context task).run s).value = (answer p.1 task context.retryCount).ending

def outcome (routes : Routes η) (answer : String → Task → UInt32 → Answer) (task : Task)
    (retryCount : UInt32) : Outcome :=
  match routes.route task.taskType with
  | none => .failed (Error.handlerNotFound task.taskType).message
  | some p => (answer p.1 task retryCount).outcome

theorem AnswersAs.handler_outcome {routes : Routes η} {answer : String → Task → UInt32 → Answer}
    (h : routes.AnswersAs answer) (context : Context) (task : Task) (s : η) :
    ((routes.handler context task).run s).value.outcome? =
      some (routes.outcome answer task context.retryCount) := by
  rw [handler, outcome]
  cases hroute : routes.route task.taskType with
  | none => rfl
  | some p =>
      simp only
      rw [h p (isLongest_of_route hroute).mem, Answer.outcome?_ending]

end Routes

namespace Worker

/-- Tasks that are submitted, and a pool that then works on them: the settings of both, and
everything that they take from outside. -/
structure Workload (η : Type) where
  delay : Span
  table : AuditTable.Settings
  now : String
  defaultQueue : String
  requests : List Request
  routes : Routes η
  handler : η
  settings : Settings
  choices : List Choice

namespace Workload

variable {η : Type} (l : Workload η)

def submitter : Submitter Backlog Embedded := Worker.submitter l.delay l.table l.defaultQueue

def crew : Crew Backlog Embedded η :=
  Worker.crew l.delay l.table l.routes.handler (plan l.settings)

def start : Watch η :=
  .start ((Request.submitAll l.submitter l.requests).run ({}, .fresh l.now)).state l.handler
    (l.requests.flatMap Request.readings)

def finish : Watch η := .run l.crew l.choices l.start

def pool : Pool Backlog Embedded η := ((l.crew.run l.choices).run l.start.pool).state

theorem finish_pool : l.finish.pool = l.pool := Watch.run_pool l.crew l.choices l.start

def clock : List Timestamp :=
  l.requests.flatMap Request.readings ++ l.choices.filterMap Choice.reading?

theorem finish_clock : l.finish.clock = l.clock := Watch.run_clock l.crew l.choices l.start

def attempts (id : String) : List (Context × Task) :=
  l.finish.attempts.filter (·.1.taskId = some id)

def Acked (id : String) : Prop := ∃ e ∈ l.finish.acked, e.taskId = id

def Dead (id : String) : Prop := ∃ e ∈ l.pool.broker.dead, e.taskId = id

/-- Has the broker nothing left to deliver, and no delivery in flight? -/
structure IsDrained : Prop where
  queues : ∀ q ∈ (plan l.settings).queues, l.pool.broker.isEmpty q.1 = true
  inFlight : l.pool.broker.inFlightCount = 0

/-- The record that a task has in the trail after an attempt that was the last one. -/
structure Shows (ends : UInt32 → Outcome) (id : String) (last : UInt32) (r : Record) : Prop where
  row : ∃ row, l.pool.trail.row? id = some row ∧ row.Shows r
  read : (∀ t ∈ l.clock, t.HasPlainYear ∧ t.IsRegular) →
    ((AuditTable.get Embedded.database l.table id).run l.pool.trail).value = .ok r
  status : r.status = (ends last).status
  error : r.errorMessage = lastError ends (last.toNat + 1)
  result : r.resultPayload = none
  times : ∃ started finished, r.startedAt = some started ∧ r.finishedAt = some finished ∧
    (l.clock.Pairwise (· ≤ ·) →
      r.createdAt ≤ r.enqueuedAt ∧ r.enqueuedAt ≤ started ∧ started ≤ finished)

/-- What becomes of a task whose attempts end as `ends` says: it was tried up to the attempt
`last`, which is the first one that succeeds or the last one that it may have. -/
structure Settles (ends : Task → UInt32 → Outcome) (id : String) (task : Task)
    (maxRetry last : UInt32) : Prop where
  retries : last ≤ maxRetry
  failed : ∀ k < last, ends task k ≠ .completed
  final : ends task last = .completed ∨ last = maxRetry
  attempts : (l.attempts id).map (fun a => (a.2, a.1.retryCount.toNat)) =
    (List.range (last.toNat + 1)).map fun k => (task, k)
  acked : l.Acked id ↔ ends task last = .completed
  dead : l.Dead id ↔ ends task last ≠ .completed
  record : ∃ r, l.Shows (ends task) id last r

variable {l} {ends : Task → UInt32 → Outcome} {jobs : String → Option Job} {m : Ledger}

theorem shows_of_rests (h : Orderly ends jobs l.finish m) {id : String} {last : UInt32}
    {o : UInt32 → Outcome} {r : Record} (hr : m id = some r)
    (hrests : Rests o l.finish.clock (last.toNat + 1) r) : l.Shows o id last r where
  row := by
    rw [← finish_pool]
    exact h.holds.row? hr
  read := by
    intro hclock
    rw [← finish_clock] at hclock
    have hyears : r.HasPlainYears := hrests.eachTime fun t ht => (hclock t ht).1
    have hregular : r.IsRegular := hrests.eachTime fun t ht => (hclock t ht).2
    have hread : (AuditTable.get Embedded.database l.table id).run l.finish.pool.trail = _ :=
      AuditTable.run_get h.holds id fun r' hr' => Option.some.inj (hr.symm.trans hr') ▸ hyears
    rw [hr] at hread
    rw [← finish_pool, hread]
    exact congrArg Except.ok (Record.written_of_regular hregular)
  status := by
    rw [hrests.status, statusAfter, UInt32.ofNat_toNat]
  error := hrests.error
  result := hrests.result
  times := by
    have hstarted := hrests.started
    have hfinished := hrests.finished
    have htimes := hrests.times
    rw [finish_clock] at htimes
    rw [decide_eq_true (Nat.succ_pos _), Option.isSome_iff_exists] at hstarted hfinished
    obtain ⟨started, hstarted⟩ := hstarted
    obtain ⟨finished, hfinished⟩ := hfinished
    refine ⟨started, finished, hstarted, hfinished, fun hsorted => ?_⟩
    rw [hstarted, hfinished] at htimes
    have hpairs := hsorted.sublist htimes
    simp at hpairs
    exact ⟨hpairs.1.1, hpairs.2.1.1, hpairs.2.2⟩

theorem acked_iff (m : Ledger) (id : String) :
    l.Acked id ↔ (l.finish.share m id).acked ≠ [] := by
  simp [Acked, Watch.share, List.filter_eq_nil_iff]

theorem dead_iff (m : Ledger) (id : String) : l.Dead id ↔ (l.finish.share m id).dead ≠ [] := by
  simp [Dead, Watch.share, List.filter_eq_nil_iff, finish_pool]

theorem IsDrained.waiting (h : l.IsDrained) {w : Waiting} (hw : w ∈ l.finish.pool.broker.waiting)
    (hqueue : w.queue ∈ (plan l.settings).queues.map Prod.fst) : False := by
  obtain ⟨q, hq, hname⟩ := List.mem_map.mp hqueue
  have hempty := h.queues q hq
  rw [finish_pool] at hw
  rw [Backlog.isEmpty, decide_eq_true_iff, Backlog.length, Backlog.inQueue, List.length_map,
    List.length_eq_zero_iff, List.filter_eq_nil_iff] at hempty
  exact hempty w hw (decide_eq_true hname.symm)

/-- In a drained pool every task stands where its last attempt left it. -/
theorem settles_of_drained (h : Orderly ends jobs l.finish m) (hdrained : l.IsDrained)
    {id : String} {j : Job} (hjob : jobs id = some j)
    (hqueue : j.queue ∈ (plan l.settings).queues.map Prod.fst) :
    ∃ last, l.Settles ends id j.task j.maxRetry last := by
  have hshare := h.standing id
  have hacked := l.acked_iff m id
  have hdead := l.dead_iff m id
  rw [hjob] at hshare
  generalize hs : l.finish.share m id = share at hshare hacked hdead
  have hattempts : l.attempts id = share.attempts := congrArg Share.attempts hs
  cases hshare with
  -- a task that waits or is worked on would still be at the broker
  | @waiting _ retryCount readyAt _ _ _ _ _ =>
      have hmem : ⟨j.queue, j.entry id retryCount readyAt⟩ ∈ (l.finish.share m id).waiting := by
        rw [hs]
        exact List.mem_singleton_self _
      exact (hdrained.waiting (List.mem_of_mem_filter hmem) hqueue).elim
  | @running _ retryCount readyAt msgId _ _ _ _ _ _ =>
      have hmem : (msgId, j.entry id retryCount readyAt) ∈ (l.finish.share m id).inFlight := by
        rw [hs]
        exact List.mem_singleton_self _
      have hnil : l.finish.pool.broker.inFlight = [] := by
        rw [finish_pool]
        exact List.length_eq_zero_iff.mp hdrained.inFlight
      have hflight := List.mem_of_mem_filter hmem
      rw [hnil] at hflight
      cases hflight
  | dead hallows hends htried hrests =>
      exact ⟨j.maxRetry, hallows.retries, hallows.failed, .inr rfl, hattempts ▸ htried,
        by simp [hacked, hends], by simp [hdead, hends],
        _, shows_of_rests h (congrArg Share.record hs) hrests⟩
  | @done _ retryCount _ _ _ hallows hends htried hrests =>
      exact ⟨retryCount, hallows.retries, hallows.failed, .inl hends, hattempts ▸ htried,
        by simp [hacked, hends], by simp [hdead, hends],
        _, shows_of_rests h (congrArg Share.record hs) hrests⟩

/-- When the broker has drained, every task that was submitted to a queue that is polled was
tried with `0`, `1`, … attempts behind it until one succeeded or no retries were left. In the
first case it was acknowledged, in the second it is dead, and the record says how the last
attempt ended and what the last failed one said. -/
theorem settles (l : Workload η) (hd : l.table.dialect = .positional)
    (hids : (l.requests.map Request.id).Nodup)
    (hqueues : ∀ r ∈ l.requests,
      l.submitter.queueOf r.options ∈ (plan l.settings).queues.map Prod.fst)
    {answer : String → Task → UInt32 → Answer} (hanswer : l.routes.AnswersAs answer)
    (hshow : ∀ choice ∈ l.choices, choice.IsShowable l.delay) (hdrained : l.IsDrained) :
    ∀ r ∈ l.requests, ∀ text, r.text = .ok text →
      ∃ last, l.Settles (l.routes.outcome answer) r.id ⟨r.taskType, text.toUTF8⟩
        (r.options.maxRetry.getD defaultMaxRetry) last := by
  have hempty : Orderly (l.routes.outcome answer) (fun _ => none)
      (.start ({}, .fresh l.now) l.handler []) Ledger.empty :=
    ⟨fun _ => .unknown, nofun, List.nodup_nil, nofun, List.nodup_nil, nofun,
      Embedded.fresh_holds l.now⟩
  obtain ⟨jobs, m, hstart, hjobs, -⟩ := hempty.submitAll l.delay l.defaultQueue hd l.requests hids
    rfl fun _ _ => rfl
  obtain ⟨m', hfinish⟩ := hstart.run hd hanswer.handler_outcome (plan l.settings) l.choices hshow
  intro r hr text htext
  exact settles_of_drained hfinish hdrained (hjobs r hr text htext) (hqueues r hr)

/-- A task whose first attempt panics, beside one that no handler is there for. -/
theorem settles_of_panic :
    let request (id taskType : String) (maxRetry : UInt32) : Request :=
      ⟨String, ⟨.ok⟩, "1", taskType, ⟨none, some maxRetry⟩,
        ⟨id, ⟨0, Timestamp.epoch⟩, Timestamp.epoch, Timestamp.epoch⟩⟩
    let routes : Routes Unit := [("mail", fun context _ =>
      pure (if context.retryCount = 0 then .panicked (some "boom") else .succeeded))]
    let answer : String → Task → UInt32 → Answer := fun _ _ retryCount =>
      if retryCount = 0 then .panic (some "boom") else .ok
    let now : Now := ⟨0, Timestamp.epoch⟩
    let poll : Choice := .poll now ⟨[], 0⟩
    let attempt (number : Nat) : List Choice := poll :: List.replicate 4 (.advance number now)
    let l : Workload Unit :=
      ⟨⟨0⟩, ⟨.positional, none⟩, "", "", [request "a" "mail" 5, request "b" "call" 0], routes, (),
        {}, attempt 0 ++ attempt 1 ++ attempt 2⟩
    (∃ last, l.Settles (l.routes.outcome answer) "a" ⟨"mail", "1".toUTF8⟩ 5 last) ∧
      ∃ last, l.Settles (l.routes.outcome answer) "b" ⟨"call", "1".toUTF8⟩ 0 last := by
  intro request routes answer now poll attempt l
  have hanswer : l.routes.AnswersAs answer := by
    intro p hp context task s
    obtain rfl := List.mem_singleton.mp hp
    by_cases hfirst : context.retryCount = 0 <;> simp [answer, hfirst, Answer.ending]
  have hsettles := settles l rfl (by decide) (by decide) hanswer (by decide)
    ⟨by decide, by decide⟩
  exact ⟨hsettles (request "a" "mail" 5) (by simp [l]) "1" rfl,
    hsettles (request "b" "call" 0) (by simp [l]) "1" rfl⟩

end Workload

end Worker

end TaskAudit
