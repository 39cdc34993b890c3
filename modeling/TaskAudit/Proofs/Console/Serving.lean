import Mathlib
import TaskAudit.Broker.Messages.Queues
import TaskAudit.Console.Program
import TaskAudit.Proofs.Broker.Exchanges
import TaskAudit.Proofs.Broker.Footprint
import TaskAudit.Proofs.Setup.Queues
import TaskAudit.Proofs.Worker.Polling
import TaskAudit.Proofs.Worker.Steps

/-!
# Queues that are made and queues that are polled

Serving makes every queue that a weight was given for, whatever the weight and in the order in
which the map of the weights is gone through, and then lets the workers poll those of positive
weight. If no weight is positive the workers poll the usual queue instead, which nobody has made
unless a weight was given for it too. In every other case each queue that is polled was made
before.
-/
namespace TaskAudit

namespace Worker

namespace Crew

variable {β σ η : Type} {w : Crew β σ η} {P : β → Prop}

theorem step_keeps
    (hdequeue : ∀ now words, Action.Keeps P
      (w.broker.dequeue now (pollingOrder w.plan.queues words).1))
    (hack : ∀ receipt, Action.Keeps P (w.broker.ack receipt))
    (hfail : ∀ now receipt text, Action.Keeps P (w.broker.fail now receipt text))
    (choice : Choice) : Action.Keeps (fun s => P s.broker) (w.step choice) := by
  intro s hs
  have hdoes := w.step_does choice s
  generalize ((w.step choice).run s).state = s' at hdoes ⊢
  cases hdoes with
  | missed _ _ => exact hdequeue _ _ _ hs
  | took _ _ _ => exact hdequeue _ _ _ hs
  | @reported now x outcome _ _ =>
      cases outcome with
      | completed => exact hack _ _ hs
      | failed text => exact hfail _ _ _ _ hs
  | _ => exact hs

theorem serve_keeps
    (hdequeue : ∀ now words, Action.Keeps P
      (w.broker.dequeue now (pollingOrder w.plan.queues words).1))
    (hack : ∀ receipt, Action.Keeps P (w.broker.ack receipt))
    (hfail : ∀ now receipt text, Action.Keeps P (w.broker.fail now receipt text))
    (wanted : Pool β σ η → Bool) (readings : List Reading) :
    Action.Keeps (fun s => P s.broker) (w.serve wanted readings) := by
  have hfollow : Action.Keeps (fun s => P s.broker) (w.follow wanted readings) := by
    induction readings with
    | nil => exact Action.keeps_pure ()
    | cons r rs ih =>
        intro s hs
        simp only [follow, Action.run_bind, Action.run_get]
        cases w.next (wanted s) r s with
        | none => exact hs
        | some choice => exact ih _ (step_keeps hdequeue hack hfail choice s hs)
  exact (Action.keeps_tell _).bind fun _ => hfollow

end Crew

end Worker

/-- Is it a statement that workers send who poll these queues? -/
def Exchange.IsByWorkers (polled : List String) : Exchange → Prop
  | read queue .. => queue ∈ polled
  | archive .. | hide .. => True
  | create .. | send .. | close => False

/-- Have only workers been at the server since some statements? -/
def Exchange.WorkedSince {κ : Type} (polled : List String) (before : List Exchange)
    (s : κ × List Exchange) : Prop :=
  ∃ later, s.2 = before ++ later ∧ ∀ x ∈ later, x.IsByWorkers polled

section

variable {κ α : Type} {server : QueueServer κ} {polled : List String} {before : List Exchange}

theorem Action.noted_keeps (a : Action κ α) {entry : α → Exchange}
    (h : ∀ answer, (entry answer).IsByWorkers polled) :
    Action.Keeps (Exchange.WorkedSince polled before) (a.noted entry) := by
  rintro ⟨s, log⟩ ⟨later, rfl, hlater⟩
  refine ⟨later ++ [entry (a.run s).value], List.append_assoc .., ?_⟩
  intro x hx
  rcases List.mem_append.mp hx with hx | hx
  · exact hlater x hx
  · exact List.mem_singleton.mp hx ▸ h _

theorem QueueServer.archive_keeps (queue : String) (msgId : Int) :
    Action.Keeps (Exchange.WorkedSince polled before) (server.minuted.archive queue msgId) :=
  Action.noted_keeps _ fun _ => trivial

theorem QueueServer.hide_keeps (queue : String) (msgId delay : Int) :
    Action.Keeps (Exchange.WorkedSince polled before) (server.minuted.hide queue msgId delay) :=
  Action.noted_keeps _ fun _ => trivial

theorem Worker.Crew.serve_workedSince {σ η : Type} {w : Crew (κ × List Exchange) σ η}
    {settings : Messages.Settings} (hbroker : w.broker = Messages.broker server.minuted settings)
    (wanted : Pool (κ × List Exchange) σ η → Bool) (readings : List Reading)
    (s : Pool (κ × List Exchange) σ η) :
    Exchange.WorkedSince (w.plan.queues.map Prod.fst) s.broker.2
      ((w.serve wanted readings).run s).state.broker := by
  have hstart : Exchange.WorkedSince (w.plan.queues.map Prod.fst) s.broker.2 s.broker :=
    ⟨[], (List.append_nil _).symm, nofun⟩
  refine serve_keeps ?_ ?_ ?_ wanted readings s hstart
  · intro now words
    rw [hbroker]
    refine Messages.dequeue_keeps (fun queue hqueue => ?_) QueueServer.archive_keeps
    exact Action.noted_keeps _ fun _ => mem_pollingOrder hqueue
  · intro receipt
    rw [hbroker]
    exact Messages.counted_keeps (QueueServer.archive_keeps _ _)
  · intro now receipt text
    rw [hbroker]
    exact (Messages.fail_keeps QueueServer.archive_keeps QueueServer.hide_keeps).bind
      fun _ => Action.keeps_pure _

end

namespace Setup

def askedQueues (setup : Setup) : List String := setup.workerSettings.queues.map Prod.fst

theorem polledQueues_subset_iff (setup : Setup) :
    (∀ name ∈ setup.polledQueues, name ∈ setup.askedQueues) ↔
      setup.queues = [] ∨ (∃ q ∈ setup.queues, 0 < q.2) ∨
        "default" ∈ setup.queues.map Prod.fst := by
  by_cases hnone : setup.queues = []
  · have hasked : setup.askedQueues = [setup.defaultQueue] := by
      simp [askedQueues, workerSettings, hnone]
    simp [polledQueues_of_noWeights hnone, hasked, hnone]
  · have hasked : setup.askedQueues = setup.queues.map Prod.fst := by
      simp [askedQueues, workerSettings, hnone]
    have hpolled : setup.polledQueues = (Worker.polled setup.queues).map Prod.fst := by
      simp [polledQueues, Worker.plan, workerSettings, hnone]
    rw [hasked, hpolled]
    rcases Worker.polled_cases setup.queues with ⟨hpositive, hqueues⟩ | ⟨hzero, hqueues⟩
    · refine iff_of_true ?_ (.inr (.inl hpositive))
      intro name hname
      have hmem := (hqueues.map Prod.fst).mem_iff.mp hname
      exact (List.filter_sublist.map Prod.fst).mem hmem
    · rw [hqueues]
      simp only [List.map_cons, List.map_nil, List.mem_singleton, forall_eq, hnone, hzero,
        false_or]
      rfl

/-- The order in which the map of the weights is gone through is no matter to the workers. -/
theorem map_plan_queues (setup : Setup) (order : Weights.Order) :
    (Worker.plan { setup.workerSettings with
      queues := order.entries setup.workerSettings.queues }).queues.map Prod.fst =
      setup.polledQueues := by
  have hqueues := Worker.polled_eq_of_perm (order.perm setup.workerSettings.queues)
  simp only [polledQueues, Worker.plan, hqueues]

end Setup

namespace Console.Program

variable {κ δ α : Type}

/-- What holds of a command that goes on after each answer, and of one that stops at each error,
holds of the two together. -/
theorem andThen_ensures {a : Action (Desk κ δ) (Except Error α)}
    {next : α → Action (Desk κ δ) Answer} {s : Desk κ δ} {P : Answer → Desk κ δ → Prop}
    (herror : ∀ fault, (a.run s).value = .error fault → P (.error (.ofError fault)) (a.run s).state)
    (hok : ∀ x, (a.run s).value = .ok x →
      P ((next x).run (a.run s).state).value ((next x).run (a.run s).state).state) :
    P ((andThen a next).run s).value ((andThen a next).run s).state := by
  simp only [andThen, Action.run_bind]
  cases hvalue : (a.run s).value with
  | error fault => exact herror fault hvalue
  | ok x => exact hok x hvalue

def creations (names : List String) : List Exchange := names.map (.create · (.ok ()))

/-- How the making of some queues can end: all are made, or it stops at one that is not. -/
inductive Makes : List String → List Exchange → Except Error Unit → Prop where
  | all {names : List String} : Makes names (creations names) (.ok ())
  | stopped (made : List String) {rest : List String} {name : String} {fault : DatabaseFault} :
    Makes (made ++ name :: rest) (creations made ++ [.create name (.error fault)])
      (.error (.storage fault))

theorem makeQueues_makes (server : QueueServer κ) (names : List String) (k : κ)
    (log : List Exchange) :
    let e := (makeQueues server.minuted names).run (k, log)
    ∃ more, e.state.2 = log ++ more ∧ Makes names more e.value := by
  induction names generalizing k log with
  | nil => exact ⟨[], (List.append_nil log).symm, .all⟩
  | cons name names ih =>
      simp only [makeQueues, Action.run_bind]
      cases hmade : ((Messages.makeQueue server.minuted name).run (k, log)).value with
      | error fault =>
          obtain ⟨cause, rfl, hlog⟩ := Messages.makeQueue_minuted_of_error hmade
          exact ⟨_, hlog, .stopped []⟩
      | ok _ =>
          have hlog := Messages.makeQueue_minuted_of_ok hmade
          generalize ((Messages.makeQueue server.minuted name).run (k, log)).state = s at hlog ⊢
          obtain ⟨k', log'⟩ := s
          obtain rfl : log' = _ := hlog
          obtain ⟨more, hmore, hmakes⟩ := ih k' (log ++ [.create name (.ok ())])
          refine ⟨.create name (.ok ()) :: more, hmore.trans (List.append_assoc ..), ?_⟩
          generalize ((makeQueues server.minuted names).run _).value = answer at hmakes ⊢
          cases hmakes with
          | all => exact .all
          | stopped made => exact .stopped (name :: made)

theorem work_workedSince {place : Place (κ × List Exchange)} {server : QueueServer κ}
    (hserver : place.server = server.minuted) (engine : Engine δ)
    (settings : AuditTable.Settings) (asked : Worker.Settings)
    (occasion : Occasion (κ × List Exchange)) (s : Desk (κ × List Exchange) δ) :
    Exchange.WorkedSince ((Worker.plan asked).queues.map Prod.fst) s.1.2
      ((work place engine settings asked occasion).run s).state.1 :=
  Worker.Crew.serve_workedSince
    (w := ⟨_, some (AuditTable.trail engine.database settings), handlers.handler, _⟩)
    (congrArg (Messages.broker · {}) hserver) _ _ ⟨s.1, s.2, (), .polling, [], 0⟩

section

variable (place : Place (κ × List Exchange)) (engine : Engine δ) (setup : Setup) (d : δ)

/-- How serving can end: what has passed between it and the server of the queues, and its
answer. -/
inductive ServeEnds : List Exchange → Answer → Prop where
  | unmigrated {fault : Error} (h : (engine.migrate.run d).value = .error fault) :
    ServeEnds [] (.error (.ofError fault))
  | unconnected {fault : Error} (h : connectQueues place setup.queueAddress = .error fault) :
    ServeEnds [] (.error (.ofError fault))
  | unmade {made rest : List String} {name : String} {fault : DatabaseFault}
    (hasked : (made ++ name :: rest).Perm setup.askedQueues) :
    ServeEnds (creations made ++ [.create name (.error fault)])
      (.error (.ofError (.storage fault)))
  | served {names : List String} {later : List Exchange} (hasked : names.Perm setup.askedQueues)
    (hlater : ∀ x ∈ later, x.IsByWorkers setup.polledQueues) :
    ServeEnds (creations names ++ later) (.ok "")

variable {place engine setup d}

/-- As soon as the workers have worked, the queues that were made are those that have a
weight. -/
theorem ServeEnds.created_iff {log : List Exchange} {text : String}
    (h : ServeEnds place engine setup d log (.ok text)) (name : String) :
    .create name (.ok ()) ∈ log ↔ name ∈ setup.askedQueues := by
  cases h with
  | @served names later hasked hlater =>
      rw [← hasked.mem_iff, List.mem_append]
      constructor
      · rintro (hmade | hmade)
        · obtain ⟨_, hname, heq⟩ := List.mem_map.mp hmade
          cases heq
          exact hname
        · exact (hlater _ hmade).elim
      · exact fun hname => .inl (List.mem_map_of_mem hname)

theorem ServeEnds.of_stopped {names : List String} {log : List Exchange} {fault : Error}
    (h : Makes names log (.error fault)) (hasked : names.Perm setup.askedQueues) :
    ServeEnds place engine setup d log (.error (.ofError fault)) := by
  cases h with
  | stopped _ => exact .unmade hasked

theorem ServeEnds.of_made {names : List String} {log later : List Exchange}
    (h : Makes names log (.ok ())) (hasked : names.Perm setup.askedQueues)
    (hlater : ∀ x ∈ later, x.IsByWorkers setup.polledQueues) :
    ServeEnds place engine setup d (log ++ later) (.ok "") := by
  cases h with
  | all => exact .served hasked hlater

variable (place engine setup d)

/-- Serving always ends in one of these ways. -/
theorem serve_serveEnds {server : QueueServer κ} (hserver : place.server = server.minuted)
    (settings : AuditTable.Settings) (occasion : Occasion (κ × List Exchange)) (k : κ) :
    let e := (serve place engine settings setup occasion).run ((k, []), d)
    ServeEnds place engine setup d e.state.1.2 e.value := by
  intro e
  let Ends (answer : Answer) (left : Desk (κ × List Exchange) δ) : Prop :=
    ServeEnds place engine setup d left.1.2 answer
  change Ends e.value e.state
  have hasked := (occasion.order.perm setup.workerSettings.queues).map Prod.fst
  have hpolled := setup.map_plan_queues occasion.order
  simp only [e, serve, hserver]
  generalize occasion.order.entries setup.workerSettings.queues = weights at hasked hpolled ⊢
  apply andThen_ensures
  · intro fault hmigrate
    exact .unmigrated hmigrate
  · intro _ _
    apply andThen_ensures
    · intro fault hconnect
      exact .unconnected hconnect
    · intro _ _
      obtain ⟨log, hlog, hmakes⟩ := makeQueues_makes server (weights.map Prod.fst) k []
      apply andThen_ensures
      · intro fault hfault
        simp only [Action.run_onFst, Action.run_onSnd, Action.run_pure] at hfault ⊢
        rw [hfault] at hmakes
        simp only [Ends, hlog, List.nil_append]
        exact .of_stopped hmakes hasked
      · intro _ hmade
        simp only [Action.run_onFst, Action.run_onSnd, Action.run_pure] at hmade ⊢
        rw [hmade] at hmakes
        obtain ⟨later, hlater, hworkers⟩ := work_workedSince hserver engine settings
          { setup.workerSettings with queues := weights } occasion
          (((makeQueues server.minuted (weights.map Prod.fst)).run (k, [])).state,
            (engine.migrate.run d).state)
        simp only [Ends, Action.run_bind, Action.run_pure, hlater, hlog, List.nil_append]
        exact .of_made hmakes hasked (hpolled ▸ hworkers)

/-- Whatever the server and the database answer, and in whatever order the map of the weights is
gone through: serving ends in one of the ways above. The queues that are to be polled are all
among those that have a weight exactly if no weights were given, if some weight is positive, or
if the usual queue is among those with weights; and once the workers have worked, this is when
every queue that they poll was made. -/
theorem serve_makes_polled_iff {env : Environment} (henv : Setup.ofEnvironment env = .ok setup)
    {server : QueueServer κ} (hserver : place.server = server.minuted)
    (settings : AuditTable.Settings) (occasion : Occasion (κ × List Exchange)) (k : κ) :
    let e := (serve place engine settings setup occasion).run ((k, []), d)
    let isGiven := env.HasNoWeights ∨ (∃ q ∈ setup.queues, 0 < q.2) ∨
      "default" ∈ setup.queues.map Prod.fst
    ServeEnds place engine setup d e.state.1.2 e.value ∧
      ((∀ name ∈ setup.polledQueues, name ∈ setup.askedQueues) ↔ isGiven) ∧
      ∀ text, e.value = .ok text →
        ((∀ name ∈ setup.polledQueues, .create name (.ok ()) ∈ e.state.1.2) ↔ isGiven) := by
  intro e isGiven
  have hends : ServeEnds place engine setup d e.state.1.2 e.value :=
    serve_serveEnds place engine setup d hserver settings occasion k
  have hiff : (∀ name ∈ setup.polledQueues, name ∈ setup.askedQueues) ↔ isGiven := by
    rw [setup.polledQueues_subset_iff, Setup.queues_eq_nil_iff henv]
  refine ⟨hends, hiff, fun text htext => ?_⟩
  rw [htext] at hends
  rw [← hiff]
  exact forall₂_congr fun name _ => hends.created_iff name

/-- Two queues, one of them with the weight zero, which are found in the map the other way
round. Both are made, one is polled. -/
theorem serve_makes_polled_of_two :
    let env : Environment := fun name => Named.find? name
      [("DATABASE_URL", "sqlite::memory:"), ("TASKTRAIL_QUEUES", "critical=0,low=2"),
        ("QUEUE_DATABASE_URL", "postgres://127.0.0.1:5432/queues?sslmode=disable")]
    let place : Place (Queues × List Exchange) :=
      { environment := env, machine := { servers := [("127.0.0.1", 5432)] }, databaseFile := []
        server := Queues.server.minuted }
    let now : Now := ⟨0, Timestamp.epoch⟩
    let occasion : Occasion (Queues × List Exchange) :=
      { submission := ⟨"", now, now.time, now.time⟩, readings := [⟨now, ⟨[], 0⟩⟩]
        isOver := fun _ => false, order := ⟨List.reverse, List.reverse_perm⟩ }
    ∃ setup, Setup.ofEnvironment env = .ok setup ∧ place.server = Queues.server.minuted ∧
      let e := (serve place Embedded.engine ⟨.positional, none⟩ setup occasion).run (({}, []), {})
      e.state.1.2 = [.create "low" (.ok ()), .create "critical" (.ok ()),
        .read "low" 60 (.ok none)] ∧
      setup.polledQueues = ["low"] ∧
      ∀ name ∈ setup.polledQueues, .create name (.ok ()) ∈ e.state.1.2 := by
  intro env place now occasion
  have henv : Setup.ofEnvironment env = .ok
      ⟨"sqlite::memory:", some "postgres://127.0.0.1:5432/queues?sslmode=disable", "default", 10,
        [("critical", 0), ("low", 2)], none, "info"⟩ := by
    decide +kernel
  have hserver : place.server = Queues.server.minuted := rfl
  refine ⟨_, henv, hserver, ?_⟩
  intro e
  have hanswer : e.value = .ok "" := by decide +kernel
  have hlog : e.state.1.2 = [.create "low" (.ok ()), .create "critical" (.ok ()),
      .read "low" 60 (.ok none)] := by
    decide +kernel
  have hiff := (serve_makes_polled_iff place Embedded.engine _ {} henv hserver
    ⟨.positional, none⟩ occasion {}).2.2 "" hanswer
  exact ⟨hlog, rfl, hiff.mpr (.inr (.inl (by decide)))⟩

/-- One queue with the weight zero. It is the only one that is made, and the workers read
another one, which is not there. -/
theorem serve_polls_unmade :
    let env : Environment := fun name => Named.find? name
      [("DATABASE_URL", "sqlite::memory:"), ("TASKTRAIL_QUEUES", "critical=0"),
        ("QUEUE_DATABASE_URL", "postgres://127.0.0.1:5432/queues?sslmode=disable")]
    let place : Place (Queues × List Exchange) :=
      { environment := env, machine := { servers := [("127.0.0.1", 5432)] }, databaseFile := []
        server := Queues.server.minuted }
    let now : Now := ⟨0, Timestamp.epoch⟩
    let occasion : Occasion (Queues × List Exchange) :=
      { submission := ⟨"", now, now.time, now.time⟩, readings := [⟨now, ⟨[], 0⟩⟩]
        isOver := fun _ => false }
    ∃ setup, Setup.ofEnvironment env = .ok setup ∧
      let e := (serve place Embedded.engine ⟨.positional, none⟩ setup occasion).run (({}, []), {})
      e.state.1.2 = [.create "critical" (.ok ()),
        .read "default" 60 (.error (Queues.noQueue "default"))] ∧
      setup.polledQueues = ["default"] ∧ "default" ∉ setup.askedQueues := by
  intro env place now occasion
  have henv : Setup.ofEnvironment env = .ok
      ⟨"sqlite::memory:", some "postgres://127.0.0.1:5432/queues?sslmode=disable", "default", 10,
        [("critical", 0)], none, "info"⟩ := by
    decide +kernel
  exact ⟨_, henv, by decide +kernel, rfl, by decide⟩

end

end Console.Program

end TaskAudit
