import Mathlib
import TaskAudit.Broker.Backlog
import TaskAudit.Proofs.Text
import TaskAudit.Setup
import TaskAudit.Submission

/-!
# Where tasks are sent and where they are looked for

A process without weights has one queue: its submitters send to it and its workers poll it.
Both sides read its name from the same variable. They agree on it unless the variable is set
to nothing: then a submitter takes the usual queue instead, and the workers poll a queue whose
name is empty.
-/
namespace TaskAudit

theorem Named.insert_ne_nil {α : Type} (name : String) (a : α) (l : List (String × α)) :
    insert name a l ≠ [] := by
  unfold insert
  split
  · simp
  · split_ifs <;> simp

namespace Weights

theorem parts_eq_nil_iff {text : String} :
    parts text = [] ↔ ∀ c ∈ text.toList, c = ',' ∨ Text.isBlank c = true := by
  have hblank : parts text = [] ↔
      ∀ c ∈ (Text.split ',' text.toList).flatten, Text.isBlank c = true := by
    simp only [parts, List.filter_eq_nil_iff, List.forall_mem_map, decide_not,
      Bool.not_eq_true', decide_eq_false_iff_not, not_not, Text.trim_eq_nil_iff,
      Text.IsBlankText, List.forall_mem_flatten]
  rw [hblank, Text.flatten_split]
  simp only [List.mem_filter, decide_eq_true_eq, and_imp]
  exact forall₂_congr fun c _ => or_iff_not_imp_left.symm

theorem ofList_eq_nil_iff {pairs : Weights} : Named.ofList pairs = [] ↔ pairs = [] := by
  cases pairs using List.reverseRecOn with
  | nil => exact ⟨fun _ => rfl, fun _ => rfl⟩
  | append_singleton pairs pair _ =>
      simp [Named.ofList, Named.insert_ne_nil]

/-- A text gives no weights exactly if it has nothing but blanks and commas. -/
theorem ofText_eq_nil_iff {text : String} :
    ofText text = .ok [] ↔ ∀ c ∈ text.toList, c = ',' ∨ Text.isBlank c = true := by
  rw [← parts_eq_nil_iff, ofText]
  cases hparts : parts text with
  | nil => exact ⟨fun _ => rfl, fun _ => rfl⟩
  | cons part parts =>
      simp only [List.mapM_cons, reduceCtorEq, iff_false]
      cases assignment part with
      | error fault => exact nofun
      | ok pair =>
          cases parts.mapM assignment with
          | error fault => exact nofun
          | ok pairs =>
              intro h
              exact absurd (ofList_eq_nil_iff.mp (Except.ok.inj h)) (List.cons_ne_nil pair pairs)

end Weights

/-- Are no weights given: is the variable unset, or has nothing but blanks and commas? -/
def Environment.HasNoWeights (env : Environment) : Prop :=
  ∀ text ∈ env "TASKTRAIL_QUEUES", ∀ c ∈ text.toList, c = ',' ∨ Text.isBlank c = true

namespace Setup

variable {env : Environment} {setup : Setup}

theorem weightsOf_eq_nil_iff : weightsOf env = .ok [] ↔ env.HasNoWeights := by
  unfold weightsOf Environment.HasNoWeights
  cases env "TASKTRAIL_QUEUES" with
  | none => simp
  | some text =>
      simp only [Option.mem_some_iff, forall_eq', ← Weights.ofText_eq_nil_iff]
      cases Weights.ofText text with
      | error fault => exact ⟨nofun, nofun⟩
      | ok weights => simp [Except.mapError]

/-- What an accepted environment says about queues. -/
theorem queues_of_ok (h : ofEnvironment env = .ok setup) :
    setup.defaultQueue = (env "TASKTRAIL_QUEUE").getD TaskAudit.defaultQueue ∧
      weightsOf env = .ok setup.queues := by
  unfold ofEnvironment at h
  cases haddress : env "DATABASE_URL" with
  | none =>
      rw [haddress] at h
      cases h
  | some address =>
      rw [haddress] at h
      cases hconcurrency : concurrencyOf env with
      | error fault =>
          rw [hconcurrency] at h
          cases h
      | ok concurrency =>
          rw [hconcurrency] at h
          cases hweights : weightsOf env with
          | error fault =>
              rw [hweights] at h
              cases h
          | ok weights =>
              rw [hweights] at h
              obtain rfl := Except.ok.inj h
              exact ⟨rfl, rfl⟩

theorem queues_eq_nil_iff (h : ofEnvironment env = .ok setup) :
    setup.queues = [] ↔ env.HasNoWeights := by
  rw [← weightsOf_eq_nil_iff, (queues_of_ok h).2, Except.ok.injEq]

def polledQueues (setup : Setup) : List String :=
  (Worker.plan setup.workerSettings).queues.map Prod.fst

theorem polledQueues_of_noWeights (h : setup.queues = []) :
    setup.polledQueues = [setup.defaultQueue] := by
  simp [polledQueues, workerSettings, h, Worker.plan, Worker.polled, Weights.sort,
    Weights.insert]

end Setup

theorem Submitter.queueOf_new {β σ : Type} (broker : Broker β) (trail : Option (Trail σ))
    (queue : String) {options : SubmitOptions} (h : ∀ name ∈ options.queue, name = "") :
    (new broker trail queue).queueOf options =
      if queue = "" then TaskAudit.defaultQueue else queue := by
  unfold queueOf
  cases hname : options.queue with
  | none => rfl
  | some name =>
      obtain rfl := h name hname
      rfl

namespace Setup

variable {env : Environment} {setup : Setup}

/-- Without weights the workers poll one queue, the one that the variable names or the usual
one. A submission that names no queue goes there, and thus is found by the workers, exactly if
the variable is not set to the empty text. -/
theorem submits_where_polled_iff (h : ofEnvironment env = .ok setup) (hnone : env.HasNoWeights)
    {β σ : Type} (broker : Broker β) (trail : Option (Trail σ)) (options : SubmitOptions)
    (hoptions : ∀ name ∈ options.queue, name = "") :
    setup.polledQueues = [(env "TASKTRAIL_QUEUE").getD "default"] ∧
      ((Submitter.new broker trail setup.submitterQueue).queueOf options ∈ setup.polledQueues ↔
        env "TASKTRAIL_QUEUE" ≠ some "") := by
  have hpolled := polledQueues_of_noWeights ((queues_eq_nil_iff h).mpr hnone)
  have hname : setup.defaultQueue = (env "TASKTRAIL_QUEUE").getD "default" := (queues_of_ok h).1
  rw [hpolled, Submitter.queueOf_new broker trail _ hoptions, List.mem_singleton, submitterQueue,
    hname]
  refine ⟨rfl, ?_⟩
  cases env "TASKTRAIL_QUEUE" with
  | none => decide
  | some name =>
      rw [Option.getD_some, ne_eq, Option.some.injEq]
      by_cases hempty : name = ""
      · subst hempty
        decide
      · simp [hempty]

/-- A queue of its own name, and weights that are nothing but blanks and commas. -/
theorem submits_where_polled_of_mail :
    let env : Environment := fun name => Named.find? name
      [("DATABASE_URL", "sqlite::memory:"), ("TASKTRAIL_QUEUE", "mail"),
        ("TASKTRAIL_QUEUES", " ,\t,")]
    ∃ setup, ofEnvironment env = .ok setup ∧ env.HasNoWeights ∧ setup.polledQueues = ["mail"] ∧
      (Submitter.new (Backlog.broker ⟨0⟩) (none : Option (Trail Unit))
        setup.submitterQueue).queueOf {} ∈ setup.polledQueues := by
  intro env
  have hnone : env.HasNoWeights := weightsOf_eq_nil_iff.mp (by decide +kernel)
  have hsetup : ofEnvironment env =
      .ok ⟨"sqlite::memory:", none, "mail", 10, [], none, "info"⟩ := by
    decide +kernel
  obtain ⟨hpolled, hfound⟩ := submits_where_polled_iff hsetup hnone (Backlog.broker ⟨0⟩)
    (none : Option (Trail Unit)) {} nofun
  exact ⟨_, hsetup, hnone, hpolled, hfound.mpr (by decide)⟩

/-- A variable that is set to the empty text. A submission goes to the usual queue, and the
workers poll another one. -/
theorem submits_where_unpolled :
    let env : Environment := fun name => Named.find? name
      [("DATABASE_URL", "sqlite::memory:"), ("TASKTRAIL_QUEUE", "")]
    ∃ setup, ofEnvironment env = .ok setup ∧ env.HasNoWeights ∧
      (Submitter.new (Backlog.broker ⟨0⟩) (none : Option (Trail Unit))
        setup.submitterQueue).queueOf {} = "default" ∧
      setup.polledQueues = [""] ∧ "default" ∉ setup.polledQueues := by
  intro env
  have hnone : env.HasNoWeights := fun text htext => by cases htext
  have hsetup : ofEnvironment env = .ok ⟨"sqlite::memory:", none, "", 10, [], none, "info"⟩ := by
    decide +kernel
  exact ⟨_, hsetup, hnone, rfl, rfl, by decide⟩

end Setup

end TaskAudit
