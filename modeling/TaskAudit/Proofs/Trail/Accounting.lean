import Mathlib
import TaskAudit.Broker.Backlog
import TaskAudit.Broker.Messages
import TaskAudit.Proofs.Trail.Fates
import TaskAudit.Proofs.Trail.Noninterference
import TaskAudit.Proofs.Trail.Recording

/-!
# Every write is accounted for

A run submits tasks and lets handlers work on tasks, and each of its writes to the trail is
posted in a book. What the run tells of the trail is then what the postings tell, one after
another and nothing else. So for every operation the writes that were tried are those that
changed a row, those that matched none and those that failed, as they are counted and logged.
-/
namespace TaskAudit

namespace Event

/-- Does the event say what became of a write to the trail? -/
def isAudit : Event → Bool
  | .notice (.writeFailed ..) | .notice (.noRecordMatched ..) => true
  | .measure (.transition _) | .measure (.writeFailure _) => true
  | _ => false

def isLine (level : Level) (field : String × String) : Event → Bool
  | .notice n => n.level = level && n.fields.contains field
  | _ => false

/-- Only a write that matched nothing is logged with a number of rows. -/
theorem isAudit_of_unmatched_line {e : Event} (h : e.isLine .debug ("rows_affected", "0") = true) :
    e.isAudit = true := by
  cases e with
  | notice n => cases n <;> simp_all [isLine, isAudit, Notice.level, Notice.fields]
  | _ => simp [isLine] at h

theorem isAudit_of_failed_line {e : Event} {operation : String}
    (h : e.isLine .warn ("operation", operation) = true) : e.isAudit = true := by
  cases e with
  | notice n => cases n <;> simp_all [isLine, isAudit, Notice.level, Notice.fields]
  | _ => simp [isLine] at h

end Event

theorem Fate.isAudit_of_mem {w : Write} {fate : Fate} {e : Event} (h : e ∈ fate.events w) :
    e.isAudit = true := by
  cases fate <;> simp only [events, List.mem_cons, List.not_mem_nil, or_false] at h
  case failed => rcases h with rfl | rfl <;> rfl
  all_goals
    subst h
    rfl

/-- Does an action tell nothing of the trail? -/
def Action.IsQuiet {σ α : Type} (a : Action σ α) : Prop :=
  ∀ s, ∀ e ∈ (a.run s).events, e.isAudit = false

/-- A write as it was done: the database that it found, the answer, and the database that it
left. -/
structure Posting (δ : Type) where
  write : Write
  before : δ
  answer : Except Error Unit
  after : δ

namespace Posting

variable {δ : Type} {db : Database δ} (law : db.Law) (p : Posting δ)

def fate : Fate := .of p.write (law.rows p.before) p.answer

def IsRight : Prop := (p.fate law).Fits p.write (law.rows p.before) (law.rows p.after)

def told : List Event := (p.fate law).events p.write

def isMatched : Bool := p.fate law = .matched

def isUnmatched : Bool := p.fate law = .unmatched

def isFailed : Bool :=
  match p.fate law with
  | .failed _ => true
  | _ => false

/-- A write has exactly one of the three fates. -/
theorem countP_eq_add (ps : List (Posting δ)) (q : Posting δ → Bool) :
    ps.countP q = ps.countP (fun p => p.isMatched law && q p) +
      ps.countP (fun p => p.isUnmatched law && q p) +
        ps.countP fun p => p.isFailed law && q p := by
  induction ps with
  | nil => rfl
  | cons p ps ih =>
      simp only [List.countP_cons, ih, isMatched, isUnmatched, isFailed]
      cases p.fate law <;> simp <;> omega

variable {law} {ps : List (Posting δ)} {events : List Event}

theorem countP_flatMap_told {kind : Event → Bool} {q : Posting δ → Bool}
    (honce : ∀ p, (told law p).countP kind = if q p then 1 else 0) (ps : List (Posting δ)) :
    (ps.flatMap (told law)).countP kind = ps.countP q := by
  induction ps with
  | nil => rfl
  | cons p ps ih =>
      rw [List.flatMap_cons, List.countP_append, ih, honce, List.countP_cons, Nat.add_comm]

theorem count_transition (status : Status) (p : Posting δ) :
    (told law p).count (.measure (.transition status)) =
      if p.isMatched law && p.write.target = status then 1 else 0 := by
  unfold told isMatched
  cases p.fate law <;> simp [Fate.events, List.count_cons]

theorem count_writeFailure (operation : String) (p : Posting δ) :
    (told law p).count (.measure (.writeFailure operation)) =
      if p.isFailed law && p.write.operation = operation then 1 else 0 := by
  unfold told isFailed
  cases p.fate law <;> simp [Fate.events, List.count_cons]

theorem countP_unmatched_line (p : Posting δ) :
    (told law p).countP (Event.isLine .debug ("rows_affected", "0")) =
      if p.isUnmatched law then 1 else 0 := by
  unfold told isUnmatched
  cases p.fate law <;> simp [Fate.events, Event.isLine, Notice.level, Notice.fields]

theorem countP_failed_line (operation : String) (p : Posting δ) :
    (told law p).countP (Event.isLine .warn ("operation", operation)) =
      if p.isFailed law && p.write.operation = operation then 1 else 0 := by
  unfold told isFailed
  cases p.fate law <;>
    simp [Fate.events, List.countP_cons, Event.isLine, Notice.level, Notice.fields, eq_comm]

/-- Events of a kind that is told once of some writes, and of nothing else. -/
theorem countP_events (h : events.filter Event.isAudit = ps.flatMap (told law))
    {kind : Event → Bool} {q : Posting δ → Bool}
    (haudit : ∀ e, kind e = true → e.isAudit = true)
    (honce : ∀ p, (told law p).countP kind = if q p then 1 else 0) :
    events.countP kind = ps.countP q := by
  rw [← countP_flatMap_told honce, ← h, List.countP_filter]
  refine List.countP_congr fun e _ => ?_
  simpa using haudit e

end Posting

/-- A database that others use as well, and the writes that were done. `rounds` is what the
others do before each of the writes to come. -/
structure Books (δ : Type) where
  database : δ
  rounds : List (δ → δ) := []
  postings : List (Posting δ) := []

namespace Books

variable {δ : Type} {db : Database δ}

/-- The trail without a limit of its own, every write of which is posted. -/
def trail (db : Database δ) (dialect : Dialect) : Trail (Books δ) where
  write w := fun s =>
    let before := s.rounds.head?.getD id s.database
    let e := (AuditTable.write db ⟨dialect, none⟩ w).run before
    ⟨e.value, ⟨e.state, s.rounds.tail, s.postings ++ [⟨w, before, e.value, e.state⟩]⟩, e.events⟩

/-- The database is sound, and the others keep it so. -/
structure IsSound (law : db.Law) (s : Books δ) : Prop where
  database : law.IsSound s.database
  rounds : ∀ round ∈ s.rounds, ∀ s, law.IsSound s → law.IsSound (round s)

/-- Between two states of the books some writes were posted, and these account for what was
told meanwhile. -/
structure Adds (law : db.Law) (s s' : Books δ) (told : List Event) : Prop where
  sound : s'.IsSound law
  posted : ∃ new, s'.postings = s.postings ++ new ∧ (∀ p ∈ new, p.IsRight law) ∧
    told.filter Event.isAudit = new.flatMap (Posting.told law)

variable {law : db.Law} {s s' s'' : Books δ} {told told' : List Event}

theorem Adds.of_quiet (hs : s.IsSound law) (h : ∀ e ∈ told, e.isAudit = false) :
    Adds law s s told := by
  refine ⟨hs, [], (List.append_nil _).symm, fun _ hp => absurd hp List.not_mem_nil, ?_⟩
  exact List.filter_eq_nil_iff.mpr fun e he => Bool.eq_false_iff.mp (h e he)

theorem Adds.trans (h : Adds law s s' told) (h' : Adds law s' s'' told') :
    Adds law s s'' (told ++ told') := by
  obtain ⟨-, new, hnew, hright, htold⟩ := h
  obtain ⟨hsound, new', hnew', hright', htold'⟩ := h'
  refine ⟨hsound, new ++ new', ?_, List.forall_mem_append.mpr ⟨hright, hright'⟩, ?_⟩
  · rw [hnew', hnew, List.append_assoc]
  · rw [List.filter_append, List.flatMap_append, htold, htold']

/-- A write is posted, and the posting accounts for what is told of it. -/
theorem record_adds (dialect : Dialect) (hs : s.IsSound law) (w : Write) :
    Adds law s (((trail db dialect).record w).run s).state
      (((trail db dialect).record w).run s).events := by
  have hbefore : law.IsSound (s.rounds.head?.getD id s.database) := by
    cases hrounds : s.rounds with
    | nil => exact hs.database
    | cons round rest =>
        exact hs.rounds round (by rw [hrounds]; exact List.mem_cons_self) _ hs.database
  obtain ⟨hsound, hfits, hevents⟩ := law.record_fate dialect hbefore w
  have hsame : (((trail db dialect).record w).run s).events =
      (((AuditTable.trail db ⟨dialect, none⟩).record w).run
        (s.rounds.head?.getD id s.database)).events := by
    rw [Trail.record_events, Trail.record_events]
    rfl
  rw [Trail.record_state, hsame, hevents]
  refine ⟨⟨hsound, fun round hround => hs.rounds round (List.mem_of_mem_tail hround)⟩,
    [_], rfl, List.forall_mem_singleton.mpr hfits, ?_⟩
  rw [List.flatMap_singleton]
  exact List.filter_eq_self.mpr fun e he => Fate.isAudit_of_mem he

end Books

/-- Does the action post every write that it does to books in its state? -/
def Action.Accounts {δ τ α : Type} {db : Database δ} (law : db.Law) (books : τ → Books δ)
    (a : Action τ α) : Prop :=
  ∀ s, (books s).IsSound law → (books s).Adds law (books (a.run s).state) (a.run s).events

namespace Action

variable {δ τ α β : Type} {db : Database δ} {law : db.Law} {books : τ → Books δ}

theorem isQuiet_pure (x : α) : (pure x : Action τ α).IsQuiet :=
  fun _ _ he => absurd he List.not_mem_nil

theorem isQuiet_tell {e : Event} (h : e.isAudit = false) : (tell e : Action τ Unit).IsQuiet :=
  fun _ _ he => List.mem_singleton.mp he ▸ h

theorem IsQuiet.bind {a : Action τ α} {f : α → Action τ β} (ha : a.IsQuiet)
    (hf : ∀ x, (f x).IsQuiet) : (a >>= f).IsQuiet :=
  fun s e he => (List.mem_append.mp he).elim (ha s e) (hf _ _ e)

theorem IsQuiet.accounts {a : Action τ α} (h : a.IsQuiet)
    (hsame : ∀ s, books (a.run s).state = books s) : Accounts law books a := by
  intro s hs
  rw [hsame]
  exact .of_quiet hs (h s)

theorem accounts_pure (x : α) : Accounts law books (pure x : Action τ α) :=
  (isQuiet_pure x).accounts fun _ => rfl

theorem accounts_tell {e : Event} (h : e.isAudit = false) :
    Accounts law books (tell e : Action τ Unit) :=
  (isQuiet_tell h).accounts fun _ => rfl

theorem Accounts.bind {a : Action τ α} {f : α → Action τ β} (ha : Accounts law books a)
    (hf : ∀ x, Accounts law books (f x)) : Accounts law books (a >>= f) :=
  fun s hs => (ha s hs).trans (hf _ _ (ha s hs).sound)

end Action

section

variable {δ : Type} {db : Database δ} {law : db.Law} {dialect : Dialect}

theorem Books.record_accounts (w : Write) :
    Action.Accounts law id ((Books.trail db dialect).record w) :=
  fun _ hs => record_adds dialect hs w

/-- Does the broker tell nothing of the trail when it accepts tasks? -/
def Broker.IsQuiet {β : Type} (broker : Broker β) : Prop :=
  ∀ id now task queue maxRetry, (broker.enqueue id now task queue maxRetry).IsQuiet

theorem Backlog.broker_isQuiet (delay : Span) : (broker delay).IsQuiet := by
  intro id now task queue maxRetry s e he
  simp only [broker, enqueue, Action.run] at he
  split at he <;> cases he

theorem Messages.broker_isQuiet {σ : Type} {server : QueueServer σ} (settings : Settings)
    (hsend : ∀ queue body delay, (server.send queue body delay).IsQuiet) :
    (broker server settings).IsQuiet := by
  intro id now task queue maxRetry
  simp only [broker, enqueue]
  cases Json.readBytes task.payload with
  | error fault => exact Action.isQuiet_pure _
  | ok payload =>
      refine (hsend _ _ _).bind fun answer => ?_
      cases answer with
      | error fault => exact Action.isQuiet_pure _
      | ok done => exact (Action.isQuiet_tell rfl).bind fun _ => Action.isQuiet_pure _

theorem Submitter.leaveRecord_accounts (taskId : String) (ws : List Write) :
    Action.Accounts law id (leaveRecord (some (Books.trail db dialect)) taskId ws) := by
  induction ws with
  | nil => exact Action.accounts_pure _
  | cons w ws ih =>
      exact ((Books.record_accounts w).bind fun _ => Action.accounts_pure _).bind fun _ => ih

theorem Submitter.submit_accounts {β α : Type} [Submittable α] {c : Submitter β (Books δ)}
    (hc : c.trail = some (Books.trail db dialect)) (hbroker : c.broker.IsQuiet)
    (around : Surroundings) (taskType : String) (payload : α) (options : SubmitOptions) :
    Action.Accounts law Prod.snd (c.submit around taskType payload options) := by
  unfold submit
  cases Submittable.text payload with
  | error fault => exact Action.accounts_pure _
  | ok text =>
      have hasked := hbroker around.id around.atBroker ⟨taskType, text.toUTF8⟩
        (c.queueOf options) (options.maxRetry.getD defaultMaxRetry)
      refine Action.Accounts.bind ?_ fun answer => ?_
      · exact Action.IsQuiet.accounts (fun s => hasked s.1) fun _ => rfl
      · cases answer with
        | error e => exact (Action.accounts_tell rfl).bind fun _ => Action.accounts_pure _
        | ok accepted =>
            refine (Action.accounts_tell rfl).bind fun _ => (Action.accounts_tell rfl).bind
              fun _ => Action.Accounts.bind ?_ fun _ => Action.accounts_pure _
            rw [hc]
            exact fun s hs => leaveRecord_accounts accepted.id _ s.2 hs

theorem Tracking.follow_accounts {η : Type} {handler : Handler η}
    {startedAt finishedAt : Timestamp} {context : Context} {task : Task}
    (hhandler : (handler context task).IsQuiet) :
    Action.Accounts law Prod.fst (follow (some (Books.trail db dialect)) handler startedAt
      finishedAt context task) := by
  have htrack : ∀ w : String → Write, Action.Accounts law (Prod.fst : Books δ × η → Books δ)
      (.onFst (Trail.track (some (Books.trail db dialect)) context.taskId w)) := by
    intro w s hs
    cases hid : context.taskId with
    | none => exact Action.accounts_pure () s hs
    | some id =>
        exact ((Books.record_accounts (w id)).bind fun _ => Action.accounts_pure ()) s.1 hs
  refine (htrack _).bind fun _ => Action.Accounts.bind ?_ fun ending => ?_
  · exact Action.IsQuiet.accounts (fun s => hhandler s.2) fun _ => rfl
  · cases ending.result? with
    | none => exact Action.accounts_pure _
    | some outcome => exact (htrack _).bind fun _ => Action.accounts_pure _

end

namespace Script

variable {β σ η ι : Type}

section

variable (broker : Broker β) (defaultQueue : String) (handlers : ι → Handler (β × η))
  (trail : Option (Trail σ)) (startedAt finishedAt : Timestamp)

def submitting {α : Type} [Submittable α] (id : String) (atBroker : Now) (taskType : String)
    (payload : α) (options : SubmitOptions) :
    Action (Sight β η ι × σ) (Except Error Accepted) := fun (v, t) =>
  let c := Submitter.new broker trail defaultQueue
  let e := (c.submit ⟨id, atBroker, startedAt, finishedAt⟩ taskType payload options).run
    (v.broker, t)
  ⟨e.value, ({ v with broker := e.state.1, answers := v.answers ++ [e.value] }, e.state.2),
    e.events⟩

def executing (name : ι) (context : Context) (task : Task) :
    Action (Sight β η ι × σ) Ending := fun (v, t) =>
  let handler := noting name (handlers name)
  let e := (Tracking.follow trail handler startedAt finishedAt context task).run
    (t, (v.broker, v.handlers), v.calls)
  let ((broker, handlers), calls) := e.state.2
  ⟨e.value, ({ v with broker, handlers, calls, endings := v.endings ++ [e.value] }, e.state.1),
    e.events⟩

def asking {α : Type} (action : Action β α) : Action (Sight β η ι × σ) α := fun (v, t) =>
  let e := action.run v.broker
  ⟨e.value, ({ v with broker := e.state }, t), e.events⟩

end

section

variable (broker : Broker β) (defaultQueue : String) (handlers : ι → Handler (β × η))
  (trail : Option (Trail σ)) (clock : Nat → Timestamp)

/-- The run of a script, and what it tells. -/
def act : Script β ι → Nat → Action (Sight β η ι × σ) Unit
  | done, _ => pure ()
  | submit id atBroker taskType payload options next, n => do
    let answer ← submitting broker defaultQueue trail (clock (2 * n)) (clock (2 * n + 1)) id
      atBroker taskType payload options
    act (next answer) (n + 1)
  | execute name context task next, n => do
    let ending ← executing handlers trail (clock (2 * n)) (clock (2 * n + 1)) name context task
    act (next ending) (n + 1)
  | ask action next, n => do
    let answer ← asking action
    act (next answer) (n + 1)

theorem act_state (script : Script β ι) (n : Nat) (s : Sight β η ι × σ) :
    ((script.act broker defaultQueue handlers trail clock n).run s).state =
      script.run broker defaultQueue handlers trail clock n s := by
  induction script generalizing n s with
  | done => rfl
  | submit id atBroker taskType payload options next ih => exact ih _ (n + 1) _
  | execute name context task next ih => exact ih _ (n + 1) _
  | ask action next ih => exact ih _ (n + 1) _

end

/-- Do the calls of the broker tell nothing of the trail? -/
def IsQuiet : Script β ι → Prop
  | done => True
  | submit _ _ _ _ _ next => ∀ answer, (next answer).IsQuiet
  | execute _ _ _ next => ∀ ending, (next ending).IsQuiet
  | ask action next => action.IsQuiet ∧ ∀ answer, (next answer).IsQuiet

section

variable {δ : Type} {db : Database δ} {law : db.Law} {dialect : Dialect} {broker : Broker β}
  {handlers : ι → Handler (β × η)}

theorem noting_isQuiet {name : ι} {handler : Handler η} {context : Context} {task : Task}
    (h : (handler context task).IsQuiet) : (noting name handler context task).IsQuiet :=
  fun s => h s.1

theorem act_accounts (hbroker : broker.IsQuiet) (defaultQueue : String)
    (hhandlers : ∀ name context task, (handlers name context task).IsQuiet)
    (clock : Nat → Timestamp) {script : Script β ι} (hscript : script.IsQuiet) (n : Nat) :
    Action.Accounts law Prod.snd
      (script.act broker defaultQueue handlers (some (Books.trail db dialect)) clock n) := by
  induction script generalizing n with
  | done => exact Action.accounts_pure _
  | submit id atBroker taskType payload options next ih =>
      refine Action.Accounts.bind (fun s hs => ?_) fun answer => ih answer (hscript answer) (n + 1)
      exact Submitter.submit_accounts (c := Submitter.new broker _ defaultQueue) rfl hbroker
        _ _ _ _ (s.1.broker, s.2) hs
  | execute name context task next ih =>
      refine Action.Accounts.bind (fun s hs => ?_) fun answer => ih answer (hscript answer) (n + 1)
      exact Tracking.follow_accounts (noting_isQuiet (hhandlers name context task))
        (s.2, (s.1.broker, s.1.handlers), s.1.calls) hs
  | ask action next ih =>
      refine Action.Accounts.bind ?_ fun answer => ih answer (hscript.2 answer) (n + 1)
      exact Action.IsQuiet.accounts (fun s => hscript.1 s.1.broker) fun _ => rfl

end

/-- A run over a database whose writes have no limit of their own, with others writing to it in
between. Every write that is tried changes exactly one row, or finds no row with its id and
changes nothing, or fails and changes nothing. Of the trail is told, one write after another
and nothing else, a transition to the target of the write, that no row was matched, or that
the write failed. So the transitions to a status count the writes that changed a row to it, the
lines with no rows affected those that matched none, and the failures and warnings of an
operation those that failed; and these are all that were tried. Of several runs at once, or of
a handler that submits tasks itself, each is a run of its own and the rest are the others. -/
theorem writes_accounted {δ : Type} {db : Database δ} (law : db.Law) (dialect : Dialect)
    {database : δ} (hdatabase : law.IsSound database) {rounds : List (δ → δ)}
    (hrounds : ∀ round ∈ rounds, ∀ s, law.IsSound s → law.IsSound (round s))
    {broker : Broker β} (hbroker : broker.IsQuiet) (defaultQueue : String)
    {handlers : ι → Handler (β × η)}
    (hhandlers : ∀ name context task, (handlers name context task).IsQuiet)
    (clock : Nat → Timestamp) {script : Script β ι} (hscript : script.IsQuiet) (n : Nat)
    (v : Sight β η ι) :
    let trail := Books.trail db dialect
    let start := (v, (⟨database, rounds, []⟩ : Books δ))
    let postings :=
      (script.run broker defaultQueue handlers (some trail) clock n start).2.postings
    let told := ((script.act broker defaultQueue handlers (some trail) clock n).run start).events
    (∀ p ∈ postings, p.IsRight law) ∧
      told.filter Event.isAudit = postings.flatMap (Posting.told law) ∧
      (∀ status, told.count (.measure (.transition status)) =
        postings.countP fun p => p.isMatched law && p.write.target = status) ∧
      told.countP (Event.isLine .debug ("rows_affected", "0")) =
        postings.countP (Posting.isUnmatched law) ∧
      (∀ operation,
        told.count (.measure (.writeFailure operation)) =
            (postings.countP fun p => p.isFailed law && p.write.operation = operation) ∧
          told.countP (Event.isLine .warn ("operation", operation)) =
            postings.countP fun p => p.isFailed law && p.write.operation = operation) ∧
      ∀ operation, (postings.countP fun p => p.write.operation = operation) =
        (postings.countP fun p => p.isMatched law && p.write.operation = operation) +
          (postings.countP fun p => p.isUnmatched law && p.write.operation = operation) +
            postings.countP fun p => p.isFailed law && p.write.operation = operation := by
  intro trail start postings told
  obtain ⟨-, new, hnew, hright, htold⟩ :=
    act_accounts hbroker defaultQueue hhandlers clock hscript n start ⟨hdatabase, hrounds⟩
  rw [act_state] at hnew
  obtain rfl : postings = new := hnew
  refine ⟨hright, htold, fun status => ?_, ?_, fun operation => ⟨?_, ?_⟩, fun operation => ?_⟩
  · refine Posting.countP_events htold ?_ (Posting.count_transition status)
    intro e he
    rw [eq_of_beq he]
    rfl
  · exact Posting.countP_events htold (fun _ => Event.isAudit_of_unmatched_line)
      Posting.countP_unmatched_line
  · refine Posting.countP_events htold ?_ (Posting.count_writeFailure operation)
    intro e he
    rw [eq_of_beq he]
    rfl
  · exact Posting.countP_events htold (fun _ => Event.isAudit_of_failed_line)
      (Posting.countP_failed_line operation)
  · exact Posting.countP_eq_add law postings _

/-- Two submissions under one id, a delivery of a task that has no record, and another one
when the table is gone. -/
theorem writes_accounted_of_dropped :
    let now : Now := ⟨0, Timestamp.epoch⟩
    let task : Task := ⟨"mail", "null".toUTF8⟩
    let handlers : Bool → Handler (Backlog × Unit) := fun good _ _ =>
      pure (if good then .succeeded else .failed "no")
    let script : Script Backlog Bool :=
      .submit "a" now "mail" Json.null {} fun _ =>
      .execute true ⟨some "a", "default", 0, 25⟩ task fun _ =>
      .execute false ⟨some "b", "default", 0, 25⟩ task fun _ =>
      .submit "a" now "mail" Json.null {} fun _ =>
      .execute true ⟨some "a", "default", 1, 25⟩ task fun _ => .done
    let rounds := List.replicate 8 id ++ [fun s : Embedded => { s with rows := none }]
    let trail := Books.trail Embedded.database .positional
    let clock : Nat → Timestamp := fun _ => Timestamp.epoch
    let start : Sight Backlog Unit Bool × Books Embedded :=
      (⟨{}, (), [], [], []⟩, ⟨.fresh "", rounds, []⟩)
    let postings :=
      (script.run (Backlog.broker ⟨0⟩) "" handlers (some trail) clock 0 start).2.postings
    (∀ p ∈ postings, p.IsRight Embedded.law) ∧
      (postings.countP fun p => p.isMatched Embedded.law && p.write.target = .created) = 3 ∧
      postings.countP (Posting.isUnmatched Embedded.law) = 2 ∧
      (postings.countP fun p =>
        p.isFailed Embedded.law && p.write.operation = "insert_created") = 1 ∧
      (postings.countP fun p =>
        p.isFailed Embedded.law && p.write.operation = "mark_completed") = 1 := by
  intro now task handlers script rounds trail clock start postings
  have hrounds : ∀ round ∈ rounds, ∀ s, Embedded.law.IsSound s → Embedded.law.IsSound (round s) := by
    intro round hround s hs
    rcases List.mem_append.mp hround with hround | hround
    · rw [List.eq_of_mem_replicate hround]
      exact hs
    · rw [List.mem_singleton.mp hround]
      exact fun _ => Nat.zero_le _
  have hhandlers : ∀ name context task, (handlers name context task).IsQuiet :=
    fun _ _ _ => Action.isQuiet_pure _
  have hscript : script.IsQuiet := fun _ _ _ _ _ => trivial
  have hfresh : Embedded.law.IsSound (.fresh "") := fun _ => Nat.zero_le _
  obtain ⟨hright, -, hmatched, hunmatched, hfailed, -⟩ :=
    writes_accounted Embedded.law .positional hfresh hrounds (Backlog.broker_isQuiet ⟨0⟩) ""
      hhandlers clock hscript 0 ⟨{}, (), [], [], []⟩
  unfold postings start trail
  refine ⟨hright, (hmatched .created).symm.trans ?_, hunmatched.symm.trans ?_,
    (hfailed "insert_created").1.symm.trans ?_, (hfailed "mark_completed").1.symm.trans ?_⟩
  all_goals decide +kernel

end Script

end TaskAudit
