import Mathlib
import TaskAudit.Proofs.Broker.Envelopes
import TaskAudit.Proofs.Json.Depth
import TaskAudit.Proofs.Trail.Chronology
import TaskAudit.Proofs.Trail.Noninterference

/-!
# What is sent is delivered

A task is sent in an envelope that is written as JSON, so its payload stands one level deeper in
the message than in the task. The broker reads the payload before it sends it, and the message
before it delivers it, both with the same limit. A payload below the limit comes back as it was
sent. One at the limit is sent and can never be read.
-/
namespace TaskAudit

namespace Envelope

variable {e : Envelope}

theorem isOrdered_toJson (h : e.payload.IsOrdered) : e.toJson.IsOrdered := by
  have hnames : List.Pairwise (· < ·) ["max_retry", "payload", "task_id", "task_type"] := by decide
  refine .obj (Named.isOrdered_iff.mpr hnames) ?_
  obtain ⟨_ | id, taskType, payload, maxRetry⟩ := e
  · simp only [List.forall_mem_cons]
    exact ⟨.int, h, .null, .str, nofun⟩
  · simp only [List.forall_mem_cons]
    exact ⟨.int, h, .str, .str, nofun⟩

theorem isWhole_toJson (h : e.payload.IsWhole) : e.toJson.IsWhole := by
  have hretry : Json.IsWhole (.int e.maxRetry.toNat) := by
    have hlt := e.maxRetry.toNat_lt
    exact .int (by omega) (by omega)
  obtain ⟨_ | id, taskType, payload, maxRetry⟩ := e
  · refine .obj ?_
    simp only [List.forall_mem_cons]
    exact ⟨hretry, h, .null, .str, nofun⟩
  · refine .obj ?_
    simp only [List.forall_mem_cons]
    exact ⟨hretry, h, .str, .str, nofun⟩

/-- The payload stands one level deeper in the message. -/
theorem depth_toJson (e : Envelope) : e.toJson.depth = e.payload.depth + 1 := by
  obtain ⟨taskId, taskType, payload, maxRetry⟩ := e
  cases taskId <;> simp [toJson, Json.depth, Json.depthMembers]

theorem isGivenBy_toJson (e : Envelope) : e.IsGivenBy e.toJson := by
  obtain ⟨taskId, taskType, payload, maxRetry⟩ := e
  refine .object ⟨?_, rfl, rfl, .inr ⟨maxRetry.toNat, maxRetry.toNat_lt, rfl, rfl⟩⟩
  cases taskId with
  | none => exact .inl ⟨.inr rfl, rfl⟩
  | some id => exact .inr ⟨id, rfl, rfl⟩

theorem isReadIn_compact (hwhole : e.payload.IsWhole) (hordered : e.payload.IsOrdered)
    (hdepth : e.payload.depth ≤ 126) : e.IsReadIn e.toJson.compact := by
  have hshallow : e.toJson.depth ≤ 127 := by
    rw [depth_toJson]
    omega
  exact ⟨e.toJson, Json.read_compact (isWhole_toJson hwhole) (isOrdered_toJson hordered) hshallow,
    (ofJson_eq_ok_iff (isOrdered_toJson hordered) e).mpr e.isGivenBy_toJson⟩

theorem isTextOf_compact (hwhole : e.payload.IsWhole) (hordered : e.payload.IsOrdered) :
    Json.IsTextOf e.toJson.compact e.toJson :=
  Json.isTextOf_compact (isWhole_toJson hwhole) (isOrdered_toJson hordered)

end Envelope

namespace Messages

section

variable {δ : Type} {server : QueueServer δ} {settings : Settings} {s s₁ : δ} {queue : String}
  {m : Message} {body : String} {e : Envelope}

theorem dequeue_of_unread {fault : Json.Error}
    (hread : ((server.read queue settings.visibilityTimeout).run s).Answers (some m) s₁)
    (hjson : Json.read m.body = .error fault) (queues : List String) :
    (dequeue server.minuted settings (queue :: queues)).run (s, []) =
      ⟨.error (.storage (.column "2" fault.message)),
        (s₁, [.read queue settings.visibilityTimeout (.ok (some m))]),
        ((server.read queue settings.visibilityTimeout).run s).events⟩ := by
  have hbody : bodyOf m = .error (.column "2" fault.message) := by
    rw [bodyOf, hjson]
    rfl
  obtain ⟨events, hrun⟩ := hread.exists_events
  simp [dequeue, readNext, QueueServer.minuted, Effect.logged, hrun, hbody]

/-- Does every poll that comes upon a message that reads as the text deliver the envelope? -/
def Delivers (server : QueueServer δ) (settings : Settings) (body : String) (e : Envelope) :
    Prop :=
  ∀ queue queues m s s₁,
    ((server.read queue settings.visibilityTimeout).run s).Answers (some m) s₁ →
    Json.read m.body = Json.read body →
    ∃ d, ((dequeue server settings (queue :: queues)).run s).Answers (some d) s₁ ∧
      d.IsMadeOf queue m e

/-- Does every poll that comes upon a text of the value, in any layout, fail for the depth of the
value, and send nothing more? -/
def Jams (server : QueueServer δ) (settings : Settings) (v : Json) : Prop :=
  ∀ queue queues m s s₁,
    ((server.read queue settings.visibilityTimeout).run s).Answers (some m) s₁ →
    Json.IsTextOf m.body v →
    let poll := (dequeue server.minuted settings (queue :: queues)).run (s, [])
    (∃ place, poll.value = .error (.storage
      (.column "2" (Json.Error.message ⟨.malformed .tooDeep, some place⟩)))) ∧
    poll.state = (s₁, [.read queue settings.visibilityTimeout (.ok (some m))])

theorem delivers_of_isReadIn (h : e.IsReadIn body) : Delivers server settings body e := by
  intro queue queues m s s₁ hread hsame
  have hown : e.IsReadIn m.body := by
    obtain ⟨v, hjson, henvelope⟩ := h
    exact ⟨v, hsame.trans hjson, henvelope⟩
  exact ⟨_, dequeue_of_read hread hown queues, delivery_isMadeOf queue m e⟩

theorem jams_of_deep {v : Json} (h : 127 < v.depth) : Jams server settings v := by
  intro queue queues m s s₁ hread htext
  obtain ⟨place, hbody⟩ := htext.read_of_deep h
  rw [dequeue_of_unread hread hbody queues]
  exact ⟨⟨place, rfl⟩, rfl⟩

/-- What is written of an envelope is delivered, or jams every poll, by the depth of the
payload. -/
theorem delivers_or_jams (hwhole : e.payload.IsWhole) (hordered : e.payload.IsOrdered) :
    (e.payload.depth ≤ 126 → Delivers server settings e.toJson.compact e) ∧
      (126 < e.payload.depth → Jams server settings e.toJson) := by
  constructor
  · intro hdepth
    exact delivers_of_isReadIn (Envelope.isReadIn_compact hwhole hordered hdepth)
  · intro hdepth
    apply jams_of_deep
    rw [Envelope.depth_toJson]
    omega

end

end Messages

/-- The record of a new task shows the payload that was written, whatever is written later. -/
theorem Embedded.Holds.payload_eq {trail : AuditTable.Settings} (hd : trail.dialect = .positional)
    {table : Embedded} {ledger : Ledger} (h : table.Holds ledger) {accepted : Accepted}
    (hnew : ledger accepted.id = none) {taskType payload : String} {around : Surroundings}
    {writes : List Write} {record : Record}
    (hget : ((AuditTable.get Embedded.database trail accepted.id).run
      ((AuditTable.trail Embedded.database trail).afterAll writes
        ((AuditTable.trail Embedded.database trail).afterAll
          (Submitter.writes accepted taskType payload around) table))).value = .ok record) :
    record.payload = payload := by
  -- The insertion alone writes a payload; every later write keeps that of the task.
  have hholds := (h.afterAll hd (Submitter.writes accepted taskType payload around)).afterAll hd
    writes
  obtain ⟨own, hown, rfl⟩ := AuditTable.get_eq_ok hholds hget
  rw [Submitter.writes, Ledger.run_cons] at hown
  have hinserted : ledger.after (.created (.ofNewTask accepted.id taskType accepted.queue payload
      around.atInsert)) accepted.id = some _ := Ledger.after_created hnew
  obtain ⟨r₁, hmarked, hsame₁⟩ := Ledger.run_sameTask
    [.enqueued accepted.id accepted.queue around.atMark] hinserted
  obtain ⟨r₂, hlater, hsame₂⟩ := Ledger.run_sameTask writes hmarked
  obtain rfl := Option.some.inj (hown.symm.trans hlater)
  exact (hsame₁.trans hsame₂).payload.symm

namespace Messages

section

variable {δ : Type} {server : QueueServer δ} {settings : Settings} {id queue : String} {now : Now}
  {task : Task} {maxRetry : UInt32} {s s₁ : δ} {log : List Exchange} {accepted : Accepted}
  {v : Json}

theorem enqueue_of_malformed {fault : Json.Error}
    (hjson : Json.readBytes task.payload = .error fault) :
    (enqueue server id now task queue maxRetry).run s = ⟨.error (.serialization fault), s, []⟩ := by
  rw [enqueue, hjson]
  rfl

theorem enqueue_answers (hjson : Json.readBytes task.payload = .ok v) :
    ((enqueue server.minuted id now task queue maxRetry).run (s, [])).Answers accepted (s₁, log) ↔
      let body := (Envelope.toJson ⟨some id, task.taskType, v, maxRetry⟩).compact
      ((server.send queue body 0).run s).Answers () s₁ ∧
        accepted = ⟨id, queue, task.taskType, maxRetry, now.time⟩ ∧
        log = [.send queue body 0 (.ok ())] := by
  simp only [enqueue, hjson, QueueServer.minuted, Action.run_bind, Action.run_noted,
    Effect.logged, List.nil_append, Effect.Answers]
  generalize (server.send queue _ 0).run s = r
  obtain ⟨value, state, events⟩ := r
  cases value with
  | error fault => simp
  | ok done => simp [countUse, eq_comm, and_left_comm]

theorem enqueue_delivers (hjson : Json.readBytes task.payload = .ok v) (hwhole : v.IsWhole)
    (h : ((enqueue server.minuted id now task queue maxRetry).run (s, [])).Answers accepted
      (s₁, log)) :
    let e : Envelope := ⟨some accepted.id, task.taskType, v, maxRetry⟩
    ∃ body, log = [.send queue body 0 (.ok ())] ∧ Json.IsTextOf body e.toJson ∧
      (v.depth ≤ 126 → Delivers server settings body e) ∧
      (126 < v.depth → v.depth = 127 ∧ Jams server settings e.toJson) := by
  obtain ⟨-, rfl, hlog⟩ := (enqueue_answers hjson).mp h
  obtain ⟨hordered, hlimit⟩ := Json.shape_of_readPieces hjson
  intro e
  obtain ⟨hdelivers, hjams⟩ := @delivers_or_jams _ server settings e hwhole hordered
  exact ⟨_, hlog, Envelope.isTextOf_compact hwhole hordered, hdelivers,
    fun hdeep => ⟨Nat.le_antisymm hlimit hdeep, hjams hdeep⟩⟩

/-- A submission asks the broker for what its caller wants, and gives the answer back. -/
theorem submit_asks {σ : Type} {c : Submitter (δ × List Exchange) σ}
    (hbroker : c.broker = broker server.minuted settings) (around : Surroundings)
    (taskType : String) (v : Json) (options : SubmitOptions) (b : δ × List Exchange) (t : σ) :
    let asked := (enqueue server.minuted around.id around.atBroker ⟨taskType, v.compact.toUTF8⟩
      (c.queueOf options) (options.maxRetry.getD defaultMaxRetry)).run b
    let e := (c.submit around taskType v options).run (b, t)
    e.value = asked.value ∧ e.state.1 = asked.state := by
  have hbare : c.bare around taskType options v = enqueue server.minuted around.id around.atBroker
      ⟨taskType, v.compact.toUTF8⟩ (c.queueOf options)
      (options.maxRetry.getD defaultMaxRetry) := by
    simp only [Submitter.bare, Submittable.text, Submitter.request, hbroker, broker]
  have hvalue := c.submit_value around taskType options (b, t) v
  have hstate := c.submit_broker around taskType options (b, t) v
  rw [hbare] at hvalue hstate
  exact ⟨hvalue, hstate⟩

theorem submit_answers {trail : Trail Embedded} {c : Submitter (δ × List Exchange) Embedded}
    (hbroker : c.broker = broker server.minuted settings) (htrail : c.trail = some trail)
    {around : Surroundings} {taskType : String} {options : SubmitOptions}
    {table table₁ : Embedded} :
    ((c.submit around taskType v options).run ((s, []), table)).Answers accepted
        ((s₁, log), table₁) ↔
      ((enqueue server.minuted around.id around.atBroker ⟨taskType, v.compact.toUTF8⟩
          (c.queueOf options) (options.maxRetry.getD defaultMaxRetry)).run (s, [])).Answers accepted
          (s₁, log) ∧
        table₁ = trail.afterAll (Submitter.writes accepted taskType v.compact around) table := by
  obtain ⟨hvalue, hsent⟩ := submit_asks hbroker around taskType v options (s, []) table
  have hleft : ((c.submit around taskType v options).run ((s, []), table)).value = .ok accepted →
      ((c.submit around taskType v options).run ((s, []), table)).state.2 =
        trail.afterAll (Submitter.writes accepted taskType v.compact around) table := by
    intro haccepted
    obtain ⟨text, htext, hleft⟩ :=
      Submitter.submit_state_of_ok htrail around taskType v options _ haccepted
    obtain rfl := Except.ok.inj htext
    exact hleft
  constructor
  · rintro ⟨haccepted, hstate⟩
    have hleft := hleft haccepted
    rw [hstate] at hsent hleft
    exact ⟨⟨hvalue.symm.trans haccepted, hsent.symm⟩, hleft⟩
  · rintro ⟨⟨haccepted, hstate⟩, rfl⟩
    have haccepted := hvalue.trans haccepted
    exact ⟨haccepted, Prod.ext (hsent.trans hstate) (hleft haccepted)⟩

theorem submit_delivers {trail : AuditTable.Settings} (hd : trail.dialect = .positional)
    {c : Submitter (δ × List Exchange) Embedded}
    (hbroker : c.broker = broker server.minuted settings)
    (htrail : c.trail = some (AuditTable.trail Embedded.database trail)) {around : Surroundings}
    {taskType : String} {options : SubmitOptions} {table table₁ : Embedded} {ledger : Ledger}
    (hwhole : v.IsWhole) (hordered : v.IsOrdered) (hdepth : v.depth ≤ 126)
    (hholds : table.Holds ledger) (hnew : ledger accepted.id = none)
    (h : ((c.submit around taskType v options).run ((s, []), table)).Answers accepted
      ((s₁, log), table₁)) :
    ∃ queue body e, log = [.send queue body 0 (.ok ())] ∧ Delivers server settings body e ∧
      e.taskId = some accepted.id ∧
      ∀ writes record, ((AuditTable.get Embedded.database trail accepted.id).run
        ((AuditTable.trail Embedded.database trail).afterAll writes table₁)).value = .ok record →
        e.payload.compact.toUTF8 = record.payload.toUTF8 := by
  obtain ⟨hsent, rfl⟩ := (submit_answers hbroker htrail).mp h
  let task : Task := ⟨taskType, v.compact.toUTF8⟩
  have hjson : Json.readBytes task.payload = .ok v := by
    rw [Json.readBytes_toUTF8]
    exact Json.read_compact hwhole hordered (by omega)
  obtain ⟨-, haccepted, hlog⟩ := (enqueue_answers hjson).mp hsent
  have hid : some around.id = some accepted.id := by rw [haccepted]
  refine ⟨_, _, _, hlog, (delivers_or_jams hwhole hordered).1 hdepth, hid, ?_⟩
  intro writes record hget
  rw [hholds.payload_eq hd hnew hget]

end

/-- Does the broker give back what it sends? -/
structure GivesBack {δ : Type} (server : QueueServer δ) (settings : Settings) : Prop where
  /-- A payload that is no JSON is refused, and nothing is sent. -/
  refuses : ∀ id now task queue maxRetry s fault, Json.readBytes task.payload = .error fault →
    (enqueue server.minuted id now task queue maxRetry).run s =
      ⟨.error (.serialization fault), s, []⟩
  /-- A payload whose numbers are integers is sent once. What was sent is delivered as it was
  accepted, unless the payload is nested as deep as a payload may be: then no text of it ever
  is. -/
  delivers : ∀ id now task queue maxRetry s accepted s₁ log v,
    Json.readBytes task.payload = .ok v → v.IsWhole →
    ((enqueue server.minuted id now task queue maxRetry).run (s, [])).Answers accepted
      (s₁, log) →
    let e : Envelope := ⟨some accepted.id, task.taskType, v, maxRetry⟩
    ∃ body, log = [.send queue body 0 (.ok ())] ∧ Json.IsTextOf body e.toJson ∧
      (v.depth ≤ 126 → Delivers server settings body e) ∧
      (126 < v.depth → v.depth = 127 ∧ Jams server settings e.toJson)
  /-- Of a value that was submitted, the record shows the payload that is delivered, whatever is
  written to the trail later. -/
  records : ∀ trail (c : Submitter (δ × List Exchange) Embedded) around taskType (v : Json) options
      s table ledger accepted s₁ log table₁, trail.dialect = .positional →
    c.broker = broker server.minuted settings →
    c.trail = some (AuditTable.trail Embedded.database trail) →
    v.IsWhole → v.IsOrdered → v.depth ≤ 126 → table.Holds ledger → ledger accepted.id = none →
    ((c.submit around taskType v options).run ((s, []), table)).Answers accepted
      ((s₁, log), table₁) →
    ∃ queue body e, log = [.send queue body 0 (.ok ())] ∧ Delivers server settings body e ∧
      e.taskId = some accepted.id ∧
      ∀ writes record, ((AuditTable.get Embedded.database trail accepted.id).run
        ((AuditTable.trail Embedded.database trail).afterAll writes table₁)).value = .ok record →
        e.payload.compact.toUTF8 = record.payload.toUTF8

/-- What the broker sends it delivers, with the payload written as the record of the task shows
it; only a payload that is nested 127 deep is accepted and sent, and can never be read. -/
theorem gives_back {δ : Type} (server : QueueServer δ) (settings : Settings) :
    GivesBack server settings where
  refuses _ _ _ _ _ _ _ hjson := enqueue_of_malformed hjson
  delivers _ _ _ _ _ _ _ _ _ _ hjson hwhole h := enqueue_delivers hjson hwhole h
  records _ _ _ _ _ _ _ _ _ _ _ _ _ hd hbroker htrail hwhole hordered hdepth hholds hnew h :=
    submit_delivers hd hbroker htrail hwhole hordered hdepth hholds hnew h

/-- A value that is submitted, recorded and delivered. -/
theorem gives_back_of_mail :
    let v : Json := .obj [("n", .int (-1)), ("s", .str "\"")]
    let time : Timestamp := ⟨1, 0, by decide⟩
    let trail : AuditTable.Settings := ⟨.positional, none⟩
    let c : Submitter (Queues × List Exchange) Embedded := ⟨broker Queues.server.minuted {},
      some (AuditTable.trail Embedded.database trail), "q"⟩
    ∃ accepted s₁ log table₁ record d s₂,
      ((c.submit ⟨"a", ⟨0, time⟩, time, time⟩ "mail" v {}).run
        ((⟨0, [("q", {})]⟩, []), .fresh "")).Answers accepted ((s₁, log), table₁) ∧
      ((AuditTable.get Embedded.database trail "a").run table₁).value = .ok record ∧
      ((dequeue Queues.server {} ["q"]).run s₁).Answers (some d) s₂ ∧
      d.context.taskId = some "a" ∧ d.task.payload = record.payload.toUTF8 := by
  intro v time trail c
  have hordered : v.IsOrdered := by
    refine .obj (Named.isOrdered_iff.mpr (by decide)) ?_
    simp only [List.forall_mem_cons]
    exact ⟨.int, .str, nofun⟩
  have hwhole : v.IsWhole := by
    refine .obj ?_
    simp only [List.forall_mem_cons]
    exact ⟨.int (by decide) (by decide), .str, nofun⟩
  have hdepth : v.depth ≤ 126 := by decide
  let task : Task := ⟨"mail", v.compact.toUTF8⟩
  have hjson : Json.readBytes task.payload = .ok v := by
    rw [Json.readBytes_toUTF8]
    exact Json.read_compact hwhole hordered (by omega)
  let body := (Envelope.toJson ⟨some "a", "mail", v, 25⟩).compact
  let sent : Queues := ⟨0, [("q", ⟨[⟨1, 0, 0, body⟩], [], 1⟩)]⟩
  have hsent : ((enqueue Queues.server.minuted "a" ⟨0, time⟩ task "q" 25).run
      (⟨0, [("q", {})]⟩, [])).Answers ⟨"a", "q", "mail", 25, time⟩ (sent, _) :=
    (enqueue_answers hjson).mpr ⟨⟨rfl, rfl⟩, rfl, rfl⟩
  have hsubmit : ((c.submit ⟨"a", ⟨0, time⟩, time, time⟩ "mail" v {}).run
      ((⟨0, [("q", {})]⟩, []), .fresh "")).Answers ⟨"a", "q", "mail", 25, time⟩ _ :=
    (submit_answers rfl rfl).mpr ⟨hsent, rfl⟩
  obtain ⟨_, _, e, hlog, hdelivers, hid, hrecord⟩ := (gives_back Queues.server {}).records
    trail c _ _ v _ _ _ _ _ _ _ _ rfl rfl rfl hwhole hordered hdepth (Embedded.fresh_holds "") rfl
    hsubmit
  obtain ⟨rfl, rfl, -, -⟩ := Exchange.send.inj (List.cons.inj hlog).1
  obtain ⟨d, hpoll, hmade⟩ := hdelivers "q" [] ⟨1, 1, body⟩ sent _ ⟨rfl, rfl⟩ rfl
  have hget : ((AuditTable.get Embedded.database trail "a").run
      ((AuditTable.trail Embedded.database trail).afterAll (Submitter.writes
        ⟨"a", "q", "mail", 25, time⟩ "mail" v.compact ⟨"a", ⟨0, time⟩, time, time⟩)
        (.fresh ""))).value =
      .ok ⟨"a", "mail", "q", v.compact, .created, none, none, time, time, none, none⟩ := by
    decide +kernel
  refine ⟨_, _, _, _, _, d, _, hsubmit, hget, hpoll, hmade.context.1.trans hid, ?_⟩
  rw [hmade.task]
  exact hrecord [] _ hget

/-- A payload at the limit. It is accepted and sent, and the poll that reads what was sent fails
and leaves it in the queue. -/
theorem deepest_payload_jams :
    let v := Json.nest 126
    let task : Task := ⟨"mail", v.compact.toUTF8⟩
    Json.readBytes task.payload = .ok v ∧ v.IsWhole ∧ ∃ accepted s₁ m s₂ place,
      ((enqueue Queues.server.minuted "a" ⟨0, .epoch⟩ task "q" 25).run
        (⟨0, [("q", {})]⟩, [])).Answers accepted (s₁, [.send "q" m.body 0 (.ok ())]) ∧
      ((Queues.server.read "q" 60).run s₁).Answers (some m) s₂ ∧
      let poll := (dequeue Queues.server.minuted {} ["q"]).run (s₁, [])
      poll.value = .error (.storage
        (.column "2" (Json.Error.message ⟨.malformed .tooDeep, some place⟩))) ∧
      poll.state = (s₂, [.read "q" 60 (.ok (some m))]) := by
  intro v task
  have hdepth : v.depth = 127 := Json.depth_nest 126
  have hwhole : v.IsWhole := Json.isWhole_nest 126
  have hordered : v.IsOrdered := Json.isOrdered_nest 126
  have hjson : Json.readBytes task.payload = .ok v := by
    rw [Json.readBytes_toUTF8]
    exact Json.read_compact hwhole hordered hdepth.le
  let e : Envelope := ⟨some "a", "mail", v, 25⟩
  let m : Message := ⟨1, 1, e.toJson.compact⟩
  let sent : Queues := ⟨0, [("q", ⟨[⟨1, 0, 0, m.body⟩], [], 1⟩)]⟩
  have hsent : ((enqueue Queues.server.minuted "a" ⟨0, .epoch⟩ task "q" 25).run
      (⟨0, [("q", {})]⟩, [])).Answers ⟨"a", "q", "mail", 25, .epoch⟩
        (sent, [.send "q" m.body 0 (.ok ())]) :=
    (enqueue_answers hjson).mpr ⟨⟨rfl, rfl⟩, rfl, rfl⟩
  have hread : ((Queues.server.read "q" 60).run sent).Answers (some m) _ := ⟨rfl, rfl⟩
  have hjams : Jams Queues.server {} e.toJson := (delivers_or_jams hwhole hordered).2 hdepth.ge
  obtain ⟨⟨place, hvalue⟩, hstate⟩ :=
    hjams "q" [] m sent _ hread (Envelope.isTextOf_compact hwhole hordered)
  exact ⟨hjson, hwhole, _, sent, m, _, place, hsent, hread, hvalue, hstate⟩

end Messages

end TaskAudit
