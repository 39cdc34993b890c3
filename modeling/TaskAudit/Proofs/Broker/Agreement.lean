import Mathlib
import TaskAudit.Proofs.Broker.Outcomes

/-!
# The brokers agree on retries

A task in the broker in memory and a message in a queue have careers of one kind, and a
career is settled by the retries of its task and by what became of the deliveries. So tasks
with as many retries whose deliveries came to the same are told the same about retries, and
are delivered for the last time at the same delivery.
-/
namespace TaskAudit

namespace Backlog

variable {delay : Span} {a : Account} {id : String} {t : Ticket} {held : Holding}
  {attempts : List Attempt}

theorem Career.isOver_iff (h : Career id (some t) held attempts) :
    IsOver t.maxRetry.toNat (attempts.map Prod.snd) ↔
      held.dead ≠ [] ∨ ∃ d, (d, .succeeded) ∈ attempts := by
  rw [IsOver, h.dead_iff_fates, or_comm]
  refine or_congr_right ?_
  constructor
  · intro hmem
    obtain ⟨⟨d, fate⟩, hp, rfl⟩ := List.mem_map.mp hmem
    exact ⟨d, hp⟩
  · rintro ⟨d, hd⟩
    exact List.mem_map.mpr ⟨_, hd, rfl⟩

theorem Call.mem_settle {call : Call} {p : Attempt} (hp : p ∈ attempts) (hdecided : p.2 ≠ .live) :
    p ∈ call.settle attempts := by
  have hkept : ∀ msgId fate, p ∈ Backlog.settle msgId fate attempts := by
    intro msgId fate
    refine List.mem_map.mpr ⟨p, hp, ?_⟩
    rw [if_neg fun hlive => hdecided hlive.2]
  cases call with
  | ack receipt | fail now receipt error => exact hkept _ _
  | enqueue _ _ _ _ _ | dequeue _ _ | close => exact hp

namespace Account

def HasAcks (a : Account) : Prop :=
  ∀ e ∈ a.history.acked, ∃ d, (d, .succeeded) ∈ a.attemptsOf e.taskId

theorem HasAcks.empty : HasAcks {} := fun _ he => absurd he List.not_mem_nil

theorem mem_attemptsOf_after (delay : Span) {p : Attempt} (hp : p ∈ a.attemptsOf id)
    (hdecided : p.2 ≠ .live) (call : Call) : p ∈ (a.after delay call).attemptsOf id := by
  obtain ⟨more, hmore⟩ := attemptsOf_after delay a call id
  rw [hmore]
  exact List.mem_append_left _ (call.mem_settle hp hdecided)

theorem mem_attemptsOf_ack (delay : Span) (h : Kept a) {receipt : Receipt} {e : Entry}
    {before rest : List (Int × Entry)}
    (hflight : a.history.backlog.inFlight = before ++ (receipt.msgId, e) :: rest) :
    ∃ d, (d, .succeeded) ∈ (a.after delay (.ack receipt)).attemptsOf e.taskId := by
  have hmem : (receipt.msgId, e) ∈ (a.history.backlog.holding e.taskId).inFlight := by
    refine List.mem_filter.mpr ⟨?_, decide_eq_true rfl⟩
    rw [hflight]
    exact List.mem_append_cons_self
  obtain ⟨-, -, -, queue, earlier, -, hattempts⟩ := (h.careers e.taskId).flying_eq hmem
  obtain ⟨more, hmore⟩ := attemptsOf_after delay a (.ack receipt) e.taskId
  refine ⟨delivery queue receipt.msgId e, ?_⟩
  rw [hmore, hattempts]
  refine List.mem_append_left _ (List.mem_map.mpr ⟨(delivery queue receipt.msgId e, .live), ?_, ?_⟩)
  · exact List.mem_append_right _ List.mem_cons_self
  · exact if_pos ⟨rfl, rfl⟩

theorem HasAcks.after (ha : a.HasAcks) (h : Kept a) (call : Call) :
    (a.after delay call).HasAcks := by
  have hkept : ∀ e ∈ a.history.acked,
      ∃ d, (d, .succeeded) ∈ (a.after delay call).attemptsOf e.taskId := by
    intro e he
    obtain ⟨d, hd⟩ := ha e he
    exact ⟨d, mem_attemptsOf_after delay hd Fate.noConfusion call⟩
  have hmove := History.after_moves delay a.history call
  intro e he
  have he' : e ∈ (a.history.after delay call).acked := he
  generalize a.history.after delay call = later at hmove he'
  cases hmove with
  | @acked receipt entry before rest hflight =>
      rcases List.mem_append.mp he' with he' | he'
      · exact hkept e he'
      · obtain rfl := List.mem_singleton.mp he'
        exact mem_attemptsOf_ack delay h hflight
  | _ => exact hkept e he'

theorem HasAcks.run (ha : a.HasAcks) (h : Kept a) {calls : List Call}
    (hnew : (a.history.acceptedIds ++ calls.filterMap Call.newId?).Nodup) :
    (run delay calls a).HasAcks := by
  induction calls generalizing a with
  | nil => exact ha
  | cons call calls ih =>
      have hafter : Kept (a.after delay call) := h.after (History.ticket?_of_new hnew)
      exact ih (ha.after h call) hafter (History.nodup_after hnew)

theorem mem_accepted_run {p : String × Ticket} (hp : p ∈ a.history.accepted) (calls : List Call) :
    p ∈ (run delay calls a).history.accepted := by
  induction calls generalizing a with
  | nil => exact hp
  | cons call calls ih =>
      refine ih ?_
      have hmove := History.after_moves delay a.history call
      rw [after]
      generalize a.history.after delay call = later at hmove
      cases hmove with
      | accepted _ => exact List.mem_append_left _ hp
      | _ => exact hp

section

variable {calls more : List Call} {p : String × Ticket}

theorem history_run (delay : Span) (calls : List Call) :
    (run delay calls {}).history = History.run delay calls {} :=
  run_history delay calls {}

theorem career_run (hnew : (calls.filterMap Call.newId?).Nodup)
    (hp : p ∈ (run delay calls {}).history.accepted) :
    Career p.2.taskId (some p.2) ((run delay calls {}).history.backlog.holding p.2.taskId)
      ((run delay calls {}).attemptsOf p.2.taskId) := by
  have hids : (run delay calls {}).history.acceptedIds.Nodup := by
    rw [history_run]
    exact History.nodup_acceptedIds hnew
  have hkept : Kept (run delay calls {}) := Kept.empty.run hnew
  have hcareer := hkept.careers p.2.taskId
  rwa [History.ticket?_of_mem hids hp] at hcareer

/-- If no failure meets a clock that cannot show the next delivery, a task is over if the broker
holds nothing of it to deliver. -/
theorem isOver_of_isIdle (hnew : (calls.filterMap Call.newId?).Nodup)
    (hshow : ∀ call ∈ calls, call.IsShowable delay)
    (hp : p ∈ (run delay calls {}).history.accepted)
    (hidle : ((run delay calls {}).history.backlog.holding p.2.taskId).IsIdle) :
    IsOver p.2.maxRetry.toNat (((run delay calls {}).attemptsOf p.2.taskId).map Prod.snd) := by
  have hacks : (run delay calls {}).HasAcks := HasAcks.empty.run Kept.empty hnew
  have hconserved : (run delay calls {}).history.IsConserved := by
    rw [history_run]
    exact History.empty_isConserved.run hshow
  have hentry : p.2.taskId ∈ (run delay calls {}).history.entries.map Entry.taskId := by
    have hperm := hconserved.tickets.map Ticket.taskId
    rw [List.map_map, List.map_map] at hperm
    exact hperm.mem_iff.mp (List.mem_map.mpr ⟨p, hp, rfl⟩)
  obtain ⟨e, he, hown⟩ := List.mem_map.mp hentry
  have hkeep : decide (e.taskId = p.2.taskId) = true := decide_eq_true hown
  obtain ⟨hwaiting, hflight⟩ := hidle
  rw [(career_run hnew hp).isOver_iff]
  simp only [History.entries, List.mem_append] at he
  rcases he with he | he | he | he
  · obtain ⟨w, hw, rfl⟩ := List.mem_map.mp he
    exact absurd hkeep (List.filter_eq_nil_iff.mp hwaiting w hw)
  · obtain ⟨f, hf, rfl⟩ := List.mem_map.mp he
    exact absurd hkeep (List.filter_eq_nil_iff.mp hflight f hf)
  · exact .inl fun hdead => absurd hkeep (List.filter_eq_nil_iff.mp hdead e he)
  · rw [← hown]
    exact .inr (hacks e he)

/-- Nothing follows on the end of a task, whatever is called. -/
theorem attemptsOf_of_isOver (hnew : ((calls ++ more).filterMap Call.newId?).Nodup)
    (hp : p ∈ (run delay calls {}).history.accepted)
    (hover : IsOver p.2.maxRetry.toNat
      (((run delay calls {}).attemptsOf p.2.taskId).map Prod.snd)) :
    (run delay (calls ++ more) {}).attemptsOf p.2.taskId =
      (run delay calls {}).attemptsOf p.2.taskId := by
  have hbefore : (calls.filterMap Call.newId?).Nodup := by
    rw [List.filterMap_append] at hnew
    exact hnew.of_append_left
  have hrun : run delay (calls ++ more) {} = run delay more (run delay calls {}) :=
    run_append delay calls more {}
  have hp' : p ∈ (run delay (calls ++ more) {}).history.accepted := by
    rw [hrun]
    exact mem_accepted_run hp more
  have hcareer := career_run hbefore hp
  have hcareer' := career_run hnew hp'
  have hended := hcareer.isOver_iff.mp hover
  have hbegins := run_keeps_decided delay more (run delay calls {}) (hcareer.decided hended)
    (List.prefix_refl _)
  rw [← hrun] at hbegins
  exact hcareer.eq_of_over hcareer' hended hbegins

end

end Account

end Backlog

namespace Messages

/-- A message that was never read lies in its queue, and a task with as many retries was
submitted to the broker in memory. Of the message every delivery is reported once, before it
can be read again, and its readings can be counted. If then the deliveries of the two came to
the same, as many of them as there are, they said the same about retries. The task is over if
a delivery succeeded or all those failed that it may have. The message is gone exactly when the
task is over, the broker in memory holds nothing of it to deliver exactly when it is over, and
it is dead exactly when all its deliveries failed. Once it is over neither broker delivers it
again, whatever is done. -/
theorem Course.agrees {δ : Type} {server : QueueServer δ} (law : server.Law) (settings : Settings)
    {queue : String} {msgId : Int} {envelope : Envelope} {id body : String} {inSight : Bool}
    {start s : δ} {course : List Backlog.Attempt} (hs : law.IsSound start)
    (hbody : envelope.IsReadIn body) (hid : envelope.taskId = some id)
    (hletter : law.letter? start queue msgId = some ⟨0, inSight, body⟩)
    (hcourse : Course law settings queue msgId (start, []) (s, course))
    (hlength : course.length < 2 ^ 31) (delay : Span) {calls : List Backlog.Call}
    (hnew : (calls.filterMap Backlog.Call.newId?).Nodup) {p : String × Ticket}
    (hp : p ∈ (Backlog.Account.run delay calls {}).history.accepted)
    (hlimit : p.2.maxRetry = envelope.maxRetry)
    (hfates : ((Backlog.Account.run delay calls {}).attemptsOf p.2.taskId).map Prod.snd =
      course.map Prod.snd) :
    let a := Backlog.Account.run delay calls {}
    let attempts := a.attemptsOf p.2.taskId
    let held := a.history.backlog.holding p.2.taskId
    let fates := course.map Prod.snd
    let limit := envelope.maxRetry.toNat
    attempts.map (·.1.counts) = course.map (·.1.counts) ∧
      (law.letter? s queue msgId = none ↔ Backlog.IsOver limit fates) ∧
      ((∀ call ∈ calls, call.IsShowable delay) → (held.IsIdle ↔ Backlog.IsOver limit fates)) ∧
      (held.dead ≠ [] ↔ fates = List.replicate (limit + 1) .failed) ∧
      (Backlog.IsOver limit fates →
        (∀ s' course', Course law settings queue msgId (s, course) (s', course') →
          course' = course) ∧
        ∀ more, ((calls ++ more).filterMap Backlog.Call.newId?).Nodup →
          (Backlog.Account.run delay (calls ++ more) {}).attemptsOf p.2.taskId = attempts) := by
  intro a attempts held fates limit
  obtain ⟨held', hf⟩ := (Follows.start hs hbody hletter).course hid hcourse hlength
  have hcareer : Backlog.Career p.2.taskId (some p.2) held attempts :=
    Backlog.Account.career_run hnew hp
  have hcount : attempts.length = course.length := by
    simpa using congrArg List.length hfates
  have hover : Backlog.IsOver p.2.maxRetry.toNat (attempts.map Prod.snd) ↔
      Backlog.IsOver limit fates := by
    rw [hlimit, hfates]
  have hdead := hcareer.dead_iff_fates
  rw [hlimit, hfates] at hdead
  have hgone : law.letter? s queue msgId = none ↔ Backlog.IsOver limit fates :=
    ⟨fun hnone => hf.ended (hf.gone.mp hnone), fun h => hf.gone.mpr (hf.career.idle_of_isOver h)⟩
  refine ⟨hcareer.counts_eq hf.career hlimit hcount, hgone, ?_, hdead, ?_⟩
  · intro hshow
    constructor
    · exact fun hidle => hover.mp (Backlog.Account.isOver_of_isIdle hnew hshow hp hidle)
    · exact fun h => hcareer.idle_of_isOver (hover.mpr h)
  · intro h
    constructor
    · intro s' course' hmore
      have hdecided := hf.career.decided (hf.career.isOver_iff.mp h)
      exact hmore.eq_of_gone hf.sound (hgone.mpr h) hdecided
    · intro more hnewer
      exact Backlog.Account.attemptsOf_of_isOver hnewer hp (hover.mpr h)

/-- A task that fails once and then succeeds. -/
theorem Course.agrees_of_retry :
    let now : Now := ⟨0, Timestamp.epoch⟩
    let task : Task := ⟨"mail", "1".toUTF8⟩
    let receipt (msgId : Int) : Receipt := ⟨"q", msgId, 0, 1⟩
    let calls : List Backlog.Call := [.enqueue "a" now task "q" 1, .dequeue now ["q"],
      .fail now (receipt 1) "no", .dequeue now ["q"], .ack (receipt 2)]
    let attempts := (Backlog.Account.run ⟨0⟩ calls {}).attemptsOf "a"
    let body := (Envelope.toJson ⟨some "a", "mail", .int 1, 1⟩).compact
    attempts.map (·.1.counts) = [((0, 1), (0, 1)), ((1, 1), (1, 1))] ∧
      ∃ s course, Course Queues.law {} "q" 1 (Queues.single 0 0 0 body, []) (s, course) ∧
        course.map Prod.snd = [.failed, .succeeded] ∧
        course.map (·.1.counts) = attempts.map (·.1.counts) ∧
        Queues.law.letter? s "q" 1 = none := by
  have hbody : Envelope.IsReadIn ⟨some "a", "mail", .int 1, 1⟩
      (Envelope.toJson ⟨some "a", "mail", .int 1, 1⟩).compact := by
    refine ⟨Envelope.toJson ⟨some "a", "mail", .int 1, 1⟩, ?_, rfl⟩
    rw [Json.read, Text.Piece.ofText, Json.compact, String.toList_ofList]
    rfl
  intro now task receipt calls attempts body
  have hsound : Queues.law.IsSound (Queues.single 0 0 0 body) :=
    Queues.single_isSound (by decide)
  have houtcome : ∃ s course, Course Queues.law {} "q" 1 (Queues.single 0 0 0 body, [])
      (s, course) ∧ course.map Prod.snd = List.replicate 1 .failed ++ [.succeeded] :=
    Course.exists_over hbody (by decide) (by decide) (by decide) (.inl rfl)
  obtain ⟨s, course, hcourse, hfates⟩ := houtcome
  have hlength : course.length = 2 := by
    simpa using congrArg List.length hfates
  have haccepted : ("q", ⟨"a", task, 1⟩) ∈
      (Backlog.Account.run ⟨0⟩ calls {}).history.accepted := by decide
  have hsame : attempts.map Prod.snd = course.map Prod.snd := by
    rw [hfates]
    decide
  obtain ⟨hcounts, hgone, -⟩ := Course.agrees Queues.law {} hsound hbody rfl
    Queues.single_letter? hcourse (by omega) ⟨0⟩ (by decide) haccepted rfl hsame
  refine ⟨by decide, s, course, hcourse, hfates, hcounts.symm, hgone.mpr (.inl ?_)⟩
  rw [hfates]
  decide

end Messages

end TaskAudit
