import Mathlib
import TaskAudit.Broker.Backlog
import TaskAudit.Console.Report
import TaskAudit.Proofs.Trail.Interleaving
import TaskAudit.Proofs.Trail.Recording

/-!
# The times of a record

A task that is submitted and then delivered, one delivery after another, is written about by
its submitter and by the workers that follow the deliveries. A mark sets its own fields and
leaves all others as they are. So the times of a record that shows an end are those of one
delivery, and in order. While a further delivery goes on, the record shows its start beside
the end of an earlier one, whichever of them is later.
-/
namespace TaskAudit

namespace Timestamp

variable {a b : Timestamp}

theorem seconds_le_of_le (h : a ≤ b) : a.seconds ≤ b.seconds := by
  by_contra hlt
  exact h (.inl (not_le.mp hlt))

theorem nanos_le_of_le (h : a ≤ b) (hseconds : a.seconds = b.seconds) : a.nanos ≤ b.nanos := by
  by_contra hlt
  exact h (.inr ⟨hseconds.symm, not_le.mp hlt⟩)

theorem written_le_written (h : a ≤ b) (ha : a.IsRegular) : a.written ≤ b.written := by
  rw [written_of_regular ha]
  by_cases hb : b.IsRegular
  · rwa [written_of_regular hb]
  · obtain ⟨hseconds, -⟩ := written_of_irregular hb
    have hle := seconds_le_of_le h
    rintro (hlt | ⟨heq, -⟩) <;> omega

/-- Between two times in order there are no less than zero milliseconds, unless the first one
is a leap second, which may be left out of the count. -/
theorem millisecondsTo_nonneg (h : a ≤ b) (hleap : a.isLeap = false) : 0 ≤ a.millisecondsTo b := by
  have hnanos : a.nanos < Time.nanosPerSecond := by
    simpa [isLeap] using hleap
  have hle := seconds_le_of_le h
  refine Int.tdiv_nonneg ?_ (by decide)
  simp only [hleap, Bool.false_eq_true, and_false, if_false]
  by_cases hback : b.secondOfDay < a.secondOfDay ∧ b.isLeap = true
  · -- an earlier time of day is one of a later day, and the leap second makes up for the rest
    have hday : a.seconds ≠ b.seconds := by
      intro heq
      have hsame : b.secondOfDay = a.secondOfDay := by
        unfold secondOfDay
        rw [heq]
      omega
    have hlate : Time.nanosPerSecond ≤ b.nanos := by
      simpa [isLeap] using hback.2
    rw [if_pos hback]
    simp only [Time.nanosPerSecond] at *
    omega
  · rw [if_neg hback]
    rcases Int.lt_or_eq_of_le hle with hlt | heq
    · simp only [Time.nanosPerSecond] at *
      omega
    · have hfraction := nanos_le_of_le h heq
      simp only [Time.nanosPerSecond] at *
      omega

end Timestamp

namespace Record

/-- If no delivery goes on, then none was started after it ended, as far as the texts of the
times can tell. -/
def TimesAgree (r : Record) : Prop :=
  r.status ≠ .inProgress → ∀ started ∈ r.startedAt, ∀ finished ∈ r.finishedAt,
    started.written ≤ finished.written

theorem timesAgree_of_unstarted {r : Record} (h : r.startedAt = none) : r.TimesAgree := by
  intro _ started hstarted
  rw [h] at hstarted
  cases hstarted

/-- Is a delivery of the task going on since a time? -/
structure IsGoingOn (since : Timestamp) (r : Record) : Prop where
  status : r.status = .inProgress
  started : r.startedAt = some since

theorem IsGoingOn.timesAgree {since : Timestamp} {r : Record} (h : r.IsGoingOn since) :
    r.TimesAgree :=
  fun hstatus => absurd h.status hstatus

theorem amend_opening (time : Timestamp) (id : String) (r : Record) :
    ((Tracking.opening time id).amend r).IsGoingOn time :=
  ⟨rfl, rfl⟩

/-- The end of a delivery is marked next to its start, not before. -/
theorem IsGoingOn.amend_closing {since : Timestamp} {r : Record} (h : r.IsGoingOn since)
    {time : Timestamp} (hle : since.written ≤ time.written) (outcome : Outcome) (id : String) :
    ((Tracking.closing outcome time id).amend r).TimesAgree := by
  have hstarted : ((Tracking.closing outcome time id).amend r).startedAt = some since := by
    cases outcome <;> exact h.started
  have hfinished : ((Tracking.closing outcome time id).amend r).finishedAt = some time := by
    cases outcome <;> rfl
  intro _ started hs finished hf
  rw [hstarted] at hs
  rw [hfinished] at hf
  cases hs
  cases hf
  exact hle

theorem finishing_of_le {r : Record} {started finished : Timestamp}
    (hstarted : r.startedAt = some started) (hfinished : r.finishedAt = some finished)
    (hle : started ≤ finished) (hleap : started.isLeap = false) :
    ∃ n : Nat, Console.Report.finishing r =
      [Console.Report.labelled "Finished" finished.shown,
        Console.Report.labelled "Duration" (Decimal.text n ++ "ms")] := by
  obtain ⟨n, hn⟩ := Int.eq_ofNat_of_zero_le (Timestamp.millisecondsTo_nonneg hle hleap)
  refine ⟨n, ?_⟩
  have hsigned : Decimal.signedText (n : Int) = Decimal.text n := by
    have hnot : ¬ (n : Int) < 0 := by omega
    rw [Decimal.signedText, Decimal.signed, if_neg hnot, Int.natAbs_natCast, Decimal.text]
  simp only [Console.Report.finishing, hstarted, hfinished, Option.toList_some, List.map_cons,
    List.map_nil, hn, hsigned]

end Record

/-- A table that others write to as well. `rounds` is what they write before each of our
writes, with the times that the database takes for the present then, and `points` are the
tables after every write, theirs and ours. -/
structure Watched where
  table : Embedded
  rounds : List (List (String × Write)) := []
  points : List Embedded := []

namespace Watched

section

variable (settings : AuditTable.Settings)

def write (w : Write) : Action Watched (Except Error Unit) := fun s =>
  let e := (AuditTable.write Embedded.database settings w).run s.table
  ⟨e.value, { s with table := e.state, points := s.points ++ [e.state] }, e.events⟩

def writeAll (steps : List (String × Write)) (s : Watched) : Watched :=
  steps.foldl (fun s step => ((write settings step.2).run { s with table.now := step.1 }).state) s

/-- The trail in such a table: every write of ours comes after a round of others. -/
def trail : Trail Watched where
  write w := fun s =>
    (write settings w).run (writeAll settings s.rounds.head?.toList.flatten
      { s with rounds := s.rounds.tail })

end

/-- The record of an id has a property, if there is one, and at every point so far its times
agreed. Others do not write about the id. -/
structure Tells (id : String) (P : Record → Prop) (s : Watched) : Prop where
  table : ∃ m : Ledger, s.table.Holds m ∧ ∀ r ∈ m id, P r
  points : ∀ point ∈ s.points, ∃ m : Ledger, point.Holds m ∧ ∀ r ∈ m id, r.TimesAgree
  others : ∀ round ∈ s.rounds, ∀ step ∈ round, step.2.id ≠ id

namespace Tells

variable {settings : AuditTable.Settings} {id : String} {P Q : Record → Prop} {s : Watched}

theorem mono (h : Tells id P s) (hPQ : ∀ r, P r → Q r) : Tells id Q s := by
  obtain ⟨m, hm, hP⟩ := h.table
  exact ⟨⟨m, hm, fun r hr => hPQ r (hP r hr)⟩, h.points, h.others⟩

theorem write (hd : settings.dialect = .positional) (h : Tells id P s) {w : Write}
    (hQ : ∀ r, Q r → r.TimesAgree)
    (hstep : ∀ m : Ledger, (∀ r ∈ m id, P r) → ∀ r ∈ m.after w id, Q r) :
    Tells id Q ((Watched.write settings w).run s).state := by
  obtain ⟨m, hm, hP⟩ := h.table
  have hafter := (AuditTable.run_write hd hm w).2.1
  have hnext := hstep m hP
  refine ⟨⟨_, hafter, hnext⟩, ?_, h.others⟩
  intro point hpoint
  rcases List.mem_append.mp hpoint with hpoint | hpoint
  · exact h.points point hpoint
  · obtain rfl := List.mem_singleton.mp hpoint
    exact ⟨_, hafter, fun r hr => hQ r (hnext r hr)⟩

theorem writeAll (hd : settings.dialect = .positional) (h : Tells id P s)
    (hP : ∀ r, P r → r.TimesAgree) {steps : List (String × Write)}
    (hothers : ∀ step ∈ steps, step.2.id ≠ id) :
    Tells id P (Watched.writeAll settings steps s) := by
  induction steps generalizing s with
  | nil => exact h
  | cons step steps ih =>
      obtain ⟨m, hm, hmP⟩ := h.table
      have hat : Tells id P { s with table.now := step.1 } :=
        ⟨⟨m, hm.at step.1, hmP⟩, h.points, h.others⟩
      refine ih (hat.write hd hP fun m hm r hr => ?_) fun other hmem =>
        hothers other (List.mem_cons_of_mem step hmem)
      rw [m.after_of_ne (hothers step List.mem_cons_self).symm] at hr
      exact hm r hr

theorem trail (hd : settings.dialect = .positional) (h : Tells id P s)
    (hP : ∀ r, P r → r.TimesAgree) (hQ : ∀ r, Q r → r.TimesAgree) {w : Write}
    (hstep : ∀ m : Ledger, (∀ r ∈ m id, P r) → ∀ r ∈ m.after w id, Q r) :
    Tells id Q (((Watched.trail settings).write w).run s).state := by
  have hround : ∀ step ∈ s.rounds.head?.toList.flatten, step.2.id ≠ id := by
    intro step hmem
    obtain ⟨round, hround, hmem⟩ := List.mem_flatten.mp hmem
    exact h.others round (List.mem_of_mem_head? (Option.mem_toList.mp hround)) step hmem
  have hrest : Tells id P { s with rounds := s.rounds.tail } :=
    ⟨h.table, h.points, fun round hmem => h.others round (List.mem_of_mem_tail hmem)⟩
  exact (hrest.writeAll hd hP hround).write hd hQ hstep

theorem mark (hd : settings.dialect = .positional) (h : Tells id P s)
    (hP : ∀ r, P r → r.TimesAgree) (hQ : ∀ r, Q r → r.TimesAgree) {w : Write} (hid : w.id = id)
    (hw : w.inserts = false) (hstep : ∀ r, P r → Q (w.amend r)) :
    Tells id Q (((Watched.trail settings).write w).run s).state := by
  refine h.trail hd hP hQ fun m hm r hr => ?_
  rw [m.after_of_id hid hw] at hr
  obtain ⟨old, hold, rfl⟩ := Option.map_eq_some_iff.mp hr
  exact hstep old (hm old hold)

end Tells

end Watched

theorem Ledger.unstarted_after_created {m : Ledger} {record : Record}
    (hm : ∀ r ∈ m record.id, r.startedAt = none) :
    ∀ r ∈ m.after (.created record) record.id, r.startedAt = none := by
  intro r hr
  have hself : m.after (.created record) record.id = (Write.created record).change (m record.id) :=
    m.after_self (.created record)
  rw [hself] at hr
  cases hentry : m record.id with
  | none =>
      rw [hentry, Write.change_created_none] at hr
      obtain rfl := Option.some.inj hr
      rfl
  | some old =>
      rw [hentry, Write.change_some] at hr
      obtain rfl := Option.some.inj hr
      exact hm old hentry

theorem Watched.Tells.submit {settings : AuditTable.Settings} {s : Watched} {accepted : Accepted}
    (hd : settings.dialect = .positional)
    (h : s.Tells accepted.id fun r => r.startedAt = none) (taskType payload : String)
    (around : Surroundings) :
    ((Watched.trail settings).afterAll (Submitter.writes accepted taskType payload around) s).Tells
      accepted.id fun r => r.startedAt = none := by
  have hagree : ∀ r : Record, r.startedAt = none → r.TimesAgree := fun r =>
    Record.timesAgree_of_unstarted
  have hinserted :
      (((Watched.trail settings).write
        (Submitter.insertion accepted taskType payload around)).run s).state.Tells accepted.id
          fun r => r.startedAt = none :=
    h.trail hd hagree hagree fun m hm => Ledger.unstarted_after_created hm
  exact hinserted.mark hd hagree hagree (w := Submitter.marking accepted around) rfl rfl
    fun r hr => hr

/-- A turn of a worker: it lets a handler work on a delivery, and reads the clock before and
after that. -/
structure Turn (η : Type) where
  handler : Handler η
  startedAt : Timestamp
  finishedAt : Timestamp
  context : Context
  task : Task

namespace Turn

variable {σ η : Type}

def follow (trail : Option (Trail σ)) (turn : Turn η) : Action (σ × η) Ending :=
  Tracking.follow trail turn.handler turn.startedAt turn.finishedAt turn.context turn.task

def followAll (trail : Option (Trail σ)) : List (Turn η) → Action (σ × η) Unit
  | [] => pure ()
  | turn :: turns => do
    let _ ← turn.follow trail
    followAll trail turns

end Turn

section

variable {settings : AuditTable.Settings} {id : String} {η : Type} {s : Watched}

theorem Watched.Tells.follow (hd : settings.dialect = .positional)
    (h : s.Tells id Record.TimesAgree) {turn : Turn η} (hid : turn.context.taskId = some id)
    (hclock : turn.startedAt.written ≤ turn.finishedAt.written) (handlers : η) :
    ((turn.follow (some (Watched.trail settings))).run (s, handlers)).state.1.Tells id
      Record.TimesAgree := by
  have hopened := h.mark hd (w := Tracking.opening turn.startedAt id) (fun _ hr => hr)
    (fun _ hr => hr.timesAgree) rfl rfl fun r _ => Record.amend_opening turn.startedAt id r
  rw [Turn.follow]
  cases hresult : ((turn.handler turn.context turn.task).run handlers).value.result? with
  | none =>
      rw [Tracking.follow_state_of_none _ _ _ _ hid _ _ hresult]
      exact hopened.mono fun r hr => hr.timesAgree
  | some outcome =>
      rw [Tracking.follow_state _ _ _ _ hid _ _ hresult]
      exact hopened.mark hd (fun r hr => hr.timesAgree) (fun _ hr => hr)
        (Tracking.closing_id outcome turn.finishedAt id)
        (Tracking.closing_inserts outcome turn.finishedAt id)
        fun r hr => hr.amend_closing hclock outcome id

theorem Watched.Tells.followAll (hd : settings.dialect = .positional)
    (h : s.Tells id Record.TimesAgree) {turns : List (Turn η)}
    (hid : ∀ turn ∈ turns, turn.context.taskId = some id)
    (hclock : ∀ turn ∈ turns, turn.startedAt.written ≤ turn.finishedAt.written) (handlers : η) :
    ((Turn.followAll (some (Watched.trail settings)) turns).run (s, handlers)).state.1.Tells id
      Record.TimesAgree := by
  induction turns generalizing s handlers with
  | nil => exact h
  | cons turn turns ih =>
      have hnext := h.follow hd (hid turn List.mem_cons_self) (hclock turn List.mem_cons_self)
        handlers
      exact ih hnext (fun t ht => hid t (List.mem_cons_of_mem turn ht))
        (fun t ht => hclock t (List.mem_cons_of_mem turn ht)) _

end

namespace AuditTable

/-- What can be read of an id is its record in the ledger, with the times that its texts name. -/
theorem get_eq_ok {settings : Settings} {s : Embedded} {m : Ledger} (h : s.Holds m) {id : String}
    {r : Record} (hget : ((get Embedded.database settings id).run s).value = .ok r) :
    ∃ own ∈ m id, own.written = r := by
  rw [run_get_readBack h] at hget
  cases hentry : m id with
  | none =>
      rw [hentry] at hget
      cases hget
  | some own =>
      have hread : own.readBack = .ok r := by
        rw [hentry] at hget
        exact hget
      refine ⟨own, rfl, ?_⟩
      by_cases hplain : own.HasPlainYears
      · rw [Record.readBack_of_plain hplain] at hread
        exact Except.ok.inj hread
      · obtain ⟨c, t, -, hfault⟩ := Record.readBack_of_signed hplain
        rw [hfault] at hread
        cases hread

end AuditTable

namespace Watched

/-- The table after a submission and some turns of workers. -/
def lifetime {β η α : Type} [Submittable α] (settings : AuditTable.Settings)
    (c : Submitter β Watched) (around : Surroundings) (taskType : String) (payload : α)
    (options : SubmitOptions) (turns : List (Turn η)) (s : β × Watched) (handlers : η) : Watched :=
  let submitted := ((c.submit around taskType payload options).run s).state.2
  ((Turn.followAll (some (trail settings)) turns).run (submitted, handlers)).state.1

/-- A task is submitted under a new id and then delivered, one delivery after another, while
others write about other tasks. At every point, also between the writes of one delivery: if
the record has a start and an end and does not say that a delivery goes on, then the end is
not before the start, and the duration that is shown is not negative. No turn starts in a leap
second inside a minute. -/
theorem times_agree (settings : AuditTable.Settings) (hd : settings.dialect = .positional)
    {table : Embedded} {m : Ledger} (htable : table.Holds m)
    (rounds : List (List (String × Write))) {β η α : Type} [Submittable α]
    (c : Submitter β Watched) (hc : c.trail = some (trail settings)) (around : Surroundings)
    (taskType : String) (payload : α) (options : SubmitOptions) (b : β) {accepted : Accepted}
    (hsubmit : ((c.submit around taskType payload options).run (b, ⟨table, rounds, []⟩)).value =
      .ok accepted)
    (hnew : m accepted.id = none)
    (hothers : ∀ round ∈ rounds, ∀ step ∈ round, step.2.id ≠ accepted.id)
    (turns : List (Turn η)) (hid : ∀ turn ∈ turns, turn.context.taskId = some accepted.id)
    (hclock : ∀ turn ∈ turns, turn.startedAt ≤ turn.finishedAt)
    (hregular : ∀ turn ∈ turns, turn.startedAt.IsRegular)
    (handlers : η) :
    let s := lifetime settings c around taskType payload options turns (b, ⟨table, rounds, []⟩)
      handlers
    ∀ point ∈ s.points, ∀ r,
      ((AuditTable.get Embedded.database settings accepted.id).run point).value = .ok r →
      r.status ≠ .inProgress → ∀ started ∈ r.startedAt, ∀ finished ∈ r.finishedAt,
        started ≤ finished ∧ (started.isLeap = false →
          ∃ n : Nat, Console.Report.finishing r =
            [Console.Report.labelled "Finished" finished.shown,
              Console.Report.labelled "Duration" (Decimal.text n ++ "ms")]) := by
  intro s point hpoint r hget hstatus started hstarted finished hfinished
  have hstart : Tells accepted.id (fun r => r.startedAt = none) ⟨table, rounds, []⟩ := by
    constructor
    case table =>
      refine ⟨m, htable, fun r hr => ?_⟩
      rw [hnew] at hr
      cases hr
    case points => exact fun _ hmem => absurd hmem List.not_mem_nil
    case others => exact hothers
  obtain ⟨text, -, hsubmitted⟩ :=
    Submitter.submit_state_of_ok hc around taskType payload options _ hsubmit
  have hunstarted := hstart.submit hd taskType text around
  rw [← hsubmitted] at hunstarted
  have hwritten : ∀ turn ∈ turns, turn.startedAt.written ≤ turn.finishedAt.written :=
    fun turn hturn => Timestamp.written_le_written (hclock turn hturn) (hregular turn hturn)
  have hend : s.Tells accepted.id Record.TimesAgree :=
    (hunstarted.mono fun _ => Record.timesAgree_of_unstarted).followAll hd hid hwritten handlers
  obtain ⟨m', hm', hagree⟩ := hend.points point hpoint
  obtain ⟨own, hown, rfl⟩ := AuditTable.get_eq_ok hm' hget
  obtain ⟨start, hstart, rfl⟩ := Option.mem_map.mp hstarted
  obtain ⟨finish, hfinish, rfl⟩ := Option.mem_map.mp hfinished
  have hle := hagree own hown hstatus start hstart finish hfinish
  exact ⟨hle, Record.finishing_of_le hstarted hfinished hle⟩

/-- A task that fails and is delivered again, while someone writes about another task. In the
end the record shows the times of the second delivery. -/
theorem times_agree_of_retry :
    let settings : AuditTable.Settings := ⟨.positional, none⟩
    let one : Timestamp := ⟨1, 0, by decide⟩
    let two : Timestamp := ⟨2, 0, by decide⟩
    let three : Timestamp := ⟨3, 0, by decide⟩
    let four : Timestamp := ⟨4, 0, by decide⟩
    let c : Submitter Backlog Watched := ⟨Backlog.broker ⟨0⟩, some (trail settings), "default"⟩
    let context : Context := ⟨some "a", "default", 0, 25⟩
    let task : Task := ⟨"mail", "null".toUTF8⟩
    let turns : List (Turn Unit) :=
      [⟨fun _ _ => pure (.failed "no"), one, two, context, task⟩,
        ⟨fun _ _ => pure .succeeded, three, four, context, task⟩]
    let s := lifetime settings c ⟨"a", ⟨0, one⟩, one, one⟩ "mail" Json.null {} turns
      ({}, ⟨.fresh "", [[], [("", .started "b" one)]], []⟩) ()
    let record : Record :=
      ⟨"a", "mail", "default", "null", .completed, some "no", none, one, one, some three, some four⟩
    (∃ point ∈ s.points,
      ((AuditTable.get Embedded.database settings "a").run point).value = .ok record) ∧
      three ≤ four ∧ ∃ n : Nat, Console.Report.finishing record =
        [Console.Report.labelled "Finished" four.shown,
          Console.Report.labelled "Duration" (Decimal.text n ++ "ms")] := by
  intro settings one two three four c context task turns s record
  have hsubmit : ((c.submit ⟨"a", ⟨0, one⟩, one, one⟩ "mail" Json.null {}).run
      ({}, ⟨.fresh "", [[], [("", .started "b" one)]], []⟩)).value =
      .ok ⟨"a", "default", "mail", 25, one⟩ := by
    decide +kernel
  have hread : ∃ point ∈ s.points,
      ((AuditTable.get Embedded.database settings "a").run point).value = .ok record := by
    decide +kernel
  have hcontext : ∀ turn ∈ turns, turn.context.taskId = some "a" := by
    simp [turns, context]
  have hothers : ∀ round ∈ ([[], [("", .started "b" one)]] : List (List (String × Write))),
      ∀ step ∈ round, step.2.id ≠ "a" := by
    decide
  have hclock : ∀ turn ∈ turns, turn.startedAt ≤ turn.finishedAt := by
    have hfirst : one ≤ two := by decide
    have hsecond : three ≤ four := by decide
    simp [turns, hfirst, hsecond]
  have hregular : ∀ turn ∈ turns, turn.startedAt.IsRegular := by
    have hfirst : one.IsRegular := by decide
    have hsecond : three.IsRegular := by decide
    simp [turns, hfirst, hsecond]
  have hagree := times_agree settings rfl (Embedded.fresh_holds "") _ c rfl _ "mail" Json.null {} _
    hsubmit rfl hothers turns hcontext hclock hregular ()
  obtain ⟨point, hpoint, hget⟩ := hread
  obtain ⟨hle, hshown⟩ := hagree point hpoint record hget (by decide) three rfl four rfl
  exact ⟨⟨point, hpoint, hget⟩, hle, hshown rfl⟩

/-- The same task. While its second delivery goes on, the record shows the start of that one
and the end of the first, and a duration of less than nothing. -/
theorem times_contradict_in_retry :
    let settings : AuditTable.Settings := ⟨.positional, none⟩
    let one : Timestamp := ⟨1, 0, by decide⟩
    let two : Timestamp := ⟨2, 0, by decide⟩
    let three : Timestamp := ⟨3, 0, by decide⟩
    let four : Timestamp := ⟨4, 0, by decide⟩
    let c : Submitter Backlog Watched := ⟨Backlog.broker ⟨0⟩, some (trail settings), "default"⟩
    let context : Context := ⟨some "a", "default", 0, 25⟩
    let task : Task := ⟨"mail", "null".toUTF8⟩
    let turns : List (Turn Unit) :=
      [⟨fun _ _ => pure (.failed "no"), one, two, context, task⟩,
        ⟨fun _ _ => pure .succeeded, three, four, context, task⟩]
    let s := lifetime settings c ⟨"a", ⟨0, one⟩, one, one⟩ "mail" Json.null {} turns
      ({}, ⟨.fresh "", [], []⟩) ()
    let record : Record :=
      ⟨"a", "mail", "default", "null", .inProgress, some "no", none, one, one, some three, some two⟩
    (∃ point ∈ s.points,
      ((AuditTable.get Embedded.database settings "a").run point).value = .ok record) ∧
      ¬ three ≤ two ∧
      Console.Report.finishing record =
        ["Finished:   1970-01-01 00:00:02 UTC", "Duration:   -1000ms"] := by
  decide +kernel

end Watched

end TaskAudit
