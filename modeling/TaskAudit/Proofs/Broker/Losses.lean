import TaskAudit.Proofs.Broker.Conservation

/-!
# Which reports of a failure lose a task

A report of a failed delivery takes the delivery out of those in flight, works out when its
task is ready again, and only then puts the task back. If no clock can show that moment, the
report is aborted in between, and the task is nowhere. These are the only reports that lose a
task, and each of them loses that one.
-/
namespace TaskAudit.Backlog

/-- The tasks in the hands of the broker: those that wait, are in flight or are dead. -/
def held (s : Backlog) : List Ticket :=
  (s.waiting.map Waiting.entry ++ (s.inFlight.map Prod.snd ++ s.dead)).map Entry.ticket

theorem ticket_mem_held {s : Backlog} {f : Int × Entry} (h : f ∈ s.inFlight) :
    f.2.ticket ∈ s.held := by
  unfold held
  apply List.mem_map_of_mem
  apply List.mem_append_right
  apply List.mem_append_left
  exact List.mem_map_of_mem h

theorem mem_inFlight {s : Backlog} {msgId : Int} {entry : Entry}
    (h : s.inFlight? msgId = some entry) : (msgId, entry) ∈ s.inFlight := by
  unfold inFlight? at h
  obtain ⟨f, hfind, rfl⟩ := Option.map_eq_some_iff.mp h
  have hid := List.find?_some hfind
  rw [decide_eq_true_iff] at hid
  rw [← hid]
  exact List.mem_of_find?_eq_some hfind

theorem after?_eq_none_iff {now : Moment} {delay : Span} :
    after? now delay = none ↔ endOfTime ≤ now + delay.nanos := by
  unfold after?
  split_ifs with h
  · simpa using h
  · simpa using h

/-- What a report loses of the delivery it is about. -/
def lostBy (found : Option Entry) : Verdict → List Ticket
  | .settled | .refused _ => []
  | .aborted => (found.map Entry.ticket).toList

section

variable {delay : Span} {now : Now} {receipt : Receipt} {error : String} {s : Backlog}

theorem fail_settled_or_aborted :
    ((fail delay now receipt error).run s).value = .settled ∨
      ((fail delay now receipt error).run s).value = .aborted := by
  rcases fail_cases delay now receipt error s with
    ⟨-, hrun⟩ | ⟨entry, before, rest, -, -, ⟨-, hrun⟩ | ⟨-, -, hrun⟩ | ⟨readyAt, -, -, hrun⟩⟩
  all_goals rw [hrun]
  · exact .inl rfl
  · exact .inl rfl
  · exact .inr rfl
  · exact .inl rfl

/-- A report is aborted exactly if the delivery is in flight, its task may be tried again, and
no clock can show the moment of that. -/
theorem fail_aborted_iff :
    ((fail delay now receipt error).run s).value = .aborted ↔
      ∃ entry, s.inFlight? receipt.msgId = some entry ∧ entry.retryCount < entry.maxRetry ∧
        endOfTime ≤ now.moment + delay.nanos := by
  rw [← after?_eq_none_iff]
  rcases fail_cases delay now receipt error s with
    ⟨hunknown, hrun⟩ | ⟨entry, before, rest, hflight, hbefore, hcases⟩
  · rw [hrun, inFlight?_of_notMem hunknown]
    simp
  · rw [inFlight?_of_split hflight hbefore]
    rcases hcases with
      ⟨hdead, hrun⟩ | ⟨hretries, hready, hrun⟩ | ⟨readyAt, hretries, hready, hrun⟩
    · have hnot : ¬ entry.retryCount < entry.maxRetry := UInt32.not_lt.mpr hdead
      rw [hrun]
      simp [hnot]
    · rw [hrun]
      simp [hretries, hready]
    · rw [hrun]
      simp [hready]

/-- A report loses nothing but the task of the delivery it is about, and this only if it is
aborted. -/
theorem held_fail :
    s.held.Perm (((fail delay now receipt error).run s).state.held ++
      lostBy (s.inFlight? receipt.msgId) ((fail delay now receipt error).run s).value) := by
  rcases fail_cases delay now receipt error s with
    ⟨-, hrun⟩ | ⟨entry, before, rest, hflight, hbefore, hcases⟩
  · rw [hrun, lostBy, List.append_nil]
  · rw [inFlight?_of_split hflight hbefore, List.perm_iff_count]
    intro t
    rcases hcases with ⟨-, hrun⟩ | ⟨-, -, hrun⟩ | ⟨readyAt, -, -, hrun⟩
    · rw [hrun]
      simp only [held, hflight, lostBy, List.map_append, List.map_cons, List.map_nil,
        List.count_append, List.count_cons, List.count_nil]
      omega
    · rw [hrun]
      simp only [held, hflight, lostBy, Option.map_some, Option.toList_some,
        List.map_append, List.map_cons, List.count_append, List.count_cons, List.count_nil]
      omega
    · rw [hrun]
      simp only [held, hflight, lostBy, retried_ticket, List.map_append, List.map_cons,
        List.map_nil, List.count_append, List.count_cons, List.count_nil]
      omega

end

namespace History

variable {delay : Span} {h : History}

theorem count_held_after (call : Call) (id : String) :
    ((h.after delay call).backlog.held.map Ticket.taskId).count id ≤
      (h.backlog.held.map Ticket.taskId).count id + call.newId?.toList.count id := by
  have hmove := after_moves delay h call
  generalize h.after delay call = h' at hmove ⊢
  cases hmove with
  | refused _ | idle | ackUnknown _ | failUnknown _ | closed => exact Nat.le_add_right _ _
  | accepted _ =>
      simp only [held, Call.newId?, Entry.ticket, Option.toList_some, List.map_append,
        List.map_cons, List.map_nil, List.count_append, List.count_cons, List.count_nil]
      omega
  | delivered _ _ _ hwaiting =>
      simp only [held, hwaiting, List.map_append, List.map_cons, List.map_nil,
        List.count_append, List.count_cons, List.count_nil]
      omega
  | acked hflight | buried hflight _ | lost hflight _ _ | retried hflight _ _ =>
      simp only [held, hflight, retried_ticket, List.map_append, List.map_cons, List.map_nil,
        List.count_append, List.count_cons, List.count_nil]
      omega

/-- If every task is submitted under an id of its own, the broker holds no task twice. -/
theorem nodup_held {calls : List Call}
    (hnew : (h.backlog.held.map Ticket.taskId ++ calls.filterMap Call.newId?).Nodup) :
    ((run delay calls h).backlog.held.map Ticket.taskId).Nodup := by
  induction calls generalizing h with
  | nil => simpa using hnew
  | cons call calls ih =>
      apply ih
      rw [List.nodup_iff_count_le_one] at hnew ⊢
      intro id
      have hid := hnew id
      have hcall : ((h.after delay call).backlog.held.map Ticket.taskId).count id ≤ _ :=
        count_held_after call id
      have hcons : (call :: calls).filterMap Call.newId? =
          call.newId?.toList ++ calls.filterMap Call.newId? := by
        cases hid? : call.newId? <;> simp [hid?]
      rw [hcons] at hid
      simp only [List.count_append] at hid ⊢
      omega

/-- Whatever was called before, with aborted reports among it, whatever the delay and the
receipt: a report of a failure leaves every task that was in flight in the hands of the broker
if it is settled, and only then. It is aborted exactly if the delivery is in flight, its task
may be tried again, and no clock can show the moment of that. Then this one task is lost, and
all others stay. -/
theorem failure_loses_iff_aborted (delay : Span) (calls : List Call)
    (hnew : (calls.filterMap Call.newId?).Nodup) (now : Now) (receipt : Receipt)
    (error : String) :
    let s := (run delay calls {}).backlog
    let e := (fail delay now receipt error).run s
    ((∀ f ∈ s.inFlight, f.2.ticket ∈ e.state.held) ↔ e.value = .settled) ∧
      (e.value = .aborted ↔ ∃ entry, s.inFlight? receipt.msgId = some entry ∧
        entry.retryCount < entry.maxRetry ∧ endOfTime ≤ now.moment + delay.nanos) ∧
      s.held.Perm (e.state.held ++ lostBy (s.inFlight? receipt.msgId) e.value) := by
  intro s e
  have hperm : s.held.Perm (e.state.held ++ lostBy (s.inFlight? receipt.msgId) e.value) := held_fail
  have haborted : e.value = .aborted ↔ _ := fail_aborted_iff
  refine ⟨⟨?_, ?_⟩, haborted, hperm⟩
  · intro hkept
    rcases (fail_settled_or_aborted : e.value = _ ∨ _) with hvalue | hlost
    · exact hvalue
    obtain ⟨entry, hflight, -, -⟩ := haborted.mp hlost
    -- the lost task would be held a second time
    have hagain := hkept _ (mem_inFlight hflight)
    have hnodup : s.held.Nodup := (nodup_held (by simpa [held] using hnew)).of_map
    rw [hperm.nodup_iff, hlost, hflight, List.nodup_append] at hnodup
    exact absurd rfl (hnodup.2.2 _ hagain _ (List.mem_singleton_self _))
  · intro hvalue f hf
    rw [hvalue, lostBy, List.append_nil] at hperm
    exact hperm.mem_iff.mp (ticket_mem_held hf)

/-- After a report that was aborted, another one settles the task it is about. -/
theorem failure_loses_iff_aborted_again :
    let now : Now := ⟨0, Timestamp.epoch⟩
    let task : Task := ⟨"mail", "1".toUTF8⟩
    let delay : Span := .seconds 18446744073709551615
    let calls : List Call := [.enqueue "a" now task "q" 3, .enqueue "b" now task "q" 0,
      .dequeue now ["q"], .fail now ⟨"q", 1, 0, 3⟩ "no", .dequeue now ["q"]]
    let s := (run delay calls {}).backlog
    let e := (fail delay now ⟨"q", 2, 0, 0⟩ "no").run s
    (calls.filterMap Call.newId?).Nodup ∧
      s.inFlight.map (fun f => f.2.taskId) = ["b"] ∧
      ∀ f ∈ s.inFlight, f.2.ticket ∈ e.state.held := by
  intro now task delay calls s e
  have hnew : (calls.filterMap Call.newId?).Nodup := by decide
  have hsettled : e.value = .settled := by decide
  exact ⟨hnew, by decide,
    (failure_loses_iff_aborted delay calls hnew now ⟨"q", 2, 0, 0⟩ "no").1.mpr hsettled⟩

/-- A task in flight whose failure is reported under a delay beyond all clocks is neither in
flight nor waiting nor dead afterwards. -/
theorem aborted_failure_loses_task :
    let now : Now := ⟨0, Timestamp.epoch⟩
    let delay : Span := .seconds 18446744073709551615
    let s := (run delay [.enqueue "a" now ⟨"mail", "1".toUTF8⟩ "q" 3, .dequeue now ["q"]] {}).backlog
    let e := (fail delay now ⟨"q", 1, 0, 3⟩ "boom").run s
    s.inFlight.map (fun f => f.2.taskId) = ["a"] ∧ e.value = .aborted ∧
      ¬ ∀ f ∈ s.inFlight, f.2.ticket ∈ e.state.held :=
  ⟨by decide, rfl, by decide⟩

end History

end TaskAudit.Backlog
