import Mathlib
import TaskAudit.Proofs.Broker.Career

/-!
# Every task is delivered within its retries

What a career says about its attempts is said of every run: how often a task is delivered,
what its deliveries say about that, when it is dead, and after what it is delivered no more.
-/
namespace TaskAudit.Backlog

section

variable {id : String} {t : Ticket} {held : Holding} {attempts : List Attempt}

/-- All attempts failed, as often as it takes for the task to be dead or less often, or all
but the last one did. -/
theorem Career.attempts_cases (h : Career id (some t) held attempts) :
    (∃ n, n ≤ t.maxRetry.toNat + 1 ∧ AllFailed t n attempts ∧
      (held.dead ≠ [] ↔ n = t.maxRetry.toNat + 1)) ∨
    ∃ n earlier d fate, n ≤ t.maxRetry.toNat ∧ AllFailed t n earlier ∧ IsDelivery t n d ∧
      fate ≠ .failed ∧ attempts = earlier ++ [(d, fate)] ∧ held.dead = [] := by
  cases h with
  | @waiting queue e _ _ hretries hfailed =>
      have hle : e.retryCount.toNat ≤ e.maxRetry.toNat := UInt32.le_iff_toNat_le.mp hretries
      refine .inl ⟨_, ?_, hfailed, ?_⟩
      · exact Nat.le_succ_of_le hle
      · simp only [Entry.ticket, ne_eq, not_true_eq_false, false_iff]
        omega
  | @flying queue msgId e earlier _ hretries hfailed =>
      exact .inr ⟨_, earlier, _, .live, UInt32.le_iff_toNat_le.mp hretries, hfailed,
        delivery_isDelivery queue msgId e, by decide, rfl, rfl⟩
  | @done queue msgId e earlier _ hretries hfailed =>
      exact .inr ⟨_, earlier, _, .succeeded, UInt32.le_iff_toNat_le.mp hretries, hfailed,
        delivery_isDelivery queue msgId e, by decide, rfl, rfl⟩
  | @dead e _ _ hfailed =>
      refine .inl ⟨_, ?_, hfailed, ?_⟩
      · exact le_refl _
      · simp [Entry.ticket]
  | @lost e _ _ hretries hfailed =>
      have hlt : e.retryCount.toNat < e.maxRetry.toNat := UInt32.lt_iff_toNat_lt.mp hretries
      refine .inl ⟨_, ?_, hfailed, ?_⟩
      · exact Nat.succ_le_succ (Nat.le_of_lt hlt)
      · simp only [Entry.ticket, ne_eq, not_true_eq_false, false_iff]
        omega

theorem Career.isDelivery (h : Career id (some t) held attempts) {k : Nat} {p : Attempt}
    (hp : attempts[k]? = some p) : IsDelivery t k p.1 := by
  rcases h.attempts_cases with ⟨n, -, hfailed, -⟩ | ⟨n, earlier, d, fate, -, hfailed, hd, -, rfl, -⟩
  · exact (hfailed.getElem? hp).1
  · rw [List.getElem?_append] at hp
    split at hp
    · exact (hfailed.getElem? hp).1
    · obtain ⟨hk, rfl⟩ := List.getElem?_eq_some_iff.mp hp
      have hlast : k = n := by
        rw [hfailed.length, List.length_singleton] at hk
        have hge := hfailed.length
        omega
      subst hlast
      simpa [hfailed.length] using hd

theorem Career.length_le (h : Career id (some t) held attempts) :
    attempts.length ≤ t.maxRetry.toNat + 1 := by
  rcases h.attempts_cases with
    ⟨n, hn, hfailed, -⟩ | ⟨n, earlier, d, fate, hn, hfailed, -, -, rfl, -⟩
  · rw [hfailed.length]
    exact hn
  · rw [List.length_append, hfailed.length, List.length_singleton]
    omega

theorem Career.dead_iff (h : Career id (some t) held attempts) :
    held.dead ≠ [] ↔ ∃ d, attempts[t.maxRetry.toNat]? = some (d, .failed) := by
  rcases h.attempts_cases with
    ⟨n, hn, hfailed, hdead⟩ | ⟨n, earlier, d, fate, hn, hfailed, -, hfate, rfl, hdead⟩
  · rw [hdead]
    constructor
    · intro hlast
      have hlt : t.maxRetry.toNat < attempts.length := by
        rw [hfailed.length]
        omega
      refine ⟨attempts[t.maxRetry.toNat].1, ?_⟩
      have hget := List.getElem?_eq_getElem hlt
      rw [hget, ← (hfailed.getElem? hget).2]
    · rintro ⟨d, hd⟩
      have hlt := (List.getElem?_eq_some_iff.mp hd).1
      rw [hfailed.length] at hlt
      omega
  · simp only [hdead, ne_eq, not_true_eq_false, false_iff, not_exists]
    intro d' hd'
    rw [List.getElem?_append_right (by rw [hfailed.length]; exact hn), hfailed.length,
      List.getElem?_singleton] at hd'
    split at hd'
    · cases hd'
      exact hfate rfl
    · cases hd'

theorem Career.live_eq (h : Career id (some t) held attempts) :
    (attempts.filter (·.2 = .live)).map (·.1.receipt.msgId) = held.inFlight.map Prod.fst := by
  have hnone : ∀ {n : Nat} {earlier : List Attempt}, AllFailed t n earlier →
      earlier.filter (·.2 = .live) = [] := by
    intro n earlier hfailed
    exact List.filter_eq_nil_iff.mpr fun p hp => by simp [hfailed.fate hp]
  cases h with
  | waiting _ _ hfailed | dead _ hfailed | lost _ _ hfailed => rw [hnone hfailed]; rfl
  | flying _ _ hfailed | done _ _ hfailed =>
      rw [List.filter_append, hnone hfailed]
      rfl

theorem Career.last_of_ne_failed (h : Career id (some t) held attempts) {k : Nat} {p : Attempt}
    (hp : attempts[k]? = some p) (hfate : p.2 ≠ .failed) : k + 1 = attempts.length := by
  have hk := (List.getElem?_eq_some_iff.mp hp).1
  rcases h.attempts_cases with ⟨n, -, hfailed, -⟩ | ⟨n, earlier, d, fate, -, hfailed, -, -, rfl, -⟩
  · exact absurd (hfailed.getElem? hp).2 hfate
  · rw [List.length_append, List.length_singleton] at hk ⊢
    by_contra hne
    rw [List.getElem?_append_left (by omega)] at hp
    exact hfate (hfailed.getElem? hp).2

theorem Career.decided {ticket : Option Ticket} (h : Career id ticket held attempts)
    (hover : held.dead ≠ [] ∨ ∃ d, (d, .succeeded) ∈ attempts) :
    ∀ p ∈ attempts, p.2 ≠ .live := by
  intro p hp hlive
  cases h with
  | unknown => cases hp
  | waiting _ _ hfailed | dead _ hfailed | lost _ _ hfailed => simp [hfailed.fate hp] at hlive
  | flying _ _ hfailed =>
      obtain ⟨d, hd⟩ := hover.resolve_left (by simp)
      rcases List.mem_append.mp hd with hd | hd
      · cases hfailed.fate hd
      · cases List.mem_singleton.mp hd
  | done _ _ hfailed =>
      rcases List.mem_append.mp hp with hp | hp
      · simp [hfailed.fate hp] at hlive
      · simp [List.mem_singleton.mp hp] at hlive

theorem Career.eq_of_over {ticket : Option Ticket} {held' : Holding} {attempts' : List Attempt}
    (h : Career id ticket held attempts) (h' : Career id (some t) held' attempts')
    (hover : held.dead ≠ [] ∨ ∃ d, (d, .succeeded) ∈ attempts) (hbegins : attempts <+: attempts') :
    attempts' = attempts := by
  obtain ⟨t', rfl⟩ : ∃ t', ticket = some t' := by
    cases h with
    | unknown => simp at hover
    | _ => exact ⟨_, rfl⟩
  have hkeeps : ∀ {k : Nat} {p : Attempt}, attempts[k]? = some p → attempts'[k]? = some p := by
    intro k p hp
    obtain ⟨more, rfl⟩ := hbegins
    rwa [List.getElem?_append_left (List.getElem?_eq_some_iff.mp hp).1]
  refine (hbegins.eq_of_length_le ?_).symm
  rcases hover with hdead | ⟨d, hd⟩
  · -- both careers are those of one task, because the first delivery names its limit
    obtain ⟨d, hd⟩ := h.dead_iff.mp hdead
    have hlimit := (h.isDelivery hd).contextLimit
    rw [(h'.isDelivery (hkeeps hd)).contextLimit] at hlimit
    have hlast := (List.getElem?_eq_some_iff.mp hd).1
    have hmost := h'.length_le
    rw [hlimit] at hmost
    omega
  · obtain ⟨k, hk⟩ := List.getElem?_of_mem hd
    have hlast := h.last_of_ne_failed hk Fate.noConfusion
    have hlast' := h'.last_of_ne_failed (hkeeps hk) Fate.noConfusion
    omega

end

namespace Account

variable {delay : Span} {a : Account} {id : String}

theorem attemptsOf_after (delay : Span) (a : Account) (call : Call) (id : String) :
    ∃ more, (a.after delay call).attemptsOf id = call.settle (a.attemptsOf id) ++ more := by
  have hsettle : attemptsAt id (call.settle a.attempts) = call.settle (a.attemptsOf id) := by
    cases call with
    | ack receipt | fail now receipt error => exact attemptsAt_settle id _ _ _
    | _ => rfl
  refine ⟨attemptsAt id
    (((a.history.after delay call).since a.history).map fun d => (d, .live)), ?_⟩
  rw [← hsettle, attemptsOf, after, attemptsAt, List.filter_append]
  rfl

/-- Attempts that are decided stay as they are. -/
theorem run_keeps_decided (delay : Span) (calls : List Call) (a : Account) {decided : List Attempt}
    (hdecided : ∀ p ∈ decided, p.2 ≠ .live) (h : decided <+: a.attemptsOf id) :
    decided <+: (run delay calls a).attemptsOf id := by
  induction calls generalizing a with
  | nil => exact h
  | cons call calls ih =>
      refine ih (a.after delay call) ?_
      obtain ⟨rest, hrest⟩ := h
      obtain ⟨more, hmore⟩ := attemptsOf_after delay a call id
      have hsettle : call.settle (decided ++ rest) = decided ++ call.settle rest := by
        cases call with
        | ack receipt | fail now receipt error =>
            simp only [Call.settle, settle_append, settle_of_decided hdecided]
        | _ => rfl
      rw [hmore, ← hrest, hsettle, List.append_assoc]
      exact List.prefix_append decided _

end Account

/-- A failed task that waits again was counted once more than its last delivery. -/
theorem fail_counts {delay : Span} {now : Now} {receipt : Receipt} {error : String} {s : Backlog}
    {w : Waiting} (hw : w ∈ ((fail delay now receipt error).run s).state.waiting) :
    w ∈ s.waiting ∨ ∃ e, (receipt.msgId, e) ∈ s.inFlight ∧ w.entry.ticket = e.ticket ∧
      w.entry.retryCount.toNat = e.retryCount.toNat + 1 := by
  rcases fail_cases delay now receipt error s with
    ⟨-, hrun⟩ | ⟨e, before, rest, hflight, -, ⟨-, hrun⟩ | ⟨-, -, hrun⟩ |
      ⟨readyAt, hretries, -, hrun⟩⟩
  · exact .inl (by rwa [hrun] at hw)
  · exact .inl (by rwa [hrun] at hw)
  · exact .inl (by rwa [hrun] at hw)
  · rw [hrun] at hw
    rcases List.mem_append.mp hw with hw | hw
    · exact .inl hw
    · obtain rfl := List.mem_singleton.mp hw
      refine .inr ⟨e, ?_, rfl, toNat_add_one hretries⟩
      rw [hflight]
      exact List.mem_append_cons_self

/-- Whatever is called, with whatever receipts: the attempts are the deliveries, and those that
nobody has reported are in flight. The task with `m` retries is delivered `m + 1` times at
most, and every delivery of it says how often the task was delivered before. The task is dead
if and only if the delivery with number `m + 1` was reported as failed while it was in flight.
A task that is dead, or one with a delivery in flight that was acknowledged, is delivered no
more. Counting the retries never overflows. -/
theorem Account.delivered_within_retries (delay : Span) (calls : List Call)
    (hnew : (calls.filterMap Call.newId?).Nodup) :
    let a := run delay calls {}
    let s := a.history.backlog
    a.attempts.map Prod.fst = a.history.delivered ∧
      (∀ p ∈ a.history.accepted,
        let attempts := a.attemptsOf p.2.taskId
        (attempts.filter (·.2 = .live)).map (·.1.receipt.msgId) =
            (s.inFlight.filter (·.2.taskId = p.2.taskId)).map Prod.fst ∧
          (∀ (k : Nat) attempt, attempts[k]? = some attempt → IsDelivery p.2 k attempt.1) ∧
          attempts.length ≤ p.2.maxRetry.toNat + 1 ∧
          (p.2.taskId ∈ s.dead.map Entry.taskId ↔
            ∃ d, attempts[p.2.maxRetry.toNat]? = some (d, .failed)) ∧
          ∀ before later, calls = before ++ later →
            let b := run delay before {}
            (p.2.taskId ∈ b.history.backlog.dead.map Entry.taskId ∨
              ∃ d, (d, .succeeded) ∈ b.attemptsOf p.2.taskId) →
            attempts = b.attemptsOf p.2.taskId) ∧
      ∀ now receipt error, ∀ w ∈ ((fail delay now receipt error).run s).state.waiting,
        w ∈ s.waiting ∨ ∃ e, (receipt.msgId, e) ∈ s.inFlight ∧ w.entry.ticket = e.ticket ∧
          w.entry.retryCount.toNat = e.retryCount.toNat + 1 := by
  intro a s
  have hkept : Kept a := Kept.empty.run hnew
  have hids : a.history.acceptedIds.Nodup := by
    rw [show a.history = _ from run_history delay calls {}]
    exact History.nodup_acceptedIds hnew
  -- being dead, as the broker and as a career say it
  have hdead : ∀ (s : Backlog) id, id ∈ s.dead.map Entry.taskId ↔ (s.holding id).dead ≠ [] := by
    intro s id
    simp [holding, List.filter_eq_nil_iff]
  refine ⟨run_attempts delay calls {} rfl, ?_, fun _ _ _ _ hw => fail_counts hw⟩
  intro p hp attempts
  have hcareer := hkept.careers p.2.taskId
  rw [History.ticket?_of_mem hids hp] at hcareer
  refine ⟨hcareer.live_eq, fun _ _ hk => hcareer.isDelivery hk, hcareer.length_le,
    (hdead s _).trans hcareer.dead_iff, ?_⟩
  rintro before later rfl b hover
  have hbefore : Kept b := by
    refine Kept.empty.run (hnew.sublist ?_)
    rw [List.filterMap_append]
    exact List.sublist_append_left _ _
  rw [hdead] at hover
  have hdecided := (hbefore.careers p.2.taskId).decided hover
  have hbegins := run_keeps_decided delay later b hdecided (List.prefix_refl _)
  have hrun : a = run delay later b := run_append delay before later {}
  rw [← hrun] at hbegins
  exact (hbefore.careers p.2.taskId).eq_of_over hcareer hover hbegins

/-- One task that is acknowledged when it is tried again, one that is dead, and reports with a
receipt that was used and with one that was made up. -/
theorem Account.delivered_within_retries_reports :
    let now : Now := ⟨0, Timestamp.epoch⟩
    let task : Task := ⟨"mail", "1".toUTF8⟩
    let receipt (msgId : Int) : Receipt := ⟨"q", msgId, 0, 1⟩
    let calls : List Call := [.enqueue "a" now task "q" 1, .enqueue "b" now task "q" 1,
      .dequeue now ["q"], .fail now (receipt 1) "no", .fail now (receipt 1) "no",
      .dequeue now ["q"], .fail now (receipt 2) "no", .dequeue now ["q"], .ack (receipt 9),
      .ack (receipt 3), .dequeue now ["q"], .fail now (receipt 4) "no", .ack (receipt 4),
      .dequeue now ["q"]]
    let a := run ⟨0⟩ calls {}
    a.attempts.map Prod.fst = a.history.delivered ∧
      (a.attemptsOf "a").map Prod.snd = [.failed, .succeeded] ∧
      (a.attemptsOf "b").map Prod.snd = [.failed, .failed] ∧
      a.history.backlog.dead.map Entry.taskId = ["b"] := by
  intro now task receipt calls a
  exact ⟨(delivered_within_retries ⟨0⟩ calls (by decide)).1, by decide, by decide, by decide⟩

end TaskAudit.Backlog
