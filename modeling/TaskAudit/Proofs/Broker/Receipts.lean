import Mathlib
import TaskAudit.Proofs.Broker.Conservation

/-!
# A receipt is used once

Deliveries are numbered from one in the order in which they are handed out, and a number
is never used again. What is in flight under a number is the task of the delivery with
that number, so a report reaches this delivery or nothing. A report takes its number out
of flight and no call brings it back. Every further report with the number then finds
nothing, whatever became of the task.
-/
namespace TaskAudit.Backlog

def Call.reported? : Call → Option Int
  | ack receipt | fail _ receipt _ => some receipt.msgId
  | _ => none

namespace History

def numbers (h : History) : List Int := h.delivered.map (·.receipt.msgId)

/-- The deliveries are numbered from one, and what is in flight was delivered under its
number. -/
structure IsNumbered (h : History) : Prop where
  numbers : h.numbers = (List.range h.backlog.issued).map fun n : Nat => (n : Int) + 1
  delivered : ∀ f ∈ h.backlog.inFlight, ∃ queue, delivery queue f.1 f.2 ∈ h.delivered
  apart : (h.backlog.inFlight.map Prod.fst).Nodup

theorem empty_isNumbered : IsNumbered {} := ⟨rfl, nofun, List.nodup_nil⟩

namespace IsNumbered

variable {h h' : History} {delay : Span} {call : Call} {msgId : Int}

theorem nodup (hn : h.IsNumbered) : h.numbers.Nodup := by
  have hinjective : Function.Injective fun n : Nat => (n : Int) + 1 := by
    intro m n hmn
    simp only at hmn
    omega
  rw [hn.numbers]
  exact List.nodup_range.map hinjective

theorem le_issued (hn : h.IsNumbered) (hmem : msgId ∈ h.numbers) : msgId ≤ h.backlog.issued := by
  rw [hn.numbers] at hmem
  obtain ⟨n, hrange, rfl⟩ := List.mem_map.mp hmem
  have hlt := List.mem_range.mp hrange
  omega

theorem mem_numbers (hn : h.IsNumbered) (hflight : msgId ∈ h.backlog.inFlight.map Prod.fst) :
    msgId ∈ h.numbers := by
  obtain ⟨f, hf, rfl⟩ := List.mem_map.mp hflight
  obtain ⟨queue, hdelivered⟩ := hn.delivered f hf
  exact List.mem_map.mpr ⟨delivery queue f.1 f.2, hdelivered, rfl⟩

theorem next_notMem (hn : h.IsNumbered) :
    (h.backlog.issued : Int) + 1 ∉ h.backlog.inFlight.map Prod.fst := by
  intro hflight
  have hle := hn.le_issued (hn.mem_numbers hflight)
  omega

theorem of_sublist (hn : h.IsNumbered) (hdelivered : h'.delivered = h.delivered)
    (hissued : h'.backlog.issued = h.backlog.issued)
    (hflight : h'.backlog.inFlight.Sublist h.backlog.inFlight) : h'.IsNumbered where
  numbers := by
    have hsame := hn.numbers
    unfold History.numbers at hsame ⊢
    rw [hdelivered, hissued, hsame]
  delivered := by
    intro f hf
    rw [hdelivered]
    exact hn.delivered f (hflight.mem hf)
  apart := hn.apart.sublist (hflight.map Prod.fst)

theorem deliver (hn : h.IsNumbered) (queue : String) (entry : Entry) (ws : List Waiting) :
    IsNumbered { h with
      backlog.waiting := ws
      backlog.inFlight := h.backlog.inFlight ++ [((h.backlog.issued : Int) + 1, entry)]
      backlog.issued := h.backlog.issued + 1
      delivered := h.delivered ++ [delivery queue (h.backlog.issued + 1) entry] } := by
  constructor
  case numbers =>
    have hsame := hn.numbers
    unfold History.numbers at hsame ⊢
    rw [List.map_append, hsame, List.range_succ, List.map_append]
    rfl
  case delivered =>
    intro f hf
    rcases List.mem_append.mp hf with hf | hf
    · obtain ⟨own, hdelivered⟩ := hn.delivered f hf
      exact ⟨own, List.mem_append_left _ hdelivered⟩
    · obtain rfl := List.mem_singleton.mp hf
      exact ⟨queue, List.mem_append_right _ (List.mem_singleton_self _)⟩
  case apart =>
    rw [List.map_append, List.map_singleton]
    refine hn.apart.append (List.nodup_singleton _) ?_
    rw [List.disjoint_singleton]
    exact hn.next_notMem

theorem moves (hn : h.IsNumbered) (hmove : Moves delay h call h') : h'.IsNumbered := by
  cases hmove with
  | refused _ | idle | ackUnknown _ | failUnknown _ => exact hn
  | accepted _ | closed => exact hn.of_sublist rfl rfl (List.Sublist.refl _)
  | @delivered _ _ queue entry before rest _ _ _ _ => exact hn.deliver queue entry (before ++ rest)
  | acked hflight | buried hflight _ | lost hflight _ _ | retried hflight _ _ =>
      refine hn.of_sublist rfl rfl ?_
      rw [hflight]
      exact around_sublist _ _ _

theorem run (hn : h.IsNumbered) (calls : List Call) : (run delay calls h).IsNumbered := by
  induction calls generalizing h with
  | nil => exact hn
  | cons call calls ih =>
      have hnext := hn.moves (after_moves delay h call)
      exact ih hnext

end IsNumbered

/-- Was a delivery with the number handed out that is in flight no more? -/
structure IsSpent (h : History) (msgId : Int) : Prop where
  handedOut : msgId ∈ h.numbers
  landed : msgId ∉ h.backlog.inFlight.map Prod.fst

namespace IsSpent

variable {h h' : History} {delay : Span} {call : Call} {msgId : Int}

/-- A number that is spent is not used again. -/
theorem moves (hs : h.IsSpent msgId) (hn : h.IsNumbered) (hmove : Moves delay h call h') :
    h'.IsSpent msgId := by
  cases hmove with
  | refused _ | idle | ackUnknown _ | failUnknown _ => exact hs
  | accepted _ | closed => exact ⟨hs.handedOut, hs.landed⟩
  | delivered _ _ _ _ =>
      have hle := hn.le_issued hs.handedOut
      constructor
      case handedOut =>
        unfold numbers
        rw [List.map_append]
        exact List.mem_append_left _ hs.handedOut
      case landed =>
        rw [List.map_append, List.mem_append, not_or]
        refine ⟨hs.landed, ?_⟩
        simp only [List.map_singleton, List.mem_singleton]
        omega
  | acked hflight | buried hflight _ | lost hflight _ _ | retried hflight _ _ =>
      refine ⟨hs.handedOut, fun hmem => hs.landed ?_⟩
      rw [hflight]
      exact ((around_sublist _ _ _).map Prod.fst).mem hmem

theorem run (hs : h.IsSpent msgId) (hn : h.IsNumbered) (calls : List Call) :
    (run delay calls h).IsSpent msgId := by
  induction calls generalizing h with
  | nil => exact hs
  | cons call calls ih =>
      have hmove := after_moves delay h call
      exact ih (hs.moves hn hmove) (hn.moves hmove)

theorem of_split {before rest : List (Int × Entry)} {entry : Entry} (hn : h.IsNumbered)
    (hflight : h.backlog.inFlight = before ++ (msgId, entry) :: rest) :
    msgId ∉ (before ++ rest).map Prod.fst := by
  have hapart := hn.apart
  rw [hflight, List.map_append, List.map_cons, List.nodup_middle] at hapart
  rw [List.map_append]
  exact (List.nodup_cons.mp hapart).1

/-- The first report about a delivery, whatever it says, spends its number. -/
theorem of_report (hn : h.IsNumbered) (hnumber : msgId ∈ h.numbers)
    (hreport : call.reported? = some msgId) (hmove : Moves delay h call h') :
    h'.IsSpent msgId := by
  cases hmove with
  | refused _ | accepted _ | idle | delivered _ _ _ _ | closed => cases hreport
  | ackUnknown hunknown | failUnknown hunknown =>
      obtain rfl := Option.some.inj hreport
      exact ⟨hnumber, hunknown⟩
  | acked hflight | buried hflight _ | lost hflight _ _ | retried hflight _ _ =>
      obtain rfl := Option.some.inj hreport
      exact ⟨hnumber, of_split hn hflight⟩

theorem ack_run (hs : h.IsSpent msgId) {receipt : Receipt} (hid : receipt.msgId = msgId) :
    (Backlog.ack receipt).run h.backlog =
      ⟨.ok (), h.backlog, [.notice (.unknownAck receipt.msgId)]⟩ := by
  rcases ack_cases receipt h.backlog with ⟨-, hrun⟩ | ⟨_, _, _, hflight, -⟩
  · exact hrun
  · have hmem := mem_of_split hflight
    rw [hid] at hmem
    exact absurd hmem hs.landed

theorem fail_run (hs : h.IsSpent msgId) {receipt : Receipt} (hid : receipt.msgId = msgId)
    (delay : Span) (now : Now) (error : String) :
    (Backlog.fail delay now receipt error).run h.backlog =
      ⟨.settled, h.backlog, [.notice (.unknownFail receipt.msgId)]⟩ := by
  rcases fail_cases delay now receipt error h.backlog with ⟨-, hrun⟩ | ⟨_, _, _, hflight, -⟩
  · exact hrun
  · have hmem := mem_of_split hflight
    rw [hid] at hmem
    exact absurd hmem hs.landed

end IsSpent

theorem run_append (delay : Span) (before later : List Call) (h : History) :
    run delay (before ++ later) h = run delay later (run delay before h) :=
  List.foldl_append

/-- Whatever is called, with whatever receipts: no two deliveries have the same number, and
no two of those in flight. What is in flight under a number was delivered under it, and the
number is none above those issued. After the first report about a delivery, whatever was
called since, another one with its number is told to be unknown and changes nothing. -/
theorem receipts_used_once (delay : Span) (calls : List Call) :
    let h := run delay calls {}
    h.numbers.Nodup ∧
      (h.backlog.inFlight.map Prod.fst).Nodup ∧
      (∀ f ∈ h.backlog.inFlight,
        (∃ queue, delivery queue f.1 f.2 ∈ h.delivered) ∧ f.1 ≤ h.backlog.issued) ∧
      ∀ before report later, calls = before ++ report :: later →
        ∀ d ∈ (run delay before {}).delivered, report.reported? = some d.receipt.msgId →
          ∀ receipt : Receipt, receipt.msgId = d.receipt.msgId →
            (Backlog.ack receipt).run h.backlog =
                ⟨.ok (), h.backlog, [.notice (.unknownAck receipt.msgId)]⟩ ∧
              ∀ now error, (Backlog.fail delay now receipt error).run h.backlog =
                ⟨.settled, h.backlog, [.notice (.unknownFail receipt.msgId)]⟩ := by
  intro h
  have hn : h.IsNumbered := empty_isNumbered.run calls
  refine ⟨hn.nodup, hn.apart, ?_, ?_⟩
  · intro f hf
    have hflight : f.1 ∈ h.backlog.inFlight.map Prod.fst := List.mem_map.mpr ⟨f, hf, rfl⟩
    exact ⟨hn.delivered f hf, hn.le_issued (hn.mem_numbers hflight)⟩
  · rintro before report later hcalls d hd hreport receipt hid
    have hbefore : (run delay before {}).IsNumbered := empty_isNumbered.run before
    have hnumber : d.receipt.msgId ∈ (run delay before {}).numbers :=
      List.mem_map.mpr ⟨d, hd, rfl⟩
    have hmove := after_moves delay (run delay before {}) report
    have hspent : (run delay later ((run delay before {}).after delay report)).IsSpent
        d.receipt.msgId :=
      (IsSpent.of_report hbefore hnumber hreport hmove).run (hbefore.moves hmove) later
    have hrun : h = run delay later ((run delay before {}).after delay report) := by
      have hsplit := run_append delay before (report :: later) {}
      rw [run_cons, ← hcalls] at hsplit
      exact hsplit
    rw [← hrun] at hspent
    exact ⟨hspent.ack_run hid, hspent.fail_run hid delay⟩

/-- A task that failed and was delivered again: the receipt of the first delivery says nothing
about the second one, which stays in flight. -/
theorem receipts_used_once_redelivered :
    let now : Now := ⟨0, Timestamp.epoch⟩
    let receipt : Receipt := ⟨"q", 1, 0, 5⟩
    let before : List Call := [.enqueue "a" now ⟨"mail", "1".toUTF8⟩ "q" 5, .dequeue now ["q"]]
    let h := run ⟨0⟩ (before ++ [.fail now receipt "no", .dequeue now ["q"]]) {}
    h.backlog.inFlight.map Prod.fst = [2] ∧
      (Backlog.ack receipt).run h.backlog = ⟨.ok (), h.backlog, [.notice (.unknownAck 1)]⟩ := by
  intro now receipt before h
  obtain ⟨-, -, -, hused⟩ := receipts_used_once ⟨0⟩
    (before ++ [.fail now receipt "no", .dequeue now ["q"]])
  have hagain := hused before (.fail now receipt "no") [.dequeue now ["q"]] rfl
    (delivery "q" 1 ⟨"a", ⟨"mail", "1".toUTF8⟩, 5, 0, 0⟩) (by decide) rfl receipt rfl
  exact ⟨by decide, hagain.1⟩

end History

end TaskAudit.Backlog
