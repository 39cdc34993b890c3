import Mathlib
import TaskAudit.Proofs.Time.LeapSeconds
import TaskAudit.Record

/-!
# The times of a record

A record has four times, two of which may be missing. It is written with the times that their
texts name, and so it is written as it is if and only if all of them are regular.
-/
namespace TaskAudit

/-- Has every time of the record a property? -/
structure Record.EachTime (P : Timestamp → Prop) (r : Record) : Prop where
  createdAt : P r.createdAt
  enqueuedAt : P r.enqueuedAt
  startedAt : ∀ t ∈ r.startedAt, P t
  finishedAt : ∀ t ∈ r.finishedAt, P t

/-- Does the record have leap seconds only at the ends of minutes? -/
abbrev Record.IsRegular (r : Record) : Prop := r.EachTime Timestamp.IsRegular

/-- The record with the times that its texts name. -/
def Record.written (r : Record) : Record :=
  { r with
    createdAt := r.createdAt.written
    enqueuedAt := r.enqueuedAt.written
    startedAt := r.startedAt.map Timestamp.written
    finishedAt := r.finishedAt.map Timestamp.written }

theorem Timestamp.map_written_eq_self_iff {o : Option Timestamp} :
    o.map written = o ↔ ∀ t ∈ o, t.IsRegular := by
  cases o with
  | none => simp
  | some t => simp [written_eq_self_iff]

namespace Record

variable {r : Record}

theorem written_eq_self_iff : r.written = r ↔ r.IsRegular := by
  constructor
  · intro h
    constructor
    · exact Timestamp.written_eq_self_iff.mp (congrArg createdAt h)
    · exact Timestamp.written_eq_self_iff.mp (congrArg enqueuedAt h)
    · exact Timestamp.map_written_eq_self_iff.mp (congrArg startedAt h)
    · exact Timestamp.map_written_eq_self_iff.mp (congrArg finishedAt h)
  · intro h
    rw [written, Timestamp.written_of_regular h.createdAt, Timestamp.written_of_regular h.enqueuedAt,
      Timestamp.map_written_eq_self_iff.mpr h.startedAt,
      Timestamp.map_written_eq_self_iff.mpr h.finishedAt]

theorem written_of_regular (h : r.IsRegular) : r.written = r := written_eq_self_iff.mpr h

theorem EachTime.written {P Q : Timestamp → Prop} (h : ∀ t : Timestamp, P t → Q t.written)
    (hr : r.EachTime P) : r.written.EachTime Q := by
  constructor
  · exact h _ hr.createdAt
  · exact h _ hr.enqueuedAt
  · intro t ht
    obtain ⟨t', ht', rfl⟩ := Option.mem_map.mp ht
    exact h t' (hr.startedAt t' ht')
  · intro t ht
    obtain ⟨t', ht', rfl⟩ := Option.mem_map.mp ht
    exact h t' (hr.finishedAt t' ht')

theorem written_isRegular (r : Record) : r.written.IsRegular := by
  have htimes : r.EachTime fun _ => True := ⟨trivial, trivial, by simp, by simp⟩
  exact htimes.written fun t _ => t.written_isRegular

end Record

end TaskAudit
