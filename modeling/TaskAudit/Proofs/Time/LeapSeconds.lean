import Mathlib
import TaskAudit.Time.Rfc3339

/-!
# Leap seconds inside a minute

The texts of a timestamp number a leap second like the second that follows it. At the end of
a minute that number is 60 and stands for the leap second alone. Inside a minute it stands for
the next second: both have the same texts, so no reader can tell which of them was written.
-/
namespace TaskAudit.Timestamp

open Time

variable {t : Timestamp}

/-- The second after a leap second inside a minute is never too late for a timestamp. -/
theorem isMoment_next (h : ¬ t.IsRegular) :
    IsMoment (t.seconds + 1) (t.nanos - nanosPerSecond) := by
  obtain ⟨hearliest, hlatest, hnanos⟩ := t.valid
  unfold IsRegular at h
  unfold IsMoment
  unfold earliest latest nanosPerSecond at *
  omega

/-- The regular timestamp that the texts of `t` name. -/
def written (t : Timestamp) : Timestamp :=
  if h : t.IsRegular then t else ⟨t.seconds + 1, t.nanos - nanosPerSecond, isMoment_next h⟩

theorem written_of_regular (h : t.IsRegular) : t.written = t := dif_pos h

theorem written_of_irregular (h : ¬ t.IsRegular) :
    t.written.seconds = t.seconds + 1 ∧ t.written.nanos + nanosPerSecond = t.nanos := by
  have hnext : t.written = ⟨t.seconds + 1, t.nanos - nanosPerSecond, isMoment_next h⟩ := dif_neg h
  rw [hnext]
  exact ⟨rfl, Nat.sub_add_cancel (not_lt.mp (not_or.mp h).1)⟩

theorem written_isRegular (t : Timestamp) : t.written.IsRegular := by
  by_cases h : t.IsRegular
  · rwa [written_of_regular h]
  · obtain ⟨-, hnanos⟩ := written_of_irregular h
    have hlt := t.valid.2.2
    left
    omega

theorem written_eq_self_iff : t.written = t ↔ t.IsRegular := by
  constructor
  · intro h
    rw [← h]
    exact t.written_isRegular
  · exact written_of_regular

/-- The leap second and the second that follows it lie in the same minute. -/
theorem written_parts (t : Timestamp) : t.written.date = t.date ∧ t.written.hour = t.hour ∧
    t.written.minute = t.minute ∧ t.written.second = t.second ∧
      t.written.fraction = t.fraction := by
  by_cases h : t.IsRegular
  · rw [written_of_regular h]
    exact ⟨rfl, rfl, rfl, rfl, rfl⟩
  · obtain ⟨hseconds, hnanos⟩ := written_of_irregular h
    have hlt := t.valid.2.2
    unfold IsRegular at h
    unfold nanosPerSecond at *
    have hday : (t.seconds + 1) / 86400 = t.seconds / 86400 := by omega
    unfold date hour minute second fraction secondOfDay nanosPerSecond
    rw [hseconds, hday]
    refine ⟨rfl, ?_, ?_, ?_, ?_⟩ <;> omega

@[simp]
theorem stored_written (t : Timestamp) : t.written.stored = t.stored := by
  obtain ⟨hdate, hhour, hminute, hsecond, hfraction⟩ := t.written_parts
  simp only [stored, dateText, clockText, hdate, hhour, hminute, hsecond, hfraction]

@[simp]
theorem brief_written (t : Timestamp) : t.written.brief = t.brief := by
  obtain ⟨hdate, hhour, hminute, hsecond, hfraction⟩ := t.written_parts
  simp only [brief, dateText, clockText, fractionText, hdate, hhour, hminute, hsecond, hfraction]

theorem epoch_isRegular : epoch.IsRegular := by decide

end TaskAudit.Timestamp
