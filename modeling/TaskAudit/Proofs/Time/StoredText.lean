import Mathlib
import TaskAudit.Proofs.Decimal
import TaskAudit.Proofs.Time.Calendar
import TaskAudit.Proofs.Time.LeapSeconds
import TaskAudit.Time.Rfc3339.Strict

/-!
# A stored timestamp is read back

The text that the table keeps of a regular timestamp is read back as the same timestamp if
its year has four digits: every part has a fixed number of digits, a leap second is the only
second numbered 60, and the calendar counts each day once. Of any other timestamp it is read
back as the regular one that has the same text.
-/
namespace TaskAudit

theorem length_le_utf8ByteSize (cs : List Char) : cs.length ≤ (String.ofList cs).utf8ByteSize := by
  induction cs with
  | nil => simp
  | cons c cs ih =>
      have hc := c.utf8Size_pos
      have : String.ofList (c :: cs) = String.singleton c ++ String.ofList cs := by
        simp
      rw [this, String.utf8ByteSize_append, String.utf8ByteSize_singleton, List.length_cons]
      omega

namespace Timestamp
open Time Time.Scan Decimal

/-- Is the year of the timestamp one of four digits? -/
def HasPlainYear (t : Timestamp) : Prop := 0 ≤ t.date.year ∧ t.date.year ≤ 9999

instance (t : Timestamp) : Decidable t.HasPlainYear := by unfold HasPlainYear; infer_instance

theorem toList_stored {t : Timestamp} (h : t.HasPlainYear) : t.stored.toList =
    fixed 4 t.date.year.toNat ++ '-' :: (fixed 2 t.date.month ++ '-' :: (fixed 2 t.date.day ++
      'T' :: (fixed 2 t.hour ++ ':' :: (fixed 2 t.minute ++ ':' :: (fixed 2 t.second ++
        '.' :: (fixed 9 t.fraction ++ ['Z'])))))) := by
  have hyear : yearText t.date.year = fixed 4 t.date.year.toNat := if_pos h
  simp only [stored, dateText, clockText, hyear, String.toList_ofList, List.append_assoc,
    List.cons_append]

theorem secondOfDay_lt (t : Timestamp) : t.secondOfDay < 86400 := by
  unfold secondOfDay
  omega

/-- A regular leap second is numbered 60, and no other second is. -/
theorem IsRegular.second_cases {t : Timestamp} (h : t.IsRegular) :
    t.second = 60 ∧ t.secondOfDay % 60 = 59 ∧ t.nanos = t.fraction + nanosPerSecond ∨
      t.second < 60 ∧ t.second = t.secondOfDay % 60 ∧ t.nanos = t.fraction := by
  have hlt := t.valid.2.2
  unfold IsRegular at h
  unfold second fraction secondOfDay
  unfold nanosPerSecond at *
  omega

theorem date_valid (t : Timestamp) : t.date.Valid := Date.valid_ofDays _

theorem hour_le (t : Timestamp) : t.hour ≤ 23 := by
  have h := t.secondOfDay_lt
  unfold hour
  omega

theorem minute_le (t : Timestamp) : t.minute ≤ 59 := by
  unfold minute
  omega

theorem second_le (t : Timestamp) : t.second ≤ 60 := by
  rw [← t.written_parts.2.2.2.1]
  rcases t.written_isRegular.second_cases with h | h <;> omega

theorem fraction_lt (t : Timestamp) : t.fraction < 10 ^ 9 := by
  unfold fraction nanosPerSecond
  omega

theorem date_of_digits {t : Timestamp} (h : t.HasPlainYear) :
    (⟨(t.date.year.toNat % 10 ^ 4 : Nat), t.date.month % 10 ^ 2, t.date.day % 10 ^ 2⟩ : Date) =
      t.date := by
  obtain ⟨hyear, hyear'⟩ := h
  obtain ⟨-, hmonth, -, hday⟩ := t.date_valid
  have hdays : daysInMonth t.date.year t.date.month ≤ 31 := by
    unfold daysInMonth
    split_ifs <;> omega
  have hy : ((t.date.year.toNat % 10 ^ 4 : Nat) : Int) = t.date.year := by omega
  have hm : t.date.month % 10 ^ 2 = t.date.month := by omega
  have hd : t.date.day % 10 ^ 2 = t.date.day := by omega
  rw [hy, hm, hd]

/-- The written time of day, with a leap second counted apart, names the second and
its nanoseconds. -/
theorem IsRegular.ofLocal_clock {t : Timestamp} (h : t.IsRegular) :
    ofLocal? t.date
      (t.hour * 3600 + t.minute * 60 + (t.second - if t.second = 60 then 1 else 0))
      (t.fraction + (if t.second = 60 then 1 else 0) * nanosPerSecond) 0 = some t := by
  have hclock : t.hour * 3600 + t.minute * 60 + t.secondOfDay % 60 = t.secondOfDay := by
    unfold hour minute
    omega
  have hday : t.seconds / 86400 * 86400 + t.secondOfDay - 0 = t.seconds := by
    unfold secondOfDay
    omega
  have hwhole : ofLocal? t.date t.secondOfDay t.nanos 0 = some t := by
    rw [ofLocal?, date, Date.toDays_ofDays, hday, ofParts?, dif_pos t.valid]
    exact if_pos h
  rcases h.second_cases with ⟨h60, hs, hn⟩ | ⟨h60, hs, hn⟩
  · have hbefore : 60 - 1 = t.secondOfDay % 60 := hs.symm
    rw [if_pos h60, h60, Nat.one_mul, ← hn, hbefore, hclock, hwhole]
  · have hne : t.second ≠ 60 := Nat.ne_of_lt h60
    rw [if_neg hne, Nat.sub_zero, Nat.zero_mul, Nat.add_zero, ← hn, hs, hclock, hwhole]

theorem IsRegular.ofStored_stored {t : Timestamp} (hregular : t.IsRegular) (h : t.HasPlainYear) :
    ofStored t.stored = .ok t := by
  have hsize : ¬ t.stored.utf8ByteSize < 19 := by
    have hlength := length_le_utf8ByteSize t.stored.toList
    rw [String.ofList_toList, toList_stored h] at hlength
    simp only [List.length_append, List.length_cons, length_fixed] at hlength
    omega
  -- every part fits in its digits, so the readers lose nothing of it
  have hdate := date_of_digits h
  have hhour : t.hour % 10 ^ 2 = t.hour := Nat.mod_eq_of_lt (by have := t.hour_le; omega)
  have hminute : t.minute % 10 ^ 2 = t.minute := Nat.mod_eq_of_lt (by have := t.minute_le; omega)
  have hsecond : t.second % 10 ^ 2 = t.second := Nat.mod_eq_of_lt (by have := t.second_le; omega)
  have hfraction : t.fraction % 10 ^ 9 = t.fraction := Nat.mod_eq_of_lt t.fraction_lt
  have hz : ('Z').isDigit = false := rfl
  have hoffset : IsOffset 0 := by decide
  rw [ofStored, if_neg hsize, toList_stored h]
  simp only [exactly_fixed, oneOf, nanoseconds_fixed _ hz, bind, Except.bind, hdate, t.date_valid,
    List.mem_cons, true_or, if_true, not_true, if_false, offset, hhour, hminute, hsecond,
    hfraction, hoffset, ne_eq, not_lt_of_ge t.hour_le, not_lt_of_ge t.minute_le,
    not_lt_of_ge t.second_le, or_self, hregular.ofLocal_clock]

theorem written_hasPlainYear {t : Timestamp} : t.written.HasPlainYear ↔ t.HasPlainYear := by
  rw [HasPlainYear, HasPlainYear, t.written_parts.1]

theorem ofStored_stored {t : Timestamp} (h : t.HasPlainYear) :
    ofStored t.stored = .ok t.written := by
  rw [← t.stored_written]
  exact t.written_isRegular.ofStored_stored (written_hasPlainYear.mpr h)

/-- The year of any other timestamp is written with a sign, where the reader wants a digit. -/
theorem ofStored_stored_of_signed {t : Timestamp} (h : ¬ t.HasPlainYear) :
    ofStored t.stored = .error .invalid := by
  have hyear : yearText t.date.year =
      (if t.date.year < 0 then '-' else '+') :: atLeast 4 t.date.year.natAbs := if_neg h
  have htext : t.stored.toList = (if t.date.year < 0 then '-' else '+') ::
      (atLeast 4 t.date.year.natAbs ++ '-' :: (fixed 2 t.date.month ++ '-' ::
        (fixed 2 t.date.day ++ 'T' :: (t.clockText ++ '.' :: (fixed 9 t.fraction ++ ['Z']))))) := by
    simp only [stored, dateText, hyear, String.toList_ofList, List.append_assoc, List.cons_append]
  have hsize : ¬ t.stored.utf8ByteSize < 19 := by
    have hlength := length_le_utf8ByteSize t.stored.toList
    rw [String.ofList_toList, htext] at hlength
    simp only [clockText, List.length_append, List.length_cons, length_fixed] at hlength
    omega
  have hsign : (if t.date.year < 0 then '-' else '+').isDigit = false := by
    split <;> rfl
  rw [ofStored, if_neg hsize, htext]
  simp [exactly, hsign, bind, Except.bind]

end Timestamp

end TaskAudit
