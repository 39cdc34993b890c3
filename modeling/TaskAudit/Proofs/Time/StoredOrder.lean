import Mathlib
import TaskAudit.Proofs.Time.StoredText
import TaskAudit.Trail.Row

/-!
# Stored timestamps are in order

The text that the table keeps of a regular timestamp is a code of it. For years of four digits
it always has the same length, it is read back as the timestamp, and its bytes come before those
of another text exactly if its timestamp is the earlier one. So the database can sort by time
without reading a single time. A leap second inside a minute has no text of its own.
-/
namespace TaskAudit

namespace Text

def IsAscii (cs : List Char) : Prop := ∀ c ∈ cs, c.toNat < 128

def bytes (s : String) : List UInt8 := s.toUTF8.data.toList

theorem bytes_of_isAscii {s : String} (h : IsAscii s.toList) :
    bytes s = s.toList.map fun c => c.val.toUInt8 := by
  obtain ⟨cs, rfl⟩ : ∃ cs, s = String.ofList cs := ⟨s.toList, String.ofList_toList.symm⟩
  rw [String.toList_ofList] at h ⊢
  rw [bytes, String.toUTF8_eq_toByteArray, String.toByteArray_ofList, List.utf8Encode,
    List.data_toByteArray, List.map_eq_flatMap]
  refine List.flatMap_congr fun c hc => ?_
  have hle : c.val ≤ 127 := UInt32.le_iff_toNat_le.mpr (Nat.le_of_lt_succ (h c hc))
  exact String.utf8EncodeChar_eq_singleton (Char.utf8Size_eq_one_iff.mpr hle)

theorem toNat_byte {c : Char} (h : c.toNat < 128) : c.val.toUInt8.toNat = c.toNat := by
  rw [UInt32.toNat_toUInt8]
  exact Nat.mod_eq_of_lt (lt_trans h (by decide))

theorem byte_lt_byte_iff {c d : Char} (hc : c.toNat < 128) (hd : d.toNat < 128) :
    c.val.toUInt8 < d.val.toUInt8 ↔ c < d := by
  rw [UInt8.lt_iff_toNat_lt, toNat_byte hc, toNat_byte hd, Char.lt_def, UInt32.lt_iff_toNat_lt]
  exact Iff.rfl

theorem byte_inj {c d : Char} (hc : c.toNat < 128) (hd : d.toNat < 128) :
    c.val.toUInt8 = d.val.toUInt8 ↔ c = d := by
  rw [← UInt8.toNat_inj, toNat_byte hc, toNat_byte hd, Char.toNat_inj]

theorem bytes_lt_bytes_iff {s t : String} (hs : IsAscii s.toList) (ht : IsAscii t.toList) :
    bytes s < bytes t ↔ s < t := by
  rw [bytes_of_isAscii hs, bytes_of_isAscii ht, String.lt_iff_toList_lt]
  generalize s.toList = cs at hs
  generalize t.toList = ds at ht
  induction cs generalizing ds with
  | nil => cases ds <;> simp
  | cons c cs ih =>
      cases ds with
      | nil => simp
      | cons d ds =>
          obtain ⟨hc, hcs⟩ := List.forall_mem_cons.mp hs
          obtain ⟨hd, hds⟩ := List.forall_mem_cons.mp ht
          rw [List.map_cons, List.map_cons, List.cons_lt_cons_iff, List.cons_lt_cons_iff,
            byte_lt_byte_iff hc hd, byte_inj hc hd, ih hcs ds hds]

end Text

namespace Timestamp

open Time Decimal Text

variable {a b : Timestamp}

/-- Does the written time of day of one timestamp come before that of another? -/
def ClockBefore (a b : Timestamp) : Prop :=
  a.hour < b.hour ∨ a.hour = b.hour ∧ (a.minute < b.minute ∨ a.minute = b.minute ∧
    (a.second < b.second ∨ a.second = b.second ∧ a.fraction < b.fraction))

/-- On one day, the written time of day follows the time, also in a leap second. -/
theorem lt_iff_clockBefore (ha : a.IsRegular) (hb : b.IsRegular)
    (h : a.seconds / 86400 = b.seconds / 86400) : a < b ↔ a.ClockBefore b := by
  have hsecond := ha.second_cases
  have hsecond' := hb.second_cases
  have hfraction := a.fraction_lt
  have hfraction' := b.fraction_lt
  change a.seconds < b.seconds ∨ a.seconds = b.seconds ∧ a.nanos < b.nanos ↔ _
  unfold ClockBefore hour minute
  unfold secondOfDay nanosPerSecond at *
  omega

theorem lt_iff_parts (ha : a.IsRegular) (hb : b.IsRegular) :
    a < b ↔ a.date.Before b.date ∨ a.date = b.date ∧ a.ClockBefore b := by
  rcases lt_trichotomy (a.seconds / 86400) (b.seconds / 86400) with hlt | heq | hgt
  · have hbefore : a.date.Before b.date := Date.ofDays_before_ofDays hlt
    have hless : a < b := .inl (by omega)
    exact iff_of_true hless (.inl hbefore)
  · have hsame : a.date = b.date := congrArg Date.ofDays heq
    have hnot : ¬ a.date.Before b.date := by
      rw [hsame]
      exact Date.before_irrefl b.date
    rw [lt_iff_clockBefore ha hb heq, or_iff_right hnot, and_iff_right hsame]
  · have hbefore : b.date.Before a.date := Date.ofDays_before_ofDays hgt
    have hmore : ¬ a < b := by
      rintro (hlt | ⟨heq, -⟩) <;> omega
    apply iff_of_false hmore
    rintro (hback | ⟨hsame, -⟩)
    · exact hbefore.asymm hback
    · rw [hsame] at hbefore
      exact Date.before_irrefl b.date hbefore

theorem month_lt (t : Timestamp) : t.date.month < 10 ^ 2 := by
  have h := t.date_valid.2.1
  omega

theorem day_lt (t : Timestamp) : t.date.day < 10 ^ 2 := by
  have h := t.date_valid.2.2.2
  unfold daysInMonth at h
  split_ifs at h <;> omega

/-- Every part has as many digits in one text as in another, so the first part that differs
decides. -/
theorem IsRegular.stored_lt_stored_iff (hregular : a.IsRegular) (hregular' : b.IsRegular)
    (ha : a.HasPlainYear) (hb : b.HasPlainYear) : a.stored < b.stored ↔ a < b := by
  have hyear : a.date.year.toNat < 10 ^ 4 := by
    have h := ha.2
    omega
  have hyear' : b.date.year.toNat < 10 ^ 4 := by
    have h := hb.2
    omega
  have hhour (t : Timestamp) : t.hour < 10 ^ 2 := by
    have h := t.hour_le
    omega
  have hminute (t : Timestamp) : t.minute < 10 ^ 2 := by
    have h := t.minute_le
    omega
  have hsecond (t : Timestamp) : t.second < 10 ^ 2 := by
    have h := t.second_le
    omega
  have hend : ¬ ['Z'] < ['Z'] := lt_irrefl _
  have hyears : a.date.year.toNat < b.date.year.toNat ↔ a.date.year < b.date.year := by
    have h := ha.1
    omega
  have hyears' : a.date.year.toNat = b.date.year.toNat ↔ a.date.year = b.date.year := by
    have h := ha.1
    have h' := hb.1
    omega
  rw [String.lt_iff_toList_lt, toList_stored ha, toList_stored hb,
    lt_iff_parts hregular hregular', Date.before_or_eq_and_iff, ClockBefore,
    fixed_append_lt hyear hyear', List.cons_lt_cons_self,
    fixed_append_lt a.month_lt b.month_lt, List.cons_lt_cons_self,
    fixed_append_lt a.day_lt b.day_lt, List.cons_lt_cons_self,
    fixed_append_lt (hhour a) (hhour b), List.cons_lt_cons_self,
    fixed_append_lt (hminute a) (hminute b), List.cons_lt_cons_self,
    fixed_append_lt (hsecond a) (hsecond b), List.cons_lt_cons_self,
    fixed_append_lt a.fraction_lt b.fraction_lt, hyears, hyears']
  simp only [hend, and_false, or_false]

theorem stored_lt_stored_iff (ha : a.HasPlainYear) (hb : b.HasPlainYear) :
    a.stored < b.stored ↔ a.written < b.written := by
  rw [← a.stored_written, ← b.stored_written]
  exact a.written_isRegular.stored_lt_stored_iff b.written_isRegular
    (written_hasPlainYear.mpr ha) (written_hasPlainYear.mpr hb)

theorem isAscii_stored (h : a.HasPlainYear) : IsAscii a.stored.toList := by
  have hdigits : ∀ w n, IsAscii (fixed w n) := by
    intro w n c hc
    have hdigit := isDigit_of_mem_fixed hc
    rw [Char.isDigit_iff_toNat] at hdigit
    exact lt_of_le_of_lt hdigit.2 (by decide)
  rw [toList_stored h]
  simp only [IsAscii, List.forall_mem_append, List.forall_mem_cons]
  exact ⟨hdigits 4 _, by decide, hdigits 2 _, by decide, hdigits 2 _, by decide, hdigits 2 _,
    by decide, hdigits 2 _, by decide, hdigits 2 _, by decide, hdigits 9 _, by decide,
    List.forall_mem_nil _⟩

theorem length_stored (h : a.HasPlainYear) : a.stored.length = 30 := by
  rw [← String.length_toList, toList_stored h]
  simp only [List.length_append, List.length_cons, length_fixed, List.length_nil]

/-- A stored text stands for the regular timestamp that it names, and the texts are in the
order of those. Only a regular timestamp is the one that its text names. -/
theorem stored_is_ordered_code (ha : a.HasPlainYear) (hb : b.HasPlainYear) :
    a.stored.length = 30 ∧ (∀ c, StoredRecord.time c a.stored = .ok a.written) ∧
      (a.written < b.written ↔ bytes a.stored < bytes b.stored) ∧
      (a.stored = b.stored ↔ a.written = b.written) ∧ (a.written = a ↔ a.IsRegular) := by
  refine ⟨length_stored ha, fun c => ?_, ?_, ?_, written_eq_self_iff⟩
  · rw [StoredRecord.time, ofStored_stored ha]
  · rw [bytes_lt_bytes_iff (isAscii_stored ha) (isAscii_stored hb), stored_lt_stored_iff ha hb]
  · constructor
    · intro h
      have hread := ofStored_stored ha
      rw [h, ofStored_stored hb] at hread
      exact (Except.ok.inj hread).symm
    · intro h
      rw [← a.stored_written, h, b.stored_written]

/-- The last half of a leap second and the second that follows it. -/
theorem stored_is_ordered_code_of_leap :
    let leap : Timestamp := ⟨1483228799, 1500000000, by decide⟩
    let next : Timestamp := ⟨1483228800, 0, by decide⟩
    leap.HasPlainYear ∧ next.HasPlainYear ∧ leap.stored.length = 30 ∧
      (∀ c, StoredRecord.time c leap.stored = .ok leap) ∧
      bytes leap.stored < bytes next.stored ∧ leap.stored ≠ next.stored := by
  intro leap next
  have hleap : leap.HasPlainYear := by decide
  have hnext : next.HasPlainYear := by decide
  obtain ⟨hlength, hread, horder, hsame, hself⟩ := stored_is_ordered_code hleap hnext
  rw [hself.mpr (by decide)] at hread
  refine ⟨hleap, hnext, hlength, hread, horder.mp (by decide), ?_⟩
  rw [ne_eq, hsame]
  decide

/-- A leap second inside a minute is stored as the second that follows it, though it is the
earlier of the two. -/
theorem leap_in_minute_collides :
    let leap : Timestamp := ⟨1700000004, 1333333333, by decide⟩
    let next : Timestamp := ⟨1700000005, 333333333, by decide⟩
    leap.HasPlainYear ∧ next.HasPlainYear ∧ leap < next ∧ leap.stored = next.stored ∧
      StoredRecord.time .createdAt leap.stored = .ok next ∧ leap ≠ next := by
  decide +kernel

end Timestamp

end TaskAudit
