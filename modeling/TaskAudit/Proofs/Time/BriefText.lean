import Mathlib
import TaskAudit.Proofs.Text
import TaskAudit.Proofs.Time.StoredText
import TaskAudit.Time.Rfc3339.Relaxed

/-!
# A brief timestamp is read back

The text that JSON gives of a timestamp drops groups of zeros from the decimals. It is read back
as the regular timestamp that it names, whatever its year: unlike the reader of stored texts, the
one for records takes a year with a sign and as many digits as it has.
-/
namespace TaskAudit.Timestamp

open Time Time.Scan Decimal Text

theorem relaxedMark_self {c : Char} (h : isBlank c = false) (rest : List Char) :
    relaxedMark c (c :: rest) = .ok rest := by
  simp [relaxedMark, trimStart_cons h, oneOf, Except.map]

theorem relaxedPart_fixed {low high n : Nat} (hlow : low ≤ n) (hhigh : n ≤ high)
    (hsmall : n < 10 ^ 2) (rest : List Char) :
    relaxedPart low high (fixed 2 n ++ rest) = .ok (n, rest) := by
  have htrim : trimStart (fixed 2 n ++ rest) = fixed 2 n ++ rest :=
    trimStart_digits (fixed_ne_nil Nat.two_pos n) (fun _ => isDigit_of_mem_fixed) rest
  simp only [relaxedPart, htrim, upTo_fixed Nat.two_pos, Nat.mod_eq_of_lt hsmall, within, hlow,
    hhigh, and_self, if_true, bind, Except.bind, pure, Except.pure]

/-- The years of timestamps are far from the largest that the reader takes. -/
theorem year_bounds (t : Timestamp) : -262143 ≤ t.date.year ∧ t.date.year ≤ 262142 := by
  obtain ⟨hearliest, hlatest, -⟩ := t.valid
  unfold earliest at hearliest
  unfold latest at hlatest
  have hfirst : (Date.ofDays (-96465292)).year = -262143 := by decide +kernel
  have hlast : (Date.ofDays 95026236).year = 262142 := by decide +kernel
  constructor
  · rw [← hfirst]
    apply Date.year_ofDays_mono
    omega
  · rw [← hlast]
    apply Date.year_ofDays_mono
    omega

/-- A year that was read is kept if it is not too large. -/
theorem keep_year {read : Except TimeFault (Nat × List Char)} {n : Nat} {rest : List Char}
    (hread : read = .ok (n, rest)) (sign : Nat → Int) {year : Int} (hyear : sign n = year)
    (hlow : -262143 ≤ year) (hhigh : year ≤ 262142) :
    (do
      let (n, rest) ← read
      let (year, rest) ← pure (sign n, rest)
      if -2147483648 ≤ year ∧ year < 2147483648 then .ok (year, rest)
      else .error TimeFault.outOfRange) = .ok (year, rest) := by
  -- with the cast of `n` in place of `sign n` the kernel would count up to the bound
  have hbounds : -2147483648 ≤ year ∧ year < 2147483648 := by omega
  rw [hread]
  simp only [bind, Except.bind, pure, Except.pure]
  rw [hyear, if_pos hbounds]

theorem relaxedYear_yearText {year : Int} (hlow : -262143 ≤ year) (hhigh : year ≤ 262142)
    {c : Char} (hc : c.isDigit = false) (rest : List Char) :
    relaxedYear (yearText year ++ c :: rest) = .ok (year, c :: rest) := by
  have hsigned : upTo (atLeast 4 year.natAbs ++ c :: rest).length
      (atLeast 4 year.natAbs ++ c :: rest) = .ok (year.natAbs, c :: rest) := by
    have hlength : (atLeast 4 year.natAbs).length ≤
        (atLeast 4 year.natAbs ++ c :: rest).length := by
      rw [List.length_append]
      exact Nat.le_add_right _ _
    rw [upTo_digits (atLeast_ne_nil 4 _) (fun _ => isDigit_of_mem_atLeast) hlength hc,
      value_atLeast]
  unfold yearText
  split_ifs with hplain hneg
  · have hread := upTo_fixed four_pos year.toNat (c :: rest)
    obtain ⟨d, more, hfixed⟩ := List.exists_cons_of_ne_nil (fixed_ne_nil four_pos year.toNat)
    have hd : d.isDigit = true := isDigit_of_mem_fixed (hfixed ▸ List.mem_cons_self)
    rw [hfixed, List.cons_append] at hread ⊢
    unfold relaxedYear
    split
    · next heq =>
      obtain ⟨rfl, -⟩ := List.cons.inj heq
      cases hd
    · next heq =>
      obtain ⟨rfl, -⟩ := List.cons.inj heq
      cases hd
    · exact keep_year hread (fun n => n) (by omega) hlow hhigh
  · exact keep_year hsigned (fun n => -(n : Int)) (by omega) hlow hhigh
  · exact keep_year hsigned (fun n => n) (by omega) hlow hhigh

/-- The decimals are those of the nanoseconds without groups of zeros at their end. -/
theorem fractionText_cases (t : Timestamp) :
    t.fractionText = [] ∧ t.fraction = 0 ∨
      ∃ w n, t.fractionText = '.' :: fixed w n ∧ 0 < w ∧ w ≤ 9 ∧
        n % 10 ^ w * 10 ^ (9 - w) = t.fraction := by
  have hlt := t.fraction_lt
  simp only [fractionText]
  split_ifs with hzero hmillis hmicros
  · exact .inl ⟨rfl, hzero⟩
  · exact .inr ⟨3, _, rfl, by omega, by omega, by omega⟩
  · exact .inr ⟨6, _, rfl, by omega, by omega, by omega⟩
  · exact .inr ⟨9, _, rfl, by omega, by omega, by omega⟩

theorem toList_brief (t : Timestamp) : t.brief.toList =
    yearText t.date.year ++ '-' :: (fixed 2 t.date.month ++ '-' :: (fixed 2 t.date.day ++
      'T' :: (fixed 2 t.hour ++ ':' :: (fixed 2 t.minute ++ ':' :: (fixed 2 t.second ++
        (t.fractionText ++ ['Z'])))))) := by
  simp only [brief, dateText, clockText, String.toList_ofList, List.append_assoc,
    List.cons_append]

theorem trimStart_yearText (year : Int) (rest : List Char) :
    trimStart (yearText year ++ rest) = yearText year ++ rest := by
  unfold yearText
  split_ifs
  · exact trimStart_digits (fixed_ne_nil four_pos _) (fun _ => isDigit_of_mem_fixed) rest
  · exact trimStart_cons rfl _
  · exact trimStart_cons rfl _

/-- A regular timestamp is read back from its brief text. -/
theorem IsRegular.ofRelaxed_brief {t : Timestamp} (hregular : t.IsRegular) :
    ofRelaxed t.brief = .ok t := by
  obtain ⟨hearly, hlate⟩ := t.year_bounds
  obtain ⟨hmonth, hmonth', hday, hday'⟩ := t.date_valid
  have hdays : daysInMonth t.date.year t.date.month ≤ 31 := by
    unfold daysInMonth
    split_ifs <;> omega
  have hreadMonth := @relaxedPart_fixed 1 12 t.date.month hmonth hmonth' (by omega)
  have hreadDay := @relaxedPart_fixed 1 31 t.date.day hday (by omega) (by omega)
  have hreadHour := relaxedPart_fixed (Nat.zero_le _) t.hour_le (by have := t.hour_le; omega)
  have hreadMinute :=
    relaxedPart_fixed (Nat.zero_le _) t.minute_le (by have := t.minute_le; omega)
  have hreadSecond :=
    relaxedPart_fixed (Nat.zero_le _) t.second_le (by have := t.second_le; omega)
  have hhyphen : isBlank '-' = false := rfl
  have hcolon : isBlank ':' = false := rfl
  have hinside : ¬ (t.date.year < -262143 ∨ 262142 < t.date.year ∨ ¬ t.date.Valid ∨
      ¬ IsOffset 0) := by
    rintro (hlt | hlt | hinvalid | hoffset)
    · exact absurd hlt (not_lt.mpr hearly)
    · exact absurd hlt (not_lt.mpr hlate)
    · exact hinvalid t.date_valid
    · exact hoffset (by decide)
  have hzone : relaxedOffset (trimStart ['Z']) = .ok (0, []) := by rfl
  have hnothing : ¬ trimStart [] ≠ [] := fun h => h rfl
  have hdate : (⟨t.date.year, t.date.month, t.date.day⟩ : Date) = t.date := rfl
  -- the parts of the date and of the clock are read one behind the other
  rw [ofRelaxed, toList_brief, trimStart_yearText, relaxedYear_yearText hearly hlate rfl]
  simp only [bind, Except.bind, relaxedMark_self hhyphen, relaxedMark_self hcolon, hreadMonth,
    hreadDay, hreadHour, hreadMinute, hreadSecond, oneOf, List.mem_cons, true_or, if_true]
  -- what is left are the decimals, which may be missing, and the zone
  have hclock := hregular.ofLocal_clock
  rcases t.fractionText_cases with ⟨htext, hzero⟩ | ⟨w, n, htext, hpos, hw, hvalue⟩
  · rw [hzero] at hclock
    simp only [htext, List.nil_append, hzone, if_neg hnothing, hdate, if_neg hinside, hclock]
    rfl
  · have hz : ('Z').isDigit = false := rfl
    simp only [htext, List.cons_append, nanoseconds_decimals hpos hw n hz, hvalue, hzone,
      if_neg hnothing, hdate, if_neg hinside, hclock]

theorem ofRelaxed_brief (t : Timestamp) : ofRelaxed t.brief = .ok t.written := by
  rw [← t.brief_written]
  exact t.written_isRegular.ofRelaxed_brief

end TaskAudit.Timestamp
