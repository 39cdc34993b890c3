import Mathlib
import TaskAudit.Time.Civil

/-!
# The calendar counts every day once

A day and its number name each other: the date of a day is one that the calendar
has, and counting back from it gives the day again. A later day has a later date.
These facts are read off one decomposition, in which a day is a day of a year that
begins in March, and such a year is a year of a cycle of 400.
-/
namespace TaskAudit.Time.Date

/-- The days before a year of a cycle, both counted from March. -/
def daysBefore (year : Nat) : Nat := year * 365 + year / 4 - year / 100

/-- The date of a day in a year that begins in March. -/
def ofMarch (year : Int) (dayOfYear : Nat) : Date :=
  let fromMarch := (5 * dayOfYear + 2) / 153
  let month := if fromMarch < 10 then fromMarch + 3 else fromMarch - 9
  ⟨if month ≤ 2 then year + 1 else year, month, dayOfYear - (153 * fromMarch + 2) / 5 + 1⟩

/-- Every day lies in a year of some cycle, and only a leap year has a day 365. -/
theorem ofDays_eq_ofMarch (n : Int) : ∃ (cycle : Int) (year day : Nat),
    year < 400 ∧ day ≤ 365 ∧ (day = 365 → isLeapYear (cycle * 400 + year + 1)) ∧
      n + marchOffset = cycle * 146097 + (daysBefore year + day : Nat) ∧
      ofDays n = ofMarch (cycle * 400 + year) day := by
  let z := n + marchOffset
  let dayOfCycle := (z % 146097).toNat
  let century := min (dayOfCycle / 36524) 3
  let rest := dayOfCycle - century * 36524
  let four := rest / 1461
  let yearOfFour := min (rest % 1461 / 365) 3
  let year := century * 100 + four * 4 + yearOfFour
  have hz : z = z / 146097 * 146097 + dayOfCycle := by omega
  have hrest : rest ≤ 36524 ∧ (century < 3 → rest < 36524) := by omega
  have hfour : four ≤ 24 := by omega
  have hquarter : year / 4 = century * 25 + four := by omega
  have hhundredth : year / 100 = century := by omega
  refine ⟨z / 146097, year, rest % 1461 - yearOfFour * 365, by omega, by omega, ?_, ?_, rfl⟩
  · intro h
    -- the last stretch of a century lacks its leap day, unless it ends the cycle
    have hlast : four = 24 → century = 3 := by omega
    simp only [isLeapYear, Bool.and_eq_true, Bool.or_eq_true, decide_eq_true_eq]
    omega
  · change z = _
    rw [daysBefore, hquarter, hhundredth]
    omega

/-- The months from March to December stand in the year itself. -/
theorem ofMarch_early (year : Int) {day : Nat} (h : (5 * day + 2) / 153 < 10) :
    ofMarch year day =
      ⟨year, (5 * day + 2) / 153 + 3, day - (153 * ((5 * day + 2) / 153) + 2) / 5 + 1⟩ := by
  have hmonth : ¬ (5 * day + 2) / 153 + 3 ≤ 2 := by omega
  simp only [ofMarch, if_pos h, if_neg hmonth]

theorem ofMarch_late (year : Int) {day : Nat} (hday : day ≤ 365)
    (h : ¬ (5 * day + 2) / 153 < 10) :
    ofMarch year day =
      ⟨year + 1, (5 * day + 2) / 153 - 9, day - (153 * ((5 * day + 2) / 153) + 2) / 5 + 1⟩ := by
  have hmonth : (5 * day + 2) / 153 - 9 ≤ 2 := by omega
  simp only [ofMarch, if_neg h, if_pos hmonth]

theorem toDays_ofMarch (cycle : Int) {year day : Nat} (hyear : year < 400) (hday : day ≤ 365) :
    (ofMarch (cycle * 400 + year) day).toDays =
      cycle * 146097 + (daysBefore year + day : Nat) - marchOffset := by
  have hin : ((cycle * 400 + year) % 400).toNat = year := by omega
  have hcycle : (cycle * 400 + (year : Int)) / 400 = cycle := by omega
  have hfirst : (153 * ((5 * day + 2) / 153) + 2) / 5 ≤ day := by omega
  by_cases h : (5 * day + 2) / 153 < 10
  · have hmonth : ¬ (5 * day + 2) / 153 + 3 ≤ 2 := by omega
    have hback : ((5 * day + 2) / 153 + 3 + 9) % 12 = (5 * day + 2) / 153 := by omega
    rw [ofMarch_early _ h]
    simp only [toDays, if_neg hmonth, hback, hin, hcycle, daysBefore]
    omega
  · have hmonth : (5 * day + 2) / 153 - 9 ≤ 2 := by omega
    have hback : ((5 * day + 2) / 153 - 9 + 9) % 12 = (5 * day + 2) / 153 := by omega
    rw [ofMarch_late _ hday h]
    simp only [toDays, if_pos hmonth, hback, Int.add_sub_cancel, hin, hcycle, daysBefore]
    omega

theorem valid_ofMarch {year : Int} {day : Nat} (hday : day ≤ 365)
    (hlast : day = 365 → isLeapYear (year + 1)) : (ofMarch year day).Valid := by
  by_cases h : (5 * day + 2) / 153 < 10
  · rw [ofMarch_early _ h]
    simp only [Valid, daysInMonth]
    split_ifs <;> omega
  · rw [ofMarch_late _ hday h]
    simp only [Valid, daysInMonth]
    split_ifs with h2 hl <;> try omega
    have hne : day ≠ 365 := fun he => hl (hlast he)
    omega

@[simp] theorem toDays_ofDays (n : Int) : (ofDays n).toDays = n := by
  obtain ⟨cycle, year, day, hyear, hday, -, hn, h⟩ := ofDays_eq_ofMarch n
  rw [h, toDays_ofMarch cycle hyear hday]
  omega

theorem valid_ofDays (n : Int) : (ofDays n).Valid := by
  obtain ⟨cycle, year, day, -, hday, hlast, -, h⟩ := ofDays_eq_ofMarch n
  rw [h]
  exact valid_ofMarch hday hlast

/-- Does a date come before another one, by year, then by month, then by day? -/
def Before (d e : Date) : Prop :=
  d.year < e.year ∨ d.year = e.year ∧ (d.month < e.month ∨ d.month = e.month ∧ d.day < e.day)

theorem before_irrefl (d : Date) : ¬ d.Before d := by
  unfold Before
  omega

theorem Before.asymm {d e : Date} (h : d.Before e) : ¬ e.Before d := by
  unfold Before at *
  omega

/-- What follows the date decides between equal dates. -/
theorem before_or_eq_and_iff {d e : Date} {p : Prop} :
    d.Before e ∨ d = e ∧ p ↔ d.year < e.year ∨ d.year = e.year ∧ (d.month < e.month ∨
      d.month = e.month ∧ (d.day < e.day ∨ d.day = e.day ∧ p)) := by
  obtain ⟨year, month, day⟩ := d
  obtain ⟨year', month', day'⟩ := e
  simp only [Before, Date.mk.injEq, and_or_left, or_assoc, and_assoc]

theorem ofMarch_before_of_lt (year : Int) {day day' : Nat} (h : day < day') (hday' : day' ≤ 365) :
    (ofMarch year day).Before (ofMarch year day') := by
  have hfirst : (153 * ((5 * day + 2) / 153) + 2) / 5 ≤ day := by omega
  unfold Before
  by_cases hd : (5 * day + 2) / 153 < 10
  · rw [ofMarch_early year hd]
    by_cases hd' : (5 * day' + 2) / 153 < 10
    · rw [ofMarch_early year hd']
      dsimp only
      omega
    · rw [ofMarch_late year hday' hd']
      dsimp only
      omega
  · have hlate : ¬ (5 * day' + 2) / 153 < 10 := by omega
    rw [ofMarch_late year (by omega) hd, ofMarch_late year hday' hlate]
    dsimp only
    omega

theorem ofMarch_before_of_year_lt {year year' : Int} (h : year < year') {day day' : Nat}
    (hday : day ≤ 365) (hday' : day' ≤ 365) :
    (ofMarch year day).Before (ofMarch year' day') := by
  unfold Before
  by_cases hd : (5 * day + 2) / 153 < 10
  · rw [ofMarch_early year hd]
    by_cases hd' : (5 * day' + 2) / 153 < 10
    · rw [ofMarch_early year' hd']
      exact .inl h
    · rw [ofMarch_late year' hday' hd']
      dsimp only
      omega
  · rw [ofMarch_late year hday hd]
    by_cases hd' : (5 * day' + 2) / 153 < 10
    · rw [ofMarch_early year' hd']
      dsimp only
      omega
    · rw [ofMarch_late year' hday' hd']
      dsimp only
      omega

def daysUntil (year : Int) : Int := year * 365 + year / 4 - year / 100 + year / 400

theorem daysUntil_mono {year year' : Int} (h : year ≤ year') :
    daysUntil year ≤ daysUntil year' := by
  unfold daysUntil
  omega

theorem daysUntil_cycle (cycle : Int) {year : Nat} (h : year < 400) :
    daysUntil (cycle * 400 + year) = cycle * 146097 + daysBefore year := by
  unfold daysUntil daysBefore
  omega

/-- The days of a year are over when the next one begins. -/
theorem add_day_lt_daysUntil {year : Int} {day : Nat} (hday : day ≤ 365)
    (hlast : day = 365 → isLeapYear (year + 1)) :
    daysUntil year + day < daysUntil (year + 1) := by
  unfold daysUntil
  by_cases h : day = 365
  · have hleap := hlast h
    simp only [isLeapYear, Bool.and_eq_true, Bool.or_eq_true, decide_eq_true_eq] at hleap
    omega
  · omega

theorem ofDays_before_ofDays {m n : Int} (h : m < n) : (ofDays m).Before (ofDays n) := by
  obtain ⟨cycle, year, day, hyear, hday, -, hm, hdate⟩ := ofDays_eq_ofMarch m
  obtain ⟨cycle', year', day', hyear', hday', hlast, hn, hdate'⟩ := ofDays_eq_ofMarch n
  have hstart := daysUntil_cycle cycle hyear
  have hstart' := daysUntil_cycle cycle' hyear'
  rw [hdate, hdate']
  rcases lt_trichotomy (cycle * 400 + (year : Int)) (cycle' * 400 + year') with hlt | heq | hgt
  · exact ofMarch_before_of_year_lt hlt hday hday'
  · rw [heq] at hstart ⊢
    apply ofMarch_before_of_lt _ _ hday'
    omega
  · have hover := add_day_lt_daysUntil hday' hlast
    have hlater := daysUntil_mono hgt
    omega

theorem year_ofDays_mono {m n : Int} (h : m ≤ n) : (ofDays m).year ≤ (ofDays n).year := by
  rcases h.eq_or_lt with rfl | hlt
  · exact le_rfl
  · have hbefore := ofDays_before_ofDays hlt
    unfold Before at hbefore
    omega

end TaskAudit.Time.Date
