import Mathlib
import TaskAudit.Time.Rfc3339.Scan

/-!
# Digits are read back

A number in a fixed number of digits is read back by the readers for such a number,
with the rest of the text left over. Digits that were cut off in front are lost, so
what is read is the number below the power of ten. A number in as few digits as it
needs loses none, and begins with a zero only if it is one. Numbers in the same number of
digits are in the order of their digits.
-/
namespace TaskAudit

namespace Decimal

theorem digitValue_digitChar {d : Nat} (h : d < 10) : digitValue (Nat.digitChar d) = d := by
  interval_cases d <;> rfl

theorem value_concat (cs : List Char) (c : Char) :
    value (cs ++ [c]) = value cs * 10 + digitValue c := by
  simp only [value, List.foldl_append, List.foldl_cons, List.foldl_nil]

theorem value_fixed (w n : Nat) : value (fixed w n) = n % 10 ^ w := by
  induction w generalizing n with
  | zero => simp [fixed, value, Nat.mod_one]
  | succ w ih =>
      have hdigit : n % 10 < 10 := Nat.mod_lt n (by decide)
      rw [fixed, value_concat, ih, digitValue_digitChar hdigit, Nat.pow_succ', Nat.mod_mul]
      omega

theorem isDigit_of_mem_fixed {w n : Nat} {c : Char} (h : c ∈ fixed w n) : c.isDigit = true := by
  induction w generalizing n with
  | zero => simp [fixed] at h
  | succ w ih =>
      simp only [fixed, List.mem_append, List.mem_singleton] at h
      rcases h with h | rfl
      · exact ih h
      · have hdigit : n % 10 < 10 := Nat.mod_lt n (by decide)
        simpa only [Nat.isDigit_digitChar, decide_eq_true_eq] using hdigit

theorem take_fixed_append (w n : Nat) (rest : List Char) :
    (fixed w n ++ rest).take w = fixed w n := by
  rw [List.take_append_of_le_length (by simp), List.take_of_length_le (by simp)]

theorem drop_fixed_append (w n : Nat) (rest : List Char) :
    (fixed w n ++ rest).drop w = rest := by
  rw [List.drop_append_of_le_length (by simp), List.drop_of_length_le (by simp),
    List.nil_append]

theorem fixed_ne_nil {w : Nat} (hw : 0 < w) (n : Nat) : fixed w n ≠ [] := by
  apply List.ne_nil_of_length_pos
  rwa [length_fixed]

theorem isDigit_of_mem_digits {n : Nat} {c : Char} (h : c ∈ digits n) : c.isDigit = true :=
  Nat.isDigit_of_mem_toDigits (by decide) (by decide) h

theorem exists_digits_eq_cons (n : Nat) : ∃ c cs, digits n = c :: cs ∧ c.isDigit = true := by
  obtain ⟨c, cs, h⟩ := List.exists_cons_of_ne_nil (show digits n ≠ [] from Nat.toDigits_ne_nil)
  exact ⟨c, cs, h, isDigit_of_mem_digits (h ▸ List.mem_cons_self)⟩

theorem ne_of_isDigit {c d : Char} (hc : c.isDigit = true) (hd : d.isDigit = false) : c ≠ d := by
  rintro rfl
  rw [hc] at hd
  cases hd

theorem notMem_digits {c : Char} (hc : c.isDigit = false) (n : Nat) : c ∉ digits n :=
  fun h => ne_of_isDigit (isDigit_of_mem_digits h) hc rfl

theorem value_digits (n : Nat) : value (digits n) = n := by
  have hsteps : (fun (m : Nat) (c : Char) => m * 10 + digitValue c) =
      fun m c => 10 * m + (c.toNat - '0'.toNat) := by
    funext m c
    rw [Nat.mul_comm]
    rfl
  rw [value, hsteps]
  exact Nat.ofDigitChars_ten_toDigits

theorem value_zeros_append (k : Nat) (cs : List Char) :
    value (List.replicate k '0' ++ cs) = value cs := by
  induction k with
  | zero => rfl
  | succ k ih => exact ih

theorem value_atLeast (w n : Nat) : value (atLeast w n) = n := by
  rw [atLeast, value_zeros_append, value_digits]

theorem isDigit_of_mem_atLeast {w n : Nat} {c : Char} (h : c ∈ atLeast w n) :
    c.isDigit = true := by
  rcases List.mem_append.mp h with hzero | hdigit
  · rw [List.eq_of_mem_replicate hzero]
    rfl
  · exact isDigit_of_mem_digits hdigit

theorem atLeast_ne_nil (w n : Nat) : atLeast w n ≠ [] :=
  List.append_ne_nil_of_right_ne_nil _ Nat.toDigits_ne_nil

theorem digits_of_lt {n : Nat} (h : n < 10) : digits n = [Nat.digitChar n] :=
  Nat.toDigits_of_lt_base h

theorem eq_zero_of_digits {n : Nat} {cs : List Char} (h : digits n = '0' :: cs) : n = 0 := by
  induction n using Nat.strong_induction_on generalizing cs with
  | _ n ih =>
      by_cases hn : n < 10
      · rw [digits_of_lt hn] at h
        exact Nat.digitChar_eq_zero.mp (List.cons.inj h).1
      · have hsplit : digits n = digits (n / 10) ++ [Nat.digitChar (n % 10)] :=
          Nat.toDigits_of_base_le (by decide) (not_lt.mp hn)
        rw [hsplit] at h
        rcases List.append_eq_cons_iff.mp h with ⟨hnil, -⟩ | ⟨rest, hhead, -⟩
        · exact absurd hnil Nat.toDigits_ne_nil
        · have hzero : n / 10 = 0 := ih (n / 10) (by omega) hhead
          omega

theorem ofDigits?_eq_some_iff {cs : List Char} {n : Nat} :
    ofDigits? cs = some n ↔ cs ≠ [] ∧ (∀ c ∈ cs, c.isDigit = true) ∧ value cs = n := by
  rw [ofDigits?, Option.ite_none_right_eq_some, List.all_eq_true, Option.some_inj, and_assoc]

/-- A number below a bound is read from digits, at least one of them, with a plus sign before
them or without one. -/
theorem ofText?_eq_some_iff {bound n : Nat} {cs : List Char} :
    ofText? bound cs = some n ↔
      ∃ ds, (cs = ds ∨ cs = '+' :: ds) ∧ ds ≠ [] ∧ (∀ c ∈ ds, c.isDigit = true) ∧
        value ds = n ∧ n < bound := by
  have hbody : ∀ body, (ofDigits? body).filter (· < bound) = some n ↔
      body ≠ [] ∧ (∀ c ∈ body, c.isDigit = true) ∧ value body = n ∧ n < bound := by
    intro body
    rw [Option.filter_eq_some_iff, ofDigits?_eq_some_iff, decide_eq_true_eq, and_assoc, and_assoc]
  unfold ofText?
  split
  · next rest =>
    rw [hbody]
    constructor
    · exact fun h => ⟨rest, .inr rfl, h⟩
    · rintro ⟨ds, rfl | hds, h⟩
      · exact absurd (h.2.1 '+' List.mem_cons_self) (by decide)
      · rwa [(List.cons.inj hds).2]
  · next hplus =>
    rw [hbody]
    constructor
    · exact fun h => ⟨cs, .inl rfl, h⟩
    · rintro ⟨ds, rfl | hds, h⟩
      · exact h
      · exact absurd hds (hplus ds)

variable {w m n : Nat}

theorem digitChar_lt_digitChar (hm : m < 10) (hn : n < 10) :
    Nat.digitChar m < Nat.digitChar n ↔ m < n := by
  rw [Char.lt_def, UInt32.lt_iff_toNat_lt]
  change (Nat.digitChar m).toNat < (Nat.digitChar n).toNat ↔ m < n
  rw [Nat.toNat_digitChar_of_lt_ten hm, Nat.toNat_digitChar_of_lt_ten hn]
  omega

theorem digitChar_inj (hm : m < 10) (hn : n < 10) :
    Nat.digitChar m = Nat.digitChar n ↔ m = n := by
  constructor
  · intro h
    have hvalue := congrArg digitValue h
    rwa [digitValue_digitChar hm, digitValue_digitChar hn] at hvalue
  · exact congrArg Nat.digitChar

/-- Texts that begin with numbers of as many digits are in the order of the numbers, and
texts that begin with the same number in the order of what follows. -/
theorem fixed_append_lt (hm : m < 10 ^ w) (hn : n < 10 ^ w) (s t : List Char) :
    fixed w m ++ s < fixed w n ++ t ↔ m < n ∨ m = n ∧ s < t := by
  induction w generalizing m n s t with
  | zero =>
      have hm0 : m = 0 := by omega
      have hn0 : n = 0 := by omega
      simp [fixed, hm0, hn0]
  | succ w ih =>
      have hm' : m / 10 < 10 ^ w := by omega
      have hn' : n / 10 < 10 ^ w := by omega
      have hmod : m % 10 < 10 := by omega
      have hmod' : n % 10 < 10 := by omega
      simp only [fixed, List.append_assoc, List.singleton_append, ih hm' hn',
        List.cons_lt_cons_iff, digitChar_lt_digitChar hmod hmod', digitChar_inj hmod hmod']
      by_cases hrest : s < t
      · simp only [hrest, and_true]
        omega
      · simp only [hrest, and_false, or_false]
        omega

end Decimal

namespace Time.Scan
open Decimal

theorem exactly_fixed (w n : Nat) (rest : List Char) :
    exactly w (fixed w n ++ rest) = .ok (n % 10 ^ w, rest) := by
  have hdigits : (fixed w n).any (fun c => !c.isDigit) = false := by
    rw [List.any_eq_false]
    intro c hc
    simp [isDigit_of_mem_fixed hc]
  simp only [exactly, take_fixed_append, drop_fixed_append, hdigits, length_fixed, lt_irrefl,
    value_fixed, if_false, Bool.false_eq_true]

theorem upTo_fixed {w : Nat} (hw : 0 < w) (n : Nat) (rest : List Char) :
    upTo w (fixed w n ++ rest) = .ok (n % 10 ^ w, rest) := by
  have hdigits : (fixed w n).takeWhile Char.isDigit = fixed w n :=
    List.takeWhile_eq_self_iff.mpr fun c hc => isDigit_of_mem_fixed hc
  cases hf : fixed w n with
  | nil =>
      have hlength := congrArg List.length hf
      simp only [length_fixed, List.length_nil] at hlength
      omega
  | cons c cs =>
      have hmem : c ∈ fixed w n := by rw [hf]; exact List.mem_cons_self
      have hc : c.isDigit = true := isDigit_of_mem_fixed hmem
      have hcons : fixed w n ++ rest = c :: (cs ++ rest) := by rw [hf, List.cons_append]
      rw [← hf, upTo.eq_def, take_fixed_append, hdigits]
      simp only [length_fixed, value_fixed, hcons, hc, if_true]
      rw [← hcons, drop_fixed_append]

theorem upTo_digits {ds : List Char} {n : Nat} {c : Char} (hne : ds ≠ [])
    (hds : ∀ d ∈ ds, d.isDigit = true) (hlength : ds.length ≤ n) (hc : c.isDigit = false)
    (rest : List Char) : upTo n (ds ++ c :: rest) = .ok (value ds, c :: rest) := by
  have hspan : ((ds ++ c :: rest).take n).takeWhile Char.isDigit = ds := by
    rw [List.take_append, List.take_of_length_le hlength, List.takeWhile_append_of_pos hds]
    cases n - ds.length with
    | zero => exact List.append_nil ds
    | succ k => rw [List.take_succ_cons, List.takeWhile_cons_of_neg (by simp [hc]), List.append_nil]
  have hdrop : (ds ++ c :: rest).drop ds.length = c :: rest := List.drop_left
  obtain ⟨d, more, rfl⟩ := List.exists_cons_of_ne_nil hne
  rw [upTo.eq_def, hspan]
  simp only [hdrop]
  simp only [List.cons_append, hds d List.mem_cons_self, if_true]

theorem nanoseconds_decimals {w : Nat} (hpos : 0 < w) (hw : w ≤ 9) (n : Nat) {c : Char}
    (hc : c.isDigit = false) (rest : List Char) :
    nanoseconds (fixed w n ++ c :: rest) = .ok (n % 10 ^ w * 10 ^ (9 - w), c :: rest) := by
  have hlong : (fixed w n).length ≤ 9 := by rwa [length_fixed]
  have hread := upTo_digits (fixed_ne_nil hpos n) (fun _ => isDigit_of_mem_fixed) hlong hc rest
  have hlength : (fixed w n ++ c :: rest).length - (c :: rest).length = w := by
    rw [List.length_append, length_fixed, Nat.add_sub_cancel]
  simp only [nanoseconds, hread, value_fixed, bind, Except.bind, pure, Except.pure, hlength]
  simp [hc]

theorem nanoseconds_fixed (n : Nat) {c : Char} (hc : c.isDigit = false) (rest : List Char) :
    nanoseconds (fixed 9 n ++ c :: rest) = .ok (n % 10 ^ 9, c :: rest) := by
  rw [nanoseconds_decimals (by decide) le_rfl n hc, Nat.sub_self, Nat.pow_zero, Nat.mul_one]

end Time.Scan

end TaskAudit
