import Mathlib
import TaskAudit.Json.Number
import TaskAudit.Proofs.Decimal

/-!
# Integers are read back

An integer of 64 bits, signed or unsigned, that was written in decimal is read back, if what
follows cannot belong to a number.
-/
namespace TaskAudit.Json

open Text Decimal

/-- Can no number go on with these pieces? -/
def Ends (rest : List Piece) : Prop :=
  ∀ c more, rest = .char c :: more → c.isDigit = false ∧ c ≠ '.' ∧ c ≠ 'e' ∧ c ≠ 'E'

theorem ends_nil : Ends [] := nofun

theorem ends_cons {c : Char} (h : c.isDigit = false ∧ c ≠ '.' ∧ c ≠ 'e' ∧ c ≠ 'E')
    (more : List Piece) : Ends (.char c :: more) := by
  intro d more' heq
  cases heq
  exact h

section

variable {rest : List Piece} {ds : List Char} {n : Nat} {negative : Bool}

theorem spanDigits_of_ends (hrest : Ends rest) : spanDigits rest = ([], rest) := by
  unfold spanDigits
  split
  · next c more => rw [if_neg (by simp [(hrest c more rfl).1])]
  · rfl

theorem spanDigits_append (hds : ∀ c ∈ ds, c.isDigit = true) (hrest : Ends rest) :
    spanDigits (ds.map .char ++ rest) = (ds, rest) := by
  induction ds with
  | nil => exact spanDigits_of_ends hrest
  | cons c cs ih =>
      obtain ⟨hc, hcs⟩ := List.forall_mem_cons.mp hds
      rw [List.map_cons, List.cons_append, spanDigits, if_pos hc, ih hcs]

theorem le_foldl_digits (ds : List Char) (n : Nat) :
    n ≤ ds.foldl (fun m c => m * 10 + digitValue c) n := by
  induction ds generalizing n with
  | nil => exact le_rfl
  | cons c cs ih =>
      have hstep : n ≤ n * 10 + digitValue c := by omega
      exact le_trans hstep (ih _)

theorem absorb_eq (h : ds.foldl (fun m c => m * 10 + digitValue c) n < wordLimit) :
    absorb n ds = (ds.foldl (fun m c => m * 10 + digitValue c) n, []) := by
  induction ds generalizing n with
  | nil => rfl
  | cons c cs ih =>
      have hfits : n * 10 + digitValue c < wordLimit := lt_of_le_of_lt (le_foldl_digits cs _) h
      rw [absorb, if_pos hfits]
      exact ih h

theorem absorb_digits (hn : n < 2 ^ 64) : absorb 0 (digits n) = (n, []) := by
  have hvalue : (digits n).foldl (fun m c => m * 10 + digitValue c) 0 = n := value_digits n
  have hfits : (digits n).foldl (fun m c => m * 10 + digitValue c) 0 < wordLimit := by
    rw [hvalue]
    exact hn
  rw [absorb_eq hfits, hvalue]

theorem afterDigits_digits (hn : n < 2 ^ 64) (hrest : Ends rest) :
    afterDigits negative (digits n) rest = .ok (integer negative n, rest) := by
  simp only [afterDigits, absorb_digits hn]
  split
  · exact absurd rfl (hrest _ _ rfl).2.1
  · exact absurd rfl (hrest _ _ rfl).2.2.1
  · exact absurd rfl (hrest _ _ rfl).2.2.2
  · rfl

/-- Digits of a number that fits are read as an integer. -/
theorem unsigned_digits (hn : n < 2 ^ 64) (hrest : Ends rest) :
    unsigned negative ((digits n).map .char ++ rest) = .ok (integer negative n, rest) := by
  have hspan : spanDigits ((digits n).map .char ++ rest) = (digits n, rest) :=
    spanDigits_append (fun c => isDigit_of_mem_digits) hrest
  simp only [unsigned, hspan]
  split
  · next hnil => exact absurd hnil Nat.toDigits_ne_nil
  · next c cs hzero =>
      obtain rfl := eq_zero_of_digits hzero
      cases hzero
  · exact afterDigits_digits hn hrest

theorem integer_natAbs {i : Int} (hlow : -2 ^ 63 ≤ i) : integer (i < 0) i.natAbs = .int i := by
  unfold integer
  by_cases hneg : i < 0
  · have hlimit : Nat.pow 2 63 = 2 ^ 63 := rfl
    rw [hlimit]
    have hfits : ¬ (i.natAbs = 0 ∨ 2 ^ 63 < i.natAbs) := by omega
    simp only [hneg, decide_true, Bool.not_true, Bool.false_eq_true, if_false, hfits]
    congr 1
    omega
  · simp only [hneg, decide_false, Bool.not_false, if_true]
    congr 1
    omega

end

end TaskAudit.Json
