import Mathlib
import TaskAudit.Json.Str

/-!
# Strings are read back

A text that was written as a JSON string is read back, whatever stands behind it. Each of its
characters takes one step of the reader, be it escaped or not.
-/
namespace TaskAudit.Json

open Text

theorem hexValue?_digitChar {n : Nat} (h : n < 16) :
    hexValue? (.char (Nat.digitChar n)) = some n := by
  interval_cases n <;> rfl

@[simp]
theorem widths_char_cons (c : Char) (rest : List Piece) :
    widths (.char c :: rest) = c.utf8Size + widths rest := rfl

theorem hexQuad_digits {n : Nat} (h : n < 256) (rest : List Piece) :
    hexQuad (.char '0' :: .char '0' :: .char (Nat.digitChar (n / 16)) ::
      .char (Nat.digitChar (n % 16)) :: rest) = .ok (n, rest) := by
  have hzero : hexValue? (.char '0') = some 0 := rfl
  have hhigh := hexValue?_digitChar (show n / 16 < 16 by omega)
  have hlow := hexValue?_digitChar (show n % 16 < 16 by omega)
  have hlong : ¬ widths (.char '0' :: .char '0' :: .char (Nat.digitChar (n / 16)) ::
      .char (Nat.digitChar (n % 16)) :: rest) < 4 := by
    have hpos := fun c : Char => c.utf8Size_pos
    have h₁ := hpos '0'
    have h₂ := hpos (Nat.digitChar (n / 16))
    have h₃ := hpos (Nat.digitChar (n % 16))
    simp only [widths_char_cons]
    omega
  have hnumber : ((0 * 16 + 0) * 16 + n / 16) * 16 + n % 16 = n := by omega
  rw [hexQuad, if_neg hlong]
  simp only [hzero, hhigh, hlow, hnumber]

theorem numbered_digits {n : Nat} (h : n < 256) (rest : List Piece) :
    numbered (.char '0' :: .char '0' :: .char (Nat.digitChar (n / 16)) ::
      .char (Nat.digitChar (n % 16)) :: rest) = .ok (Char.ofNat n, rest) := by
  have hno : ¬ (0xDC00 ≤ n ∧ n ≤ 0xDFFF) := by omega
  have hplain : n < 0xD800 ∨ 0xDBFF < n := by omega
  simp only [numbered, hexQuad_digits h, bind, Except.bind, if_neg hno, if_pos hplain]

theorem stringBody_escapedChar (fuel : Nat) (c : Char) (rest : List Piece) :
    stringBody (fuel + 1) none ((escapedChar c).map .char ++ rest) =
      (stringBody fuel none rest).map fun r => (c :: r.1, r.2) := by
  unfold escapedChar
  split_ifs with hquote hslash hline hreturn htab hback hfeed hcontrol
  · subst hquote
    rfl
  · subst hslash
    rfl
  · subst hline
    rfl
  · subst hreturn
    rfl
  · subst htab
    rfl
  · subst hback
    rfl
  · subst hfeed
    rfl
  · have hsmall : c.toNat < 256 := by omega
    have hescaped := numbered_digits hsmall rest
    rw [Char.ofNat_toNat] at hescaped
    simp [stringBody, escaped, hescaped, bind, Except.bind, Except.map, pure, Except.pure]
  · simp [stringBody, hquote, hslash, hcontrol, bind, Except.bind, Except.map, pure, Except.pure]

theorem stringBody_escaped {cs : List Char} {fuel : Nat} (hfuel : cs.length < fuel)
    (rest : List Piece) :
    stringBody fuel none ((cs.flatMap escapedChar).map .char ++ .char '"' :: rest) =
      .ok (cs, rest) := by
  induction cs generalizing fuel with
  | nil =>
      obtain ⟨fuel, rfl⟩ := Nat.exists_eq_succ_of_ne_zero (Nat.ne_zero_of_lt hfuel)
      rfl
  | cons c cs ih =>
      obtain ⟨fuel, rfl⟩ := Nat.exists_eq_succ_of_ne_zero (Nat.ne_zero_of_lt hfuel)
      rw [List.flatMap_cons, List.map_append, List.append_assoc, stringBody_escapedChar,
        ih (Nat.lt_of_succ_lt_succ hfuel)]
      rfl

theorem escapedChar_ne_nil (c : Char) : escapedChar c ≠ [] := by
  unfold escapedChar
  split_ifs <;> exact List.cons_ne_nil _ _

theorem length_le_length_escaped (cs : List Char) :
    cs.length ≤ (cs.flatMap escapedChar).length := by
  induction cs with
  | nil => exact le_rfl
  | cons c cs ih =>
      have hpos := List.length_pos_iff.mpr (escapedChar_ne_nil c)
      rw [List.flatMap_cons, List.length_append, List.length_cons]
      omega

theorem map_quote_append (s : String) (rest : List Piece) :
    (quote s).map .char ++ rest =
      .char '"' :: ((s.toList.flatMap escapedChar).map .char ++ .char '"' :: rest) := by
  simp [quote]

theorem string_quote (s : String) (rest : List Piece) :
    string ((s.toList.flatMap escapedChar).map .char ++ .char '"' :: rest) = .ok (s, rest) := by
  have hfuel : s.toList.length <
      ((s.toList.flatMap escapedChar).map Piece.char ++ .char '"' :: rest).length + 1 := by
    have hescaped := length_le_length_escaped s.toList
    rw [List.length_append, List.length_map]
    omega
  rw [string, stringBody_escaped hfuel]
  simp only [bind, Except.bind, pure, Except.pure, String.ofList_toList]

end TaskAudit.Json
