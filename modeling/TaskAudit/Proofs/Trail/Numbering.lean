import Mathlib
import TaskAudit.Proofs.Decimal
import TaskAudit.Trail.Dialect

/-!
# The marks of a text

The question marks of a template cut it into pieces. Numbering keeps the pieces and puts a dollar
sign and a number in the place of every question mark, from one up to as many as there are. A
number ends where the next piece begins, unless that begins with a digit. If no piece has a dollar
sign either, then the dollar signs with all the digits behind them stand where the question marks
were, and the template can be got back.
-/
namespace TaskAudit.Dialect

def mark : Dialect → Nat → List Char
  | positional, _ => ['?']
  | numbered, k => '$' :: Decimal.digits k

/-- Pieces of a text with a mark between each two, numbered from `n + 1` on. -/
def withMarks (d : Dialect) : Nat → List (List Char) → List Char
  | _, [] => []
  | _, [piece] => piece
  | n, piece :: next :: pieces => piece ++ d.mark (n + 1) ++ d.withMarks (n + 1) (next :: pieces)

section

variable (d : Dialect) (n : Nat) (piece : List Char) (pieces : List (List Char))

theorem withMarks_cons_cons (c : Char) :
    d.withMarks n ((c :: piece) :: pieces) = c :: d.withMarks n (piece :: pieces) := by
  cases pieces with
  | nil => rfl
  | cons next pieces => rfl

theorem withMarks_cons : d.withMarks n (piece :: pieces) =
    piece ++ (pieces.zipIdx (n + 1)).flatMap fun p => d.mark p.2 ++ p.1 := by
  induction pieces generalizing n piece with
  | nil => exact (List.append_nil piece).symm
  | cons next pieces ih =>
      rw [withMarks, ih, List.zipIdx_cons, List.flatMap_cons]
      simp only [List.append_assoc]

theorem withMarks_positional : positional.withMarks n pieces = ['?'].intercalate pieces := by
  induction pieces generalizing n with
  | nil => rfl
  | cons piece pieces ih =>
      cases pieces with
      | nil => exact List.intercalate_singleton.symm
      | cons next pieces =>
          rw [withMarks, ih, List.intercalate_cons_cons]
          rfl

end

theorem exists_pieces (cs : List Char) :
    ∃ pieces : List (List Char), pieces.length = cs.count '?' + 1 ∧
      (∀ piece ∈ pieces, '?' ∉ piece ∧ piece ⊆ cs) ∧ cs = ['?'].intercalate pieces := by
  induction cs with
  | nil => exact ⟨[[]], rfl, by simp, rfl⟩
  | cons c cs ih =>
      obtain ⟨pieces, hlength, hpieces, htext⟩ := ih
      have hlater : ∀ piece ∈ pieces, '?' ∉ piece ∧ piece ⊆ c :: cs :=
        fun piece hpiece => (hpieces piece hpiece).imp id (List.subset_cons_of_subset c)
      cases pieces with
      | nil => cases hlength
      | cons piece pieces =>
          -- a question mark begins a piece, anything else belongs to the first one of the rest
          by_cases hc : c = '?'
          · refine ⟨[] :: piece :: pieces, ?_, ?_, ?_⟩
            · rw [hc, List.count_cons_self, List.length_cons, hlength]
            · rw [List.forall_mem_cons]
              exact ⟨⟨List.not_mem_nil, List.nil_subset _⟩, hlater⟩
            · rw [List.intercalate_cons_cons, ← htext, hc]
              rfl
          · rw [List.forall_mem_cons] at hpieces hlater
            have hfirst : '?' ∉ c :: piece := by
              rw [List.mem_cons, not_or]
              exact ⟨Ne.symm hc, hpieces.1.1⟩
            refine ⟨(c :: piece) :: pieces, ?_, ?_, ?_⟩
            · rw [List.count_cons_of_ne hc]
              exact hlength
            · rw [List.forall_mem_cons]
              exact ⟨⟨hfirst, List.cons_subset_cons c hpieces.1.2⟩, hlater.2⟩
            · rw [← withMarks_positional 0, withMarks_cons_cons, withMarks_positional, ← htext]

section

variable {n : Nat} {cs : List Char}

theorem number_mark (n : Nat) (cs : List Char) :
    number n ('?' :: cs) = numbered.mark (n + 1) ++ number (n + 1) cs := by
  rw [number, if_pos rfl]
  rfl

theorem number_cons {c : Char} (hc : c ≠ '?') (n : Nat) (cs : List Char) :
    number n (c :: cs) = c :: number n cs := by
  rw [number, if_neg hc]

/-- The numbers behind a text go on from the number of its question marks. -/
theorem number_append (n : Nat) (cs more : List Char) :
    number n (cs ++ more) = number n cs ++ number (n + cs.count '?') more := by
  induction cs generalizing n with
  | nil => rfl
  | cons c cs ih =>
      rw [List.cons_append]
      by_cases hc : c = '?'
      · rw [hc, number_mark, number_mark, ih, List.count_cons_self, List.append_assoc,
          Nat.add_assoc, Nat.add_comm 1]
      · rw [number_cons hc, number_cons hc, ih, List.count_cons_of_ne hc, List.cons_append]

theorem number_of_notMem (h : '?' ∉ cs) : number n cs = cs := by
  induction cs with
  | nil => rfl
  | cons c cs ih =>
      rw [List.mem_cons, not_or] at h
      rw [number_cons (Ne.symm h.1), ih h.2]

theorem number_withMarks {pieces : List (List Char)} (h : ∀ piece ∈ pieces, '?' ∉ piece) :
    number n (positional.withMarks n pieces) = numbered.withMarks n pieces := by
  induction pieces generalizing n with
  | nil => rfl
  | cons piece pieces ih =>
      rw [List.forall_mem_cons] at h
      cases pieces with
      | nil => exact number_of_notMem h.1
      | cons next pieces =>
          have hmark : positional.mark (n + 1) = ['?'] := rfl
          rw [withMarks, withMarks, hmark, List.append_assoc, List.singleton_append,
            number_append, number_of_notMem h.1, List.count_eq_zero_of_not_mem h.1,
            Nat.add_zero, number_mark, ih h.2, List.append_assoc]

theorem toList_express (d : Dialect) {template : String} {pieces : List (List Char)}
    (htext : template.toList = ['?'].intercalate pieces) (h : ∀ piece ∈ pieces, '?' ∉ piece) :
    (d.express template).toList = d.withMarks 0 pieces := by
  rw [← withMarks_positional 0] at htext
  cases d with
  | positional => exact htext
  | numbered => rw [express, String.toList_ofList, htext, number_withMarks h]

theorem notMem_mark (k : Nat) : '?' ∉ numbered.mark k := by
  rw [mark, List.mem_cons, not_or]
  exact ⟨by decide, Decimal.notMem_digits rfl k⟩

theorem notMem_number (n : Nat) (cs : List Char) : '?' ∉ number n cs := by
  induction cs generalizing n with
  | nil => exact List.not_mem_nil
  | cons c cs ih =>
      by_cases hc : c = '?'
      · rw [hc, number_mark, List.mem_append, not_or]
        exact ⟨notMem_mark (n + 1), ih (n + 1)⟩
      · rw [number_cons hc, List.mem_cons, not_or]
        exact ⟨Ne.symm hc, ih n⟩

end

/-- The text with a question mark in the place of every dollar sign that has digits behind it,
together with all these digits. -/
def unnumber : List Char → List Char
  | [] => []
  | c :: cs =>
    if c = '$' ∧ cs.head?.any Char.isDigit then '?' :: unnumber (cs.dropWhile Char.isDigit)
    else c :: unnumber cs
termination_by cs => cs.length
decreasing_by
  · exact Nat.lt_succ_of_le (List.length_dropWhile_le ..)
  · exact Nat.lt_succ_self _

/-- Nothing in the text can be taken for a number or for a part of one: it has no dollar sign, and
no digit right behind a question mark. -/
structure Unambiguous (cs : List Char) : Prop where
  dollar : '$' ∉ cs
  digit : cs.IsChain fun c d => c = '?' → d.isDigit = false

instance (cs : List Char) : Decidable (Unambiguous cs) :=
  decidable_of_iff ('$' ∉ cs ∧ cs.IsChain fun c d => c = '?' → d.isDigit = false)
    ⟨fun h => ⟨h.1, h.2⟩, fun h => ⟨h.1, h.2⟩⟩

section

variable {c : Char} {cs rest : List Char}

theorem Unambiguous.tail (h : Unambiguous (c :: cs)) : Unambiguous cs :=
  ⟨fun hmem => h.dollar (List.mem_cons_of_mem c hmem), h.digit.tail⟩

theorem unnumber_cons (hc : c ≠ '$') : unnumber (c :: cs) = c :: unnumber cs := by
  rw [unnumber, if_neg fun h => hc h.1]

theorem unnumber_mark (k : Nat) (hrest : ∀ c ∈ rest.head?, c.isDigit = false) :
    unnumber (numbered.mark k ++ rest) = '?' :: unnumber rest := by
  have hdigits : ∀ c ∈ Decimal.digits k, c.isDigit = true :=
    fun c => Decimal.isDigit_of_mem_digits
  have hhead : (Decimal.digits k ++ rest).head?.any Char.isDigit = true := by
    obtain ⟨d, ds, hds, hd⟩ := Decimal.exists_digits_eq_cons k
    rw [hds]
    exact hd
  have hend : rest.dropWhile Char.isDigit = rest := by
    cases rest with
    | nil => rfl
    | cons c rest =>
        have hc : c.isDigit = false := hrest c rfl
        exact List.dropWhile_cons_of_neg (by simp [hc])
  rw [mark, List.cons_append, unnumber, if_pos ⟨rfl, hhead⟩,
    List.dropWhile_append_of_pos hdigits, hend]

theorem head_number (h : Unambiguous ('?' :: cs)) (n : Nat) :
    ∀ c ∈ (number n cs).head?, c.isDigit = false := by
  cases cs with
  | nil => simp [number]
  | cons d cs =>
      have hd : d.isDigit = false := (List.isChain_cons_cons.mp h.digit).1 rfl
      by_cases hmark : d = '?'
      · rw [hmark, number_mark, mark, List.cons_append]
        simp
      · rw [number_cons hmark]
        simpa using hd

/-- Whatever the first number is, the numbers are found again. -/
theorem unnumber_number (h : Unambiguous cs) (n : Nat) : unnumber (number n cs) = cs := by
  induction cs generalizing n with
  | nil => rw [number, unnumber]
  | cons c cs ih =>
      by_cases hc : c = '?'
      · subst hc
        rw [number_mark, unnumber_mark (n + 1) (head_number h (n + 1)), ih h.tail]
      · have hdollar : c ≠ '$' := fun heq => h.dollar (heq ▸ List.mem_cons_self)
        rw [number_cons hc, unnumber_cons hdollar, ih h.tail]

end

/-- A template as its first piece and the pieces behind its question marks. -/
structure Cut (template first : String) (later : List String) : Prop where
  unmarked : ∀ piece ∈ first :: later, '?' ∉ piece.toList
  joined : template = "?".intercalate (first :: later)

theorem exists_cut (template : String) : ∃ first later, Cut template first later := by
  obtain ⟨pieces, hlength, hpieces, htext⟩ := exists_pieces template.toList
  cases pieces with
  | nil => cases hlength
  | cons piece pieces =>
      refine ⟨String.ofList piece, pieces.map String.ofList, ?_, ?_⟩
      · rw [← List.map_cons, List.forall_mem_map]
        intro piece hpiece
        rw [String.toList_ofList]
        exact (hpieces piece hpiece).1
      · rw [← String.toList_inj, String.toList_intercalate, ← List.map_cons, htext]
        simp [Function.comp_def]

theorem Cut.express_numbered {template first : String} {later : List String}
    (h : Cut template first later) : numbered.express template =
      first ++ String.join ((later.zipIdx 1).map fun p => "$" ++ toString p.2 ++ p.1) := by
  have hpieces : ∀ piece ∈ (first :: later).map String.toList, '?' ∉ piece := by
    rw [List.forall_mem_map]
    exact h.unmarked
  have htext : template.toList = ['?'].intercalate ((first :: later).map String.toList) := by
    rw [h.joined, String.toList_intercalate]
    rfl
  have hmark : ∀ k, numbered.mark k = ("$" ++ toString k).toList := by
    intro k
    rw [String.toList_append, Nat.toString_eq_repr, Nat.toList_repr]
    rfl
  rw [← String.toList_inj, toList_express numbered htext hpieces, List.map_cons, withMarks_cons,
    String.toList_append, String.toList_join, List.flatMap_map, List.zipIdx_map, List.flatMap_map]
  simp only [hmark, String.toList_append, Prod.map_fst, Prod.map_snd, id_eq]

/-- The template of a text with numbered marks. -/
def unexpress (text : String) : String := String.ofList (unnumber text.toList)

theorem unexpress_express {template : String} (h : Unambiguous template.toList) :
    unexpress (numbered.express template) = template := by
  rw [unexpress, express, String.toList_ofList, unnumber_number h, String.ofList_toList]

-- a dollar sign of the template cannot be told from that of a mark
example : numbered.express "?" = numbered.express "$1" := by decide

/-- Positional texts are the templates. Numbered texts have the pieces of the template, and
between them the numbers from one on. They have no marks to be numbered again, and unambiguous
templates can be told from them. -/
theorem express_marks_reversibly (template : String) :
    positional.express template = template ∧
    (∃ first later, Cut template first later) ∧
    (∀ first later, Cut template first later → numbered.express template =
      first ++ String.join ((later.zipIdx 1).map fun p => "$" ++ toString p.2 ++ p.1)) ∧
    numbered.express (numbered.express template) = numbered.express template ∧
    (Unambiguous template.toList → unexpress (numbered.express template) = template ∧
      ∀ other : String, Unambiguous other.toList →
        numbered.express other = numbered.express template → other = template) := by
  refine ⟨rfl, exists_cut template, fun first later => Cut.express_numbered, ?_, fun h => ?_⟩
  · rw [express, express, String.toList_ofList, number_of_notMem (notMem_number 0 _)]
  · refine ⟨unexpress_express h, fun other hother heq => ?_⟩
    rw [← unexpress_express hother, heq, unexpress_express h]

/-- The tenth number has two digits, and ends where the bracket closes. -/
theorem express_marks_reversibly_of_ten :
    let template := "(?, ?, ?, ?, ?, ?, ?, ?, ?, ?)"
    let other := "(?, ?, ?, ?, ?, ?, ?, ?, ?, ?]"
    let later := List.replicate 9 ", " ++ [")"]
    Cut template "(" later ∧ Unambiguous template.toList ∧ Unambiguous other.toList ∧
      numbered.express template = "($1, $2, $3, $4, $5, $6, $7, $8, $9, $10)" ∧
      unexpress (numbered.express template) = template ∧
      numbered.express other ≠ numbered.express template := by
  intro template other later
  have hcut : Cut template "(" later := ⟨by decide, by decide⟩
  have htemplate : Unambiguous template.toList := by decide
  have hother : Unambiguous other.toList := by decide
  obtain ⟨-, -, hpieces, -, hback⟩ := express_marks_reversibly template
  obtain ⟨hsame, honly⟩ := hback htemplate
  refine ⟨hcut, htemplate, hother, ?_, hsame, ?_⟩
  · rw [hpieces _ _ hcut]
    decide
  · intro heq
    have hne : other ≠ template := by decide
    exact hne (honly other hother heq)

end TaskAudit.Dialect
