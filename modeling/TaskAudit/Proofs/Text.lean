import Mathlib
import TaskAudit.Text.Blank
import TaskAudit.Text.Parts

/-!
# Texts in parts and without blanks

Taking the blanks off a text leaves the one core that has none at its ends, and cutting a text
at a mark gives the one list of parts that have no mark and make up the text when they are joined.
-/
namespace TaskAudit.Text

variable {cs core before after : List Char} {mark c : Char} {parts : List (List Char)}

def IsBlankText (cs : List Char) : Prop := ∀ c ∈ cs, isBlank c = true

instance (cs : List Char) : Decidable (IsBlankText cs) :=
  decidable_of_iff (cs.all isBlank = true) List.all_eq_true

def IsTrimmed (cs : List Char) : Prop :=
  ∀ h : cs ≠ [], isBlank (cs.head h) = false ∧ isBlank (cs.getLast h) = false

instance (cs : List Char) : Decidable (IsTrimmed cs) :=
  inferInstanceAs (Decidable (∀ h : cs ≠ [],
    isBlank (cs.head h) = false ∧ isBlank (cs.getLast h) = false))

inductive IsPadded (core : List Char) : List Char → Prop where
  | pad {before after : List Char} (hbefore : IsBlankText before) (hafter : IsBlankText after) :
    IsPadded core (before ++ core ++ after)

theorem isTrimmed_of_forall (h : ∀ c ∈ cs, isBlank c = false) : IsTrimmed cs :=
  fun hne => ⟨h _ (List.head_mem hne), h _ (List.getLast_mem hne)⟩

theorem isBlank_of_isDigit (h : c.isDigit = true) : isBlank c = false := by
  have hnat : 48 ≤ c.toNat ∧ c.toNat ≤ 57 := Char.isDigit_iff_toNat.mp h
  simp [isBlank]
  omega

theorem trimStart_cons (h : isBlank c = false) (cs : List Char) :
    trimStart (c :: cs) = c :: cs := by
  rw [trimStart, List.dropWhile_cons_of_neg (by simp [h])]

theorem trimStart_digits (hne : cs ≠ []) (hcs : ∀ c ∈ cs, c.isDigit = true)
    (rest : List Char) : trimStart (cs ++ rest) = cs ++ rest := by
  obtain ⟨c, more, rfl⟩ := List.exists_cons_of_ne_nil hne
  exact trimStart_cons (isBlank_of_isDigit (hcs c List.mem_cons_self)) (more ++ rest)

theorem isBlankText_nil : IsBlankText [] := nofun

theorem IsTrimmed.append (hbefore : IsTrimmed before) (hafter : IsTrimmed after)
    (hne : before ≠ []) (hne' : after ≠ []) (cs : List Char) :
    IsTrimmed (before ++ cs ++ after) := by
  intro h
  constructor
  · rw [List.head_append_of_ne_nil (List.append_ne_nil_of_left_ne_nil hne cs),
      List.head_append_of_ne_nil hne]
    exact (hbefore hne).1
  · rw [List.getLast_append_of_ne_nil _ hne']
    exact (hafter hne').2

theorem notMem_of_isBlankText (hc : isBlank c = false) (h : IsBlankText cs) : c ∉ cs :=
  fun hmem => Bool.false_ne_true (hc.symm.trans (h c hmem))

theorem IsPadded.notMem (hc : isBlank c = false) (hcore : c ∉ core) (h : IsPadded core cs) :
    c ∉ cs := by
  obtain ⟨hbefore, hafter⟩ := h
  rw [List.mem_append, List.mem_append, not_or, not_or]
  exact ⟨⟨notMem_of_isBlankText hc hbefore, hcore⟩, notMem_of_isBlankText hc hafter⟩

theorem IsPadded.refl (core : List Char) : IsPadded core core := by
  have h : IsPadded core ([] ++ core ++ []) := .pad isBlankText_nil isBlankText_nil
  rwa [List.nil_append, List.append_nil] at h

theorem trim_eq_nil_iff : trim cs = [] ↔ IsBlankText cs := by
  unfold trim trimEnd trimStart
  rw [List.reverse_eq_nil_iff, List.dropWhile_eq_nil_iff]
  constructor
  · intro h c hc
    rw [← List.takeWhile_append_dropWhile (p := isBlank) (l := cs)] at hc
    rcases List.mem_append.mp hc with hc | hc
    · exact List.mem_takeWhile_imp hc
    · exact h c (List.mem_reverse.mpr hc)
  · intro h c hc
    exact h c ((List.dropWhile_sublist isBlank).mem (List.mem_reverse.mp hc))

theorem trim_isTrimmed (cs : List Char) : IsTrimmed (trim cs) := by
  intro h
  have hbegin : trim cs <+: trimStart cs := List.rdropWhile_prefix isBlank (trimStart cs)
  have hstart : trimStart cs ≠ [] := hbegin.ne_nil h
  constructor
  · rw [hbegin.head h]
    exact List.head_dropWhile_not isBlank hstart
  · exact Bool.eq_false_of_not_eq_true (List.rdropWhile_last_not isBlank (trimStart cs) h)

theorem isPadded_trim (cs : List Char) : IsPadded (trim cs) cs := by
  have hend : trim cs ++ (trimStart cs).rtakeWhile isBlank = trimStart cs :=
    List.rdropWhile_append_rtakeWhile
  have hcs : cs.takeWhile isBlank ++ trim cs ++ (trimStart cs).rtakeWhile isBlank = cs := by
    rw [List.append_assoc, hend]
    exact List.takeWhile_append_dropWhile
  have hpadded : IsPadded (trim cs) (cs.takeWhile isBlank ++ trim cs ++
      (trimStart cs).rtakeWhile isBlank) :=
    .pad (fun _ hc => List.mem_takeWhile_imp hc) fun _ hc => List.mem_rtakeWhile_imp hc
  rwa [hcs] at hpadded

theorem trimEnd_append (h : IsBlankText after) : trimEnd (cs ++ after) = trimEnd cs := by
  unfold trimEnd
  rw [List.reverse_append, List.dropWhile_append_of_pos fun c hc => h c (List.mem_reverse.mp hc)]

theorem trim_eq_iff : trim cs = core ↔ IsPadded core cs ∧ IsTrimmed core := by
  constructor
  · rintro rfl
    exact ⟨isPadded_trim cs, trim_isTrimmed cs⟩
  · rintro ⟨⟨hbefore, hafter⟩, htrimmed⟩
    unfold trim trimStart
    rw [List.append_assoc, List.dropWhile_append_of_pos hbefore]
    cases core with
    | nil =>
        rw [List.nil_append, List.dropWhile_eq_nil_iff.mpr hafter]
        rfl
    | cons c cs =>
        obtain ⟨hhead, hlast⟩ := htrimmed (List.cons_ne_nil c cs)
        have hc : ¬ isBlank c = true := Bool.eq_false_iff.mp hhead
        rw [List.cons_append, List.dropWhile_cons_of_neg hc, ← List.cons_append,
          trimEnd_append hafter]
        exact List.rdropWhile_eq_self_iff.mpr fun _ => Bool.eq_false_iff.mp hlast

theorem flatten_split (mark : Char) (cs : List Char) :
    (split mark cs).flatten = cs.filter (· ≠ mark) := by
  induction cs with
  | nil => rfl
  | cons c cs ih =>
      by_cases hc : c = mark
      · simp [split, hc, ih]
      · simp only [split, if_neg hc]
        cases hparts : split mark cs with
        | nil => exact absurd hparts (split_ne_nil mark cs)
        | cons part parts =>
            rw [hparts] at ih
            simpa [hc] using ih

theorem notMem_of_mem_split {part : List Char} (h : part ∈ split mark cs) : mark ∉ part := by
  intro hmark
  have hmem := List.mem_flatten_of_mem h hmark
  rw [flatten_split] at hmem
  simp at hmem

theorem split_of_notMem (h : mark ∉ cs) : split mark cs = [cs] := by
  induction cs with
  | nil => rfl
  | cons c cs ih =>
      rw [List.mem_cons, not_or] at h
      rw [split, if_neg (Ne.symm h.1), ih h.2]

theorem split_append (h : mark ∉ before) :
    split mark (before ++ mark :: after) = before :: split mark after := by
  induction before with
  | nil => rw [List.nil_append, split, if_pos rfl]
  | cons c before ih =>
      rw [List.mem_cons, not_or] at h
      rw [List.cons_append, split, if_neg (Ne.symm h.1), ih h.2]

theorem split_join (hne : parts ≠ []) (h : ∀ part ∈ parts, mark ∉ part) :
    split mark (join mark parts) = parts := by
  induction parts with
  | nil => exact absurd rfl hne
  | cons part parts ih =>
      obtain ⟨hpart, hparts⟩ := List.forall_mem_cons.mp h
      cases parts with
      | nil => exact split_of_notMem hpart
      | cons next rest =>
          rw [join, split_append hpart, ih (List.cons_ne_nil next rest) hparts]
          exact List.cons_ne_nil next rest

theorem split_eq_iff :
    split mark cs = parts ↔
      parts ≠ [] ∧ cs = join mark parts ∧ ∀ part ∈ parts, mark ∉ part := by
  constructor
  · rintro rfl
    exact ⟨split_ne_nil mark cs, (join_split mark cs).symm, fun _ => notMem_of_mem_split⟩
  · rintro ⟨hne, rfl, hparts⟩
    exact split_join hne hparts

end TaskAudit.Text
