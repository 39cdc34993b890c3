import Mathlib
import TaskAudit.Proofs.Decimal
import TaskAudit.Trail.Dialect

/-!
# The words of a statement

A database reads a statement word by word. Blanks, line breaks and signs end a word; a question
mark stands for the value whose turn it is, and a dollar sign with a number for the value with
that number. A text in which the question marks are numbered is read as the same words, signs
and marks, if it had no dollar sign and no digit before.
-/
namespace TaskAudit.Sql

/-- A word, a sign, or the mark of the value with a number; the first value has the number one. -/
inductive Token where
  | word (s : String)
  | sign (c : Char)
  | mark (k : Nat)
  deriving DecidableEq, Repr

def Token.ofWord : List Char → Token
  | '$' :: digits => .mark (Decimal.value digits)
  | cs => .word (String.ofList cs)

/-- What was read of a text: the tokens, the word that has not ended, and the number of question
marks. -/
structure Scan where
  tokens : List Token := []
  word : List Char := []
  marks : Nat := 0
  deriving DecidableEq, Repr

def signs : List Char := ['(', ')', ',', '=']

namespace Scan

def flush (s : Scan) : Scan :=
  if s.word = [] then s else { s with tokens := s.tokens ++ [Token.ofWord s.word], word := [] }

def emit (s : Scan) (t : Token) : Scan := { s.flush with tokens := s.flush.tokens ++ [t] }

/-- Reads one more character. Only digits continue a word that begins with a dollar sign. -/
def step (s : Scan) (c : Char) : Scan :=
  if c.isWhitespace then s.flush
  else if c = '?' then { s.emit (.mark (s.marks + 1)) with marks := s.marks + 1 }
  else if c ∈ signs then s.emit (.sign c)
  else if c = '$' ∨ s.word.head? = some '$' ∧ c.isDigit = false then { s.flush with word := [c] }
  else { s with word := s.word ++ [c] }

end Scan

def tokens (text : String) : List Token := (text.toList.foldl Scan.step {}).flush.tokens

/-- A statement that is written with question marks has no dollar signs and no digits. -/
def IsPlain (c : Char) : Prop := c ≠ '$' ∧ c.isDigit = false

instance (c : Char) : Decidable (IsPlain c) :=
  inferInstanceAs (Decidable (c ≠ '$' ∧ c.isDigit = false))

namespace Scan

theorem step_digit {c : Char} (h : c.isDigit = true) (ts : List Token) (ds : List Char)
    (m : Nat) : step ⟨ts, '$' :: ds, m⟩ c = ⟨ts, '$' :: (ds ++ [c]), m⟩ := by
  have hne : ∀ d : Char, d.isDigit = false → c ≠ d := fun _ => Decimal.ne_of_isDigit h
  have hsign : c ∉ signs := by
    simp only [signs, List.mem_cons, List.not_mem_nil, or_false, not_or]
    exact ⟨hne _ rfl, hne _ rfl, hne _ rfl, hne _ rfl⟩
  have hblank : ¬ c.isWhitespace = true := by
    simp only [Char.isWhitespace, Bool.or_eq_true, decide_eq_true_eq, not_or]
    exact ⟨⟨⟨hne _ rfl, hne _ rfl⟩, hne _ rfl⟩, hne _ rfl⟩
  unfold step
  rw [if_neg hblank, if_neg (hne _ rfl), if_neg hsign, if_neg]
  · rfl
  · rintro (hdollar | ⟨-, hdigit⟩)
    · exact hne _ rfl hdollar
    · rw [h] at hdigit
      cases hdigit

theorem foldl_digits {cs : List Char} (h : ∀ c ∈ cs, c.isDigit = true) (ts : List Token)
    (ds : List Char) (m : Nat) :
    cs.foldl step ⟨ts, '$' :: ds, m⟩ = ⟨ts, '$' :: (ds ++ cs), m⟩ := by
  induction cs generalizing ds with
  | nil => simp
  | cons c cs ih =>
      rw [List.forall_mem_cons] at h
      rw [List.foldl_cons, step_digit h.1, ih h.2, List.append_assoc, List.singleton_append]

/-- The first scan has read question marks where the second has read numbers. If the last thing
was a mark, the second does not know yet that its number has ended. -/
inductive Matches : Scan → Scan → Prop where
  | same {ts : List Token} {w : List Char} {m m' : Nat} (hw : w.head? ≠ some '$') :
    Matches ⟨ts, w, m⟩ ⟨ts, w, m'⟩
  | pending {ts : List Token} {k m m' : Nat} :
    Matches ⟨ts ++ [.mark k], [], m⟩ ⟨ts, '$' :: Decimal.digits k, m'⟩

theorem Matches.flush {s s' : Scan} (h : Matches s s') : s'.flush.tokens = s.flush.tokens := by
  cases h with
  | @same ts w m m' hw =>
      unfold Scan.flush
      split_ifs with hw <;> rfl
  | pending => simp [Scan.flush, Token.ofWord, Decimal.value_digits]

theorem Matches.step {s s' : Scan} (h : Matches s s') {c : Char} (hplain : IsPlain c)
    (hc : c ≠ '?') : Matches (s.step c) (s'.step c) := by
  obtain ⟨hdollar, hdigit⟩ := hplain
  unfold Scan.step
  rw [if_neg hc, if_neg hc]
  cases h with
  | @same ts w m m' hw =>
      split_ifs with hblank hsign hbegin
      · unfold Scan.flush
        split_ifs
        · exact .same hw
        · exact .same (by simp)
      · unfold Scan.emit Scan.flush
        split_ifs
        · exact .same hw
        · exact .same (by simp)
      · rcases hbegin with hbegin | ⟨hbegin, -⟩
        · exact absurd hbegin hdollar
        · exact absurd hbegin hw
      · refine .same ?_
        cases w with
        | nil => simpa using hdollar
        | cons d ds => simpa using hw
  | @pending ts k m m' =>
      have hflush : Scan.flush ⟨ts, '$' :: Decimal.digits k, m'⟩ = ⟨ts ++ [.mark k], [], m'⟩ := by
        simp [Scan.flush, Token.ofWord, Decimal.value_digits]
      split_ifs with hblank hsign hbegin hbegin' hbegin'
      · rw [hflush]
        exact .same (by simp)
      · unfold Scan.emit
        rw [hflush]
        exact .same (by simp [Scan.flush])
      · simp [hdollar] at hbegin
      · simp [hdollar] at hbegin
      · rw [hflush]
        exact .same (by simpa using hdollar)
      · simp [hdigit] at hbegin'

theorem marks_step {s : Scan} {c : Char} (hc : c ≠ '?') : (s.step c).marks = s.marks := by
  unfold step
  rw [if_neg hc]
  unfold emit flush
  split_ifs <;> rfl

theorem step_mark (s : Scan) :
    s.step '?' = ⟨s.flush.tokens ++ [.mark (s.marks + 1)], [], s.marks + 1⟩ := by
  unfold step emit flush
  split_ifs <;> simp_all

theorem Matches.mark {s s' : Scan} (h : Matches s s') :
    Matches (s.step '?') (('$' :: Decimal.digits (s.marks + 1)).foldl Scan.step s') := by
  have hnumber : ('$' :: Decimal.digits (s.marks + 1)).foldl Scan.step s' =
      ⟨s'.flush.tokens, '$' :: Decimal.digits (s.marks + 1), s'.flush.marks⟩ := by
    have hdollar : Scan.step s' '$' = ⟨s'.flush.tokens, ['$'], s'.flush.marks⟩ := by
      simp [Scan.step, signs]
    rw [List.foldl_cons, hdollar, foldl_digits fun c => Decimal.isDigit_of_mem_digits,
      List.nil_append]
  rw [hnumber, step_mark, h.flush]
  exact .pending

/-- Numbering the question marks does not change what is read. -/
theorem Matches.foldl_number {cs : List Char} (hplain : ∀ c ∈ cs, IsPlain c) {s s' : Scan}
    (h : Matches s s') :
    Matches (cs.foldl Scan.step s) ((Dialect.number s.marks cs).foldl Scan.step s') := by
  induction cs generalizing s s' with
  | nil => exact h
  | cons c cs ih =>
      rw [List.forall_mem_cons] at hplain
      rw [Dialect.number]
      split_ifs with hc
      · subst hc
        have hmarks : (s.step '?').marks = s.marks + 1 := by rw [step_mark]
        rw [List.foldl_cons, List.foldl_append, ← hmarks]
        exact ih hplain.2 (hmarks ▸ h.mark)
      · rw [List.foldl_cons, List.foldl_cons, ← marks_step hc]
        exact ih hplain.2 (h.step hplain.1 hc)

end Scan

theorem tokens_express (d : Dialect) {text : String} (hplain : ∀ c ∈ text.toList, IsPlain c) :
    tokens (d.express text) = tokens text := by
  cases d with
  | positional => rfl
  | numbered =>
      unfold tokens Dialect.express
      rw [String.toList_ofList]
      exact (Scan.Matches.foldl_number hplain (.same (by simp))).flush

example : tokens "LIMIT $12" = tokens "LIMIT" ++ [.mark 12] := by decide +kernel

namespace Scan

theorem marks_foldl (cs : List Char) (s : Scan) :
    (cs.foldl step s).marks = s.marks + cs.count '?' := by
  induction cs generalizing s with
  | nil => rfl
  | cons c cs ih =>
      rw [List.foldl_cons, ih]
      by_cases hc : c = '?'
      · rw [hc, step_mark, List.count_cons_self]
        exact Nat.add_right_comm s.marks 1 _
      · rw [marks_step hc, List.count_cons_of_ne hc]

/-- Text without a question mark leaves the number of marks, and adds to the tokens. -/
theorem foldl_frame {cs : List Char} (h : '?' ∉ cs) (ts : List Token) (n : Nat) (s : Scan) :
    cs.foldl step ⟨ts ++ s.tokens, s.word, n⟩ =
      ⟨ts ++ (cs.foldl step s).tokens, (cs.foldl step s).word, n⟩ := by
  induction cs generalizing s with
  | nil => rfl
  | cons c cs ih =>
      rw [List.mem_cons, not_or] at h
      have hstep : step ⟨ts ++ s.tokens, s.word, n⟩ c =
          ⟨ts ++ (s.step c).tokens, (s.step c).word, n⟩ := by
        unfold step
        rw [if_neg (Ne.symm h.1), if_neg (Ne.symm h.1)]
        unfold emit flush
        split_ifs <;> simp
      rw [List.foldl_cons, List.foldl_cons, hstep]
      exact ih h.2 (s.step c)

end Scan

/-- A plain text with these tokens, if `n` marks came before it; `m` marks came before its end. -/
structure Spells (n : Nat) (cs : List Char) (ts : List Token) (m : Nat) : Prop where
  plain : ∀ c ∈ cs, IsPlain c
  scanned : ∀ us, (cs.foldl Scan.step ⟨us, [], n⟩).flush = ⟨us ++ ts, [], m⟩

namespace Spells

variable {n m k : Nat} {xs ys : List Char} {ts us : List Token}

theorem tokens_eq {text : String} (h : Spells 0 text.toList ts m) : tokens text = ts := by
  unfold tokens
  rw [h.scanned []]
  rfl

theorem count_eq (h : Spells n xs ts m) : n + xs.count '?' = m := by
  have hscanned := congrArg Scan.marks (h.scanned [])
  have hflush : ∀ s : Scan, s.flush.marks = s.marks := by
    intro s
    unfold Scan.flush
    split_ifs <;> rfl
  rwa [hflush, Scan.marks_foldl] at hscanned

theorem nil : Spells n [] [] n :=
  ⟨nofun, fun us => by simp [Scan.flush]⟩

theorem unmarked (hplain : xs.all (fun c => c ≠ '?' && IsPlain c) = true)
    (h : (xs.foldl Scan.step {}).flush.tokens = ts) : Spells n xs ts n := by
  simp only [List.all_eq_true, Bool.and_eq_true, decide_eq_true_eq] at hplain
  have hmark : '?' ∉ xs := fun hmem => (hplain '?' hmem).1 rfl
  refine ⟨fun c hc => (hplain c hc).2, fun us => ?_⟩
  have hframe := Scan.foldl_frame hmark us n {}
  rw [List.append_nil] at hframe
  rw [hframe, ← h]
  unfold Scan.flush
  split_ifs <;> simp_all

theorem mark : Spells n ['?'] [.mark (n + 1)] (n + 1) := by
  refine ⟨List.forall_mem_singleton.mpr (by decide), fun us => ?_⟩
  rw [List.foldl_cons, List.foldl_nil, Scan.step_mark]
  rfl

theorem append_blank (h : Spells n xs ts m) (h' : Spells m ys us k) :
    Spells n (xs ++ ' ' :: ys) (ts ++ us) k := by
  refine ⟨?_, fun ws => ?_⟩
  · rw [List.forall_mem_append, List.forall_mem_cons]
    exact ⟨h.plain, by decide, h'.plain⟩
  · have hstep : ∀ s : Scan, s.step ' ' = s.flush := fun _ => rfl
    rw [List.foldl_append, List.foldl_cons, hstep, h.scanned, h'.scanned, List.append_assoc]

theorem append_sign {c : Char} (hc : c ∈ signs) (h : Spells n xs ts m) (h' : Spells m ys us k) :
    Spells n (xs ++ c :: ys) (ts ++ .sign c :: us) k := by
  have hplain : ¬ c.isWhitespace = true ∧ c ≠ '?' ∧ IsPlain c := by
    simp only [signs, List.mem_cons, List.not_mem_nil, or_false] at hc
    rcases hc with rfl | rfl | rfl | rfl <;> decide
  obtain ⟨hblank, hmark, hc'⟩ := hplain
  refine ⟨?_, fun ws => ?_⟩
  · rw [List.forall_mem_append, List.forall_mem_cons]
    exact ⟨h.plain, hc', h'.plain⟩
  · have hstep : ∀ s : Scan, s.step c = s.emit (.sign c) := by
      intro s
      unfold Scan.step
      rw [if_neg hblank, if_neg hmark, if_pos hc]
    rw [List.foldl_append, List.foldl_cons, hstep, Scan.emit, h.scanned, h'.scanned,
      List.append_assoc, List.append_assoc, List.singleton_append]

end Spells

/-- Texts with their tokens, one after the other. -/
inductive SpellsEach : Nat → List String → List (List Token) → Nat → Prop where
  | nil {n : Nat} : SpellsEach n [] [] n
  | cons {n m k : Nat} {x : String} {xs : List String} {ts : List Token} {tss : List (List Token)}
    (h : Spells n x.toList ts m) (hs : SpellsEach m xs tss k) : SpellsEach n (x :: xs) (ts :: tss) k

/-- Does a text between two others stand for a token between theirs? -/
def Joins (separator : String) (t : Token) : Prop :=
  ∀ {n m k xs ys ts us}, Spells n xs ts m → Spells m ys us k →
    Spells n (xs ++ separator.toList ++ ys) (ts ++ [t] ++ us) k

theorem joins_comma : Joins ", " (.sign ',') := by
  intro n m k xs ys ts us h h'
  have hafter : Spells m ([] ++ ' ' :: ys) ([] ++ us) k := Spells.nil.append_blank h'
  rw [List.append_assoc, List.append_assoc]
  exact h.append_sign (by decide) hafter

theorem joins_word {w : String} (hplain : w.toList.all (fun c => c ≠ '?' && IsPlain c) = true)
    (hword : tokens w = [.word w]) :
    Joins (" " ++ w ++ " ") (.word w) := by
  intro n m k xs ys ts us h h'
  have hw : Spells m w.toList [.word w] m := .unmarked hplain hword
  have hall := h.append_blank (hw.append_blank h')
  simpa [String.toList_append] using hall

namespace SpellsEach

variable {n m k : Nat} {xs : List String} {tss : List (List Token)}

theorem append {ys : List String} {uss : List (List Token)} (h : SpellsEach n xs tss m)
    (h' : SpellsEach m ys uss k) : SpellsEach n (xs ++ ys) (tss ++ uss) k := by
  induction h with
  | nil => exact h'
  | cons hx _ ih => exact .cons hx (ih h')

theorem intercalate {separator : String} {t : Token} (hjoins : Joins separator t)
    (h : SpellsEach n xs tss k) :
    Spells n (separator.intercalate xs).toList ([t].intercalate tss) k := by
  rw [String.toList_intercalate]
  induction h with
  | nil => exact .nil
  | cons hx hs ih =>
      cases hs with
      | nil => simpa using hx
      | cons hy hs =>
          rw [List.map_cons, List.map_cons, List.intercalate_cons_cons, List.intercalate_cons_cons]
          exact hjoins hx ih

end SpellsEach

end TaskAudit.Sql
