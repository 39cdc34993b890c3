import Mathlib
import TaskAudit.Error
import TaskAudit.Proofs.Decimal
import TaskAudit.Proofs.Named
import TaskAudit.Proofs.Text
import TaskAudit.Weights

/-!
# The grammar of weights

A text gives weights to queues if each of its parts between commas, those that are blank left
out, has a name, a `=` and a number; each name then has the weight of its last part. Otherwise
the first part that does not is reported. So weights that are written in any order, with
blanks and commas wherever they may stand, are read back.
-/
namespace TaskAudit

section

variable {ε α β : Type} {f : α → Except ε β} {a : α} {as before : List α} {b : β} {bs : List β}
  {e : ε}

theorem mapM_cons_of_error (h : f a = .error e) : (a :: as).mapM f = .error e := by
  rw [List.mapM_cons, h]
  rfl

theorem mapM_cons_of_ok (h : f a = .ok b) : (a :: as).mapM f = (as.mapM f).map (b :: ·) := by
  rw [List.mapM_cons, h]
  cases as.mapM f <;> rfl

theorem mapM_of_forall_ok (h : List.Forall₂ (fun a b => f a = .ok b) as bs) :
    as.mapM f = .ok bs := by
  induction h with
  | nil => rfl
  | cons hfirst _ ih =>
      rw [mapM_cons_of_ok hfirst, ih]
      rfl

theorem mapM_of_first_error (hbefore : ∀ x ∈ before, ∃ b, f x = .ok b) (h : f a = .error e) :
    (before ++ a :: as).mapM f = .error e := by
  induction before with
  | nil => exact mapM_cons_of_error h
  | cons x before ih =>
      obtain ⟨⟨b, hb⟩, hrest⟩ := List.forall_mem_cons.mp hbefore
      rw [List.cons_append, mapM_cons_of_ok hb, ih hrest]
      rfl

end

namespace Weights

open Text

variable {text part before after : List Char} {pieces parts : List (List Char)}
  {entries : Weights}
  {p : String × UInt32} {n : UInt32}

/-- The parts among some pieces: a piece that is blank is left out, and the blanks around
another are. -/
inductive Keeps : List (List Char) → List (List Char) → Prop where
  | nil : Keeps [] []
  | blank {piece : List Char} {pieces parts : List (List Char)} (h : IsBlankText piece)
    (hrest : Keeps pieces parts) : Keeps (piece :: pieces) parts
  | part {piece part : List Char} {pieces parts : List (List Char)} (hpadded : IsPadded part piece)
    (htrimmed : IsTrimmed part) (hne : part ≠ []) (hrest : Keeps pieces parts) :
    Keeps (piece :: pieces) (part :: parts)

/-- The parts of a text: what is kept of the pieces between its commas. -/
inductive HasParts (text : List Char) (parts : List (List Char)) : Prop where
  | cut {pieces : List (List Char)} (hne : pieces ≠ []) (htext : text = join ',' pieces)
    (hpieces : ∀ piece ∈ pieces, ',' ∉ piece) (hkeeps : Keeps pieces parts)

/-- A number of 32 bits in decimal digits, with a plus sign before them or without one, and with
any blanks around. -/
inductive Spells (text : List Char) (n : UInt32) : Prop where
  | digits {core ds : List Char} (hpadded : IsPadded core text) (hcore : core = ds ∨ core = '+' :: ds)
    (hne : ds ≠ []) (hdigits : ∀ c ∈ ds, c.isDigit = true) (hvalue : Decimal.value ds = n.toNat)

/-- A part gives a weight to a name: the name stands before the first `=`, the weight behind it,
and blanks around the name are left out. -/
inductive Assigns : List Char → String × UInt32 → Prop where
  | pair {before after name : List Char} {weight : UInt32} (hfirst : '=' ∉ before)
    (hpadded : IsPadded name before) (htrimmed : IsTrimmed name) (hne : name ≠ [])
    (hweight : Spells after weight) : Assigns (before ++ '=' :: after) (String.ofList name, weight)

/-- What is wrong with a part. -/
inductive Breaks : List Char → String → Prop where
  | notAssignment {part : List Char} (h : '=' ∉ part) : Breaks part " is not name=weight"
  | noName {before after : List Char} (hfirst : '=' ∉ before) (hblank : IsBlankText before) :
    Breaks (before ++ '=' :: after) " has no name"
  | notNumber {before after : List Char} (hfirst : '=' ∉ before) (hname : ¬ IsBlankText before)
    (hweight : ∀ n, ¬ Spells after n) : Breaks (before ++ '=' :: after) " is not a number"

/-- What a text is read as: the weights of its parts, or an error about the first part that
gives none. -/
inductive Reads (text : String) : Except Error Weights → Prop where
  | weights {parts : List (List Char)} {pairs weights : Weights}
    (hparts : HasParts text.toList parts) (hpairs : List.Forall₂ Assigns parts pairs)
    (hordered : Named.IsOrdered weights)
    (hlast : ∀ p, p ∈ weights ↔ (pairs.filter fun q => q.1 = p.1).getLast? = some p) :
    Reads text (.ok weights)
  | faulty {parts before after : List (List Char)} {part : List Char} {what : String}
    (hparts : HasParts text.toList parts) (hsplit : parts = before ++ part :: after)
    (hbefore : ∀ other ∈ before, ∃ p, Assigns other p) (hbreaks : Breaks part what) :
    Reads text
      (.error (.config ("queue weight " ++ Text.quoted (String.ofList part) ++ what)))

/-- The weights of a text, or an error of the configuration. -/
def read (text : String) : Except Error Weights :=
  (ofText text).mapError fun fault => .config fault.message

theorem keeps_iff : Keeps pieces parts ↔ (pieces.map trim).filter (· ≠ []) = parts := by
  constructor
  · intro h
    induction h with
    | nil => rfl
    | blank hblank _ ih => simpa [trim_eq_nil_iff.mpr hblank] using ih
    | part hpadded htrimmed hne _ ih =>
        simpa [trim_eq_iff.mpr ⟨hpadded, htrimmed⟩, hne] using ih
  · rintro rfl
    induction pieces with
    | nil => exact .nil
    | cons piece pieces ih =>
        rw [List.map_cons]
        by_cases hblank : trim piece = []
        · rw [List.filter_cons_of_neg (by simpa using hblank)]
          exact .blank (trim_eq_nil_iff.mp hblank) ih
        · rw [List.filter_cons_of_pos (by simpa using hblank)]
          exact .part (isPadded_trim piece) (trim_isTrimmed piece) hblank ih

theorem hasParts_iff {text : String} :
    HasParts text.toList parts ↔ Weights.parts text = parts := by
  constructor
  · rintro ⟨hne, htext, hpieces, hkeeps⟩
    rw [Weights.parts, split_eq_iff.mpr ⟨hne, htext, hpieces⟩]
    exact keeps_iff.mp hkeeps
  · intro h
    obtain ⟨hne, htext, hpieces⟩ := split_eq_iff.mp (rfl : split ',' text.toList = _)
    exact .cut hne htext hpieces (keeps_iff.mpr h)

theorem spells_iff :
    Spells text n ↔ Decimal.ofText? (Nat.pow 2 32) (trim text) = some n.toNat := by
  constructor
  · rintro ⟨hpadded, hcore, hne, hdigits, hvalue⟩
    have hds := fun c hc => isBlank_of_isDigit (hdigits c hc)
    have htrim : trim text = _ := trim_eq_iff.mpr ⟨hpadded, isTrimmed_of_forall ?_⟩
    · rw [htrim]
      exact Decimal.ofText?_eq_some_iff.mpr ⟨_, hcore, hne, hdigits, hvalue, n.toNat_lt⟩
    · rcases hcore with rfl | rfl
      · exact hds
      · exact List.forall_mem_cons.mpr ⟨by decide, hds⟩
  · intro h
    obtain ⟨ds, hcore, hne, hdigits, hvalue, -⟩ := Decimal.ofText?_eq_some_iff.mp h
    exact .digits (isPadded_trim text) hcore hne hdigits hvalue

theorem ofText?_eq_none (h : ∀ n, ¬ Spells text n) :
    Decimal.ofText? (Nat.pow 2 32) (trim text) = none := by
  cases hn : Decimal.ofText? (Nat.pow 2 32) (trim text) with
  | none => rfl
  | some n =>
      obtain ⟨-, -, -, -, -, hlt⟩ := Decimal.ofText?_eq_some_iff.mp hn
      have hspells : Spells text (UInt32.ofNat n) := by
        rw [spells_iff, UInt32.toNat_ofNat_of_lt' hlt, hn]
      exact absurd hspells (h _)

theorem assignment_of_notMem (h : '=' ∉ part) :
    assignment part = .error (.notAssignment (String.ofList part)) := by
  have hrest : part.dropWhile (· ≠ '=') = [] :=
    List.dropWhile_eq_nil_iff.mpr fun c hc => decide_eq_true (ne_of_mem_of_not_mem hc h)
  rw [assignment, hrest]

theorem assignment_append (h : '=' ∉ before) :
    assignment (before ++ '=' :: after) =
      if trim before = [] then .error (.noName (String.ofList (before ++ '=' :: after)))
      else match Decimal.ofText? (Nat.pow 2 32) (trim after) with
        | none => .error (.notNumber (String.ofList (before ++ '=' :: after)))
        | some n => .ok (String.ofList (trim before), UInt32.ofNat n) := by
  have hbefore : ∀ c ∈ before, decide (c ≠ '=') = true :=
    fun c hc => decide_eq_true (ne_of_mem_of_not_mem hc h)
  have hrest : (before ++ '=' :: after).dropWhile (· ≠ '=') = '=' :: after := by
    rw [List.dropWhile_append_of_pos hbefore]
    rfl
  have hname : (before ++ '=' :: after).takeWhile (· ≠ '=') = before := by
    rw [List.takeWhile_append_of_pos hbefore]
    simp
  rewrite [assignment, hrest, hname]
  rfl

theorem Assigns.assignment_eq (h : Assigns part p) : assignment part = .ok p := by
  obtain ⟨hfirst, hpadded, htrimmed, hne, hweight⟩ := h
  rw [assignment_append hfirst, trim_eq_iff.mpr ⟨hpadded, htrimmed⟩, if_neg hne,
    spells_iff.mp hweight]
  exact congrArg (fun n => Except.ok (_, n)) UInt32.ofNat_toNat

theorem Breaks.assignment_eq {what : String} (h : Breaks part what) :
    ∃ fault, assignment part = .error fault ∧
      fault.message = "queue weight " ++ Text.quoted (String.ofList part) ++ what := by
  cases h with
  | notAssignment h => exact ⟨_, assignment_of_notMem h, rfl⟩
  | @noName before after hfirst hblank =>
      have hfault : assignment (before ++ '=' :: after) = _ := assignment_append hfirst
      rw [if_pos (trim_eq_nil_iff.mpr hblank)] at hfault
      exact ⟨_, hfault, rfl⟩
  | @notNumber before after hfirst hname hweight =>
      have hfault : assignment (before ++ '=' :: after) = _ := assignment_append hfirst
      rw [if_neg (mt trim_eq_nil_iff.mp hname), ofText?_eq_none hweight] at hfault
      exact ⟨_, hfault, rfl⟩

theorem assigns_or_breaks (part : List Char) :
    (∃ p, Assigns part p) ∨ ∃ what, Breaks part what := by
  by_cases hmark : '=' ∈ part
  · obtain ⟨before, after, rfl, hfirst⟩ := List.eq_append_cons_of_mem hmark
    by_cases hblank : IsBlankText before
    · exact .inr ⟨_, .noName hfirst hblank⟩
    by_cases hspells : ∃ n, Spells after n
    · obtain ⟨n, hn⟩ := hspells
      have hne : trim before ≠ [] := mt trim_eq_nil_iff.mp hblank
      exact .inl ⟨_, .pair hfirst (isPadded_trim before) (trim_isTrimmed before) hne hn⟩
    · exact .inr ⟨_, .notNumber hfirst hblank (not_exists.mp hspells)⟩
  · exact .inr ⟨_, .notAssignment hmark⟩

theorem assigned_or_broken (parts : List (List Char)) :
    (∃ pairs, List.Forall₂ Assigns parts pairs) ∨
      ∃ before part after what, parts = before ++ part :: after ∧
        (∀ other ∈ before, ∃ p, Assigns other p) ∧ Breaks part what := by
  induction parts with
  | nil => exact .inl ⟨[], .nil⟩
  | cons part parts ih =>
      rcases assigns_or_breaks part with ⟨p, hp⟩ | ⟨what, hbreaks⟩
      · rcases ih with ⟨pairs, hpairs⟩ | ⟨before, broken, after, what, rfl, hbefore, hbreaks⟩
        · exact .inl ⟨p :: pairs, .cons hp hpairs⟩
        · exact .inr ⟨part :: before, broken, after, what, rfl,
            List.forall_mem_cons.mpr ⟨⟨p, hp⟩, hbefore⟩, hbreaks⟩
      · exact .inr ⟨[], part, parts, what, rfl, nofun, hbreaks⟩

theorem Reads.read_eq {text : String} {result : Except Error Weights} (h : Reads text result) :
    read text = result := by
  cases h with
  | @weights parts pairs weights hparts hpairs hordered hlast =>
      have hread : parts.mapM assignment = .ok pairs :=
        mapM_of_forall_ok (hpairs.imp fun _ _ => Assigns.assignment_eq)
      have hweights : Named.ofList pairs = weights :=
        (Named.isOrdered_ofList pairs).eq_of_mem_iff hordered fun p =>
          Named.mem_ofList_iff.trans (hlast p).symm
      rw [read, ofText, hasParts_iff.mp hparts, hread, ← hweights]
      rfl
  | @faulty parts before after part what hparts hsplit hbefore hbreaks =>
      obtain ⟨fault, hfault, hmessage⟩ := hbreaks.assignment_eq
      have hread : parts.mapM assignment = .error fault := by
        rw [hsplit]
        refine mapM_of_first_error (fun other hother => ?_) hfault
        obtain ⟨p, hp⟩ := hbefore other hother
        exact ⟨p, hp.assignment_eq⟩
      rw [read, ofText, hasParts_iff.mp hparts, hread, ← hmessage]
      rfl

theorem exists_reads (text : String) : ∃ result, Reads text result := by
  have hparts : HasParts text.toList (Weights.parts text) := hasParts_iff.mpr rfl
  rcases assigned_or_broken (Weights.parts text) with
    ⟨pairs, hpairs⟩ | ⟨before, part, after, what, hsplit, hbefore, hbreaks⟩
  · exact ⟨_, .weights hparts hpairs (Named.isOrdered_ofList pairs) fun _ => Named.mem_ofList_iff⟩
  · exact ⟨_, .faulty hparts hsplit hbefore hbreaks⟩

theorem read_eq_iff {text : String} {result : Except Error Weights} :
    read text = result ↔ Reads text result := by
  refine ⟨?_, Reads.read_eq⟩
  rintro rfl
  obtain ⟨result, hreads⟩ := exists_reads text
  rwa [hreads.read_eq]

/-- Is a name a part of its own: not empty, without a comma or a `=`, and without a blank at an
end? -/
structure IsPlainName (name : String) : Prop where
  nonempty : name ≠ ""
  trimmed : IsTrimmed name.toList
  noComma : ',' ∉ name.toList
  noMark : '=' ∉ name.toList

/-- A weight as it may be written: its name, a `=` and its digits, with any blanks around the
name and the digits. -/
inductive IsEntry (p : String × UInt32) : List Char → Prop where
  | entry {name weight : List Char} (hname : IsPadded p.1.toList name)
    (hweight : IsPadded (Decimal.digits p.2.toNat) weight) : IsEntry p (name ++ '=' :: weight)

/-- Weights as they may be written: an entry for each, in their order, and any blank pieces. -/
inductive IsWritten : Weights → List (List Char) → Prop where
  | nil : IsWritten [] []
  | blank {piece : List Char} {entries : Weights} {pieces : List (List Char)}
    (h : IsBlankText piece) (hrest : IsWritten entries pieces) :
    IsWritten entries (piece :: pieces)
  | entry {piece : List Char} {p : String × UInt32} {entries : Weights}
    {pieces : List (List Char)} (h : IsEntry p piece) (hrest : IsWritten entries pieces) :
    IsWritten (p :: entries) (piece :: pieces)

theorem isTrimmed_digits (n : Nat) : IsTrimmed (Decimal.digits n) :=
  isTrimmed_of_forall fun _ hc => isBlank_of_isDigit (Decimal.isDigit_of_mem_digits hc)

theorem Spells.of_digits (h : IsPadded (Decimal.digits n.toNat) text) : Spells text n :=
  .digits h (.inl rfl) Nat.toDigits_ne_nil (fun _ => Decimal.isDigit_of_mem_digits)
    (Decimal.value_digits n.toNat)

theorem IsEntry.comma_notMem {piece : List Char} (h : IsEntry p piece) (hname : IsPlainName p.1) :
    ',' ∉ piece := by
  obtain ⟨hbefore, hafter⟩ := h
  have hdigits : ',' ∉ Decimal.digits p.2.toNat := Decimal.notMem_digits rfl _
  have hweight := hafter.notMem (by decide) hdigits
  rw [List.mem_append, not_or]
  constructor
  · exact hbefore.notMem (by decide) hname.noComma
  · exact List.not_mem_cons_of_ne_of_not_mem (by decide) hweight

theorem IsEntry.exists_assigns {piece : List Char} (h : IsEntry p piece)
    (hname : IsPlainName p.1) :
    ∃ part, IsPadded part piece ∧ IsTrimmed part ∧ part ≠ [] ∧ Assigns part p := by
  obtain ⟨@⟨blanks, behind, hblanks, hbehind⟩, @⟨ahead, rest, hahead, hrest⟩⟩ := h
  have hne : p.1.toList ≠ [] := mt String.toList_eq_nil_iff.mp hname.nonempty
  have hmark : '=' ∉ p.1.toList ++ behind := by
    rw [List.mem_append, not_or]
    exact ⟨hname.noMark, notMem_of_isBlankText (by decide) hbehind⟩
  have hweight : IsPadded (Decimal.digits p.2.toNat) (ahead ++ Decimal.digits p.2.toNat) := by
    rw [← List.append_nil (ahead ++ _)]
    exact .pad hahead isBlankText_nil
  have hbare : IsPadded p.1.toList (p.1.toList ++ behind) := .pad isBlankText_nil hbehind
  have hassigns := Assigns.pair hmark hbare hname.trimmed hne (.of_digits hweight)
  -- the blanks between the name and its weight stay, those around the entry do not
  have hpart : p.1.toList ++ (behind ++ '=' :: ahead) ++ Decimal.digits p.2.toNat =
      p.1.toList ++ behind ++ '=' :: (ahead ++ Decimal.digits p.2.toNat) := by
    simp
  have hpiece : blanks ++ p.1.toList ++ behind ++
        '=' :: (ahead ++ Decimal.digits p.2.toNat ++ rest) =
      blanks ++ (p.1.toList ++ (behind ++ '=' :: ahead) ++ Decimal.digits p.2.toNat) ++ rest := by
    simp
  rw [← hpart, String.ofList_toList] at hassigns
  rw [hpiece]
  refine ⟨_, .pad hblanks hrest, ?_, List.append_ne_nil_of_right_ne_nil _ Nat.toDigits_ne_nil,
    hassigns⟩
  exact hname.trimmed.append (isTrimmed_digits _) hne Nat.toDigits_ne_nil _

theorem IsWritten.exists_keeps (h : IsWritten entries pieces)
    (hnames : ∀ p ∈ entries, IsPlainName p.1) :
    ∃ parts, Keeps pieces parts ∧ List.Forall₂ Assigns parts entries := by
  induction h with
  | nil => exact ⟨[], .nil, .nil⟩
  | blank hblank _ ih =>
      obtain ⟨parts, hkeeps, hassigns⟩ := ih hnames
      exact ⟨parts, .blank hblank hkeeps, hassigns⟩
  | entry hentry _ ih =>
      obtain ⟨hname, hrest⟩ := List.forall_mem_cons.mp hnames
      obtain ⟨part, hpadded, htrimmed, hne, hpart⟩ := hentry.exists_assigns hname
      obtain ⟨parts, hkeeps, hassigns⟩ := ih hrest
      exact ⟨part :: parts, .part hpadded htrimmed hne hkeeps, .cons hpart hassigns⟩

theorem IsWritten.comma_notMem (h : IsWritten entries pieces)
    (hnames : ∀ p ∈ entries, IsPlainName p.1) : ∀ piece ∈ pieces, ',' ∉ piece := by
  induction h with
  | nil => exact nofun
  | blank hblank _ ih =>
      exact List.forall_mem_cons.mpr ⟨notMem_of_isBlankText (by decide) hblank, ih hnames⟩
  | entry hentry _ ih =>
      obtain ⟨hname, hrest⟩ := List.forall_mem_cons.mp hnames
      exact List.forall_mem_cons.mpr ⟨hentry.comma_notMem hname, ih hrest⟩

theorem IsWritten.exists_hasParts (h : IsWritten entries pieces)
    (hnames : ∀ p ∈ entries, IsPlainName p.1) :
    ∃ parts, HasParts (join ',' pieces) parts ∧ List.Forall₂ Assigns parts entries := by
  obtain ⟨parts, hkeeps, hassigns⟩ := h.exists_keeps hnames
  refine ⟨parts, ?_, hassigns⟩
  by_cases hne : pieces = []
  · -- the empty text has one piece, and that is blank
    subst hne
    exact .cut (List.cons_ne_nil [] []) rfl (by decide) (.blank isBlankText_nil hkeeps)
  · exact .cut hne rfl (h.comma_notMem hnames) hkeeps

/-- Entries in any order are read as the weights they were written for. -/
theorem IsWritten.reads {weights : Weights} (h : IsWritten entries pieces)
    (hordered : Named.IsOrdered weights) (hnames : ∀ p ∈ weights, IsPlainName p.1)
    (hperm : entries.Perm weights) :
    Reads (String.ofList (join ',' pieces)) (.ok weights) := by
  obtain ⟨parts, hparts, hassigns⟩ :=
    h.exists_hasParts fun p hp => hnames p (hperm.mem_iff.mp hp)
  have htext : (String.ofList (join ',' pieces)).toList = join ',' pieces := String.toList_ofList
  rw [← htext] at hparts
  refine .weights hparts hassigns hordered fun p => ?_
  rw [← Named.mem_ofList_iff, hordered.ofList_eq_of_perm hperm]

/-- A text is read by the grammar, and weights with plain names are read back however they were
written. -/
theorem read_by_grammar :
    (∀ (text : String) (result : Except Error Weights),
      read text = result ↔ Reads text result) ∧
    ∀ (weights entries : Weights) (pieces : List (List Char)),
      Named.IsOrdered weights → (∀ p ∈ weights, IsPlainName p.1) → entries.Perm weights →
      IsWritten entries pieces → read (String.ofList (join ',' pieces)) = .ok weights := by
  constructor
  · exact fun _ _ => read_eq_iff
  · intro weights entries pieces hordered hnames hperm hwritten
    exact (hwritten.reads hordered hnames hperm).read_eq

theorem read_by_grammar_of_two :
    Named.IsOrdered [("critical", (6 : UInt32)), ("low", 1)] ∧
      (∀ p ∈ [("critical", (6 : UInt32)), ("low", 1)], IsPlainName p.1) ∧
      [("low", (1 : UInt32)), ("critical", 6)].Perm [("critical", 6), ("low", 1)] ∧
      IsWritten [("low", 1), ("critical", 6)]
        [" low=1".toList, " ".toList, "critical = 6".toList] ∧
      read " low=1, ,critical = 6" = .ok [("critical", 6), ("low", 1)] := by
  have hordered : Named.IsOrdered [("critical", (6 : UInt32)), ("low", 1)] := by
    unfold Named.IsOrdered
    decide
  have hnames : ∀ p ∈ [("critical", (6 : UInt32)), ("low", 1)], IsPlainName p.1 := by
    simp only [List.forall_mem_cons]
    exact ⟨⟨by decide, by decide, by decide, by decide⟩,
      ⟨by decide, by decide, by decide, by decide⟩, nofun⟩
  have hperm : [("low", (1 : UInt32)), ("critical", 6)].Perm [("critical", 6), ("low", 1)] := by
    decide
  have hlow : IsEntry ("low", 1) " low=1".toList :=
    @IsEntry.entry _ " low".toList "1".toList
      (@IsPadded.pad "low".toList " ".toList [] (by decide) (by decide)) (.refl "1".toList)
  have hcritical : IsEntry ("critical", 6) "critical = 6".toList :=
    @IsEntry.entry _ "critical ".toList " 6".toList
      (@IsPadded.pad "critical".toList [] " ".toList (by decide) (by decide))
      (@IsPadded.pad "6".toList " ".toList [] (by decide) (by decide))
  have hwritten : IsWritten [("low", 1), ("critical", 6)]
      [" low=1".toList, " ".toList, "critical = 6".toList] :=
    .entry hlow (.blank (by decide) (.entry hcritical .nil))
  have htext : String.ofList (join ',' [" low=1".toList, " ".toList, "critical = 6".toList]) =
      " low=1, ,critical = 6" := by decide
  have hread := read_by_grammar.2 _ _ _ hordered hnames hperm hwritten
  rw [htext] at hread
  exact ⟨hordered, hnames, hperm, hwritten, hread⟩

end Weights

end TaskAudit
