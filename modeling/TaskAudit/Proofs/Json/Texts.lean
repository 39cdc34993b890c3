import Mathlib
import TaskAudit.Json.Skip
import TaskAudit.Proofs.Json.Values

/-!
# Which texts are read

A text is JSON if a value can be passed over in it and nothing follows. A text that is JSON is
read, unless it goes beyond a limit of the reader: a value nested too deep, a number too large
for a double, or an escaped surrogate without its partner.
-/
namespace TaskAudit.Json

open Text

/-- Is the text JSON, however deep its values, however large its numbers, and whether or not its
surrogates are paired? -/
def IsText (text : String) : Prop :=
  ∃ rest, skip (Piece.ofText text) = .ok rest ∧ finish rest = .ok ()

/-- Is this a limit of the reader, and no fault of the text? -/
inductive Malformed.IsLimit : Malformed → Prop where
  | tooDeep : IsLimit .tooDeep
  | numberTooLarge : IsLimit .numberTooLarge
  | loneSurrogate : IsLimit .loneSurrogate
  | halfSurrogatePair : IsLimit .halfSurrogatePair

/-- Does the reader come to the given place, or stop at one of its limits? -/
def Reaches {α : Type} (answer : Except Stop (α × List Piece)) (rest : List Piece) : Prop :=
  (∃ a, answer = .ok (a, rest)) ∨
    ∃ fault place beyond, answer = .error ⟨.malformed fault, place, beyond⟩ ∧ fault.IsLimit

section

variable {α β : Type} {answer : Except Stop (α × List Piece)} {rest rest' : List Piece}

theorem reaches_ok (a : α) (rest : List Piece) : Reaches (.ok (a, rest)) rest := .inl ⟨a, rfl⟩

theorem reaches_limit {fault : Malformed} (h : fault.IsLimit) (place : List Piece)
    (beyond : Nat) (rest : List Piece) :
    Reaches (.error ⟨.malformed fault, place, beyond⟩ : Except Stop (α × List Piece)) rest :=
  .inr ⟨fault, place, beyond, rfl, h⟩

theorem Reaches.bind {next : α × List Piece → Except Stop (β × List Piece)}
    (h : Reaches answer rest) (hnext : ∀ a, Reaches (next (a, rest)) rest') :
    Reaches (answer >>= next) rest' := by
  obtain ⟨a, rfl⟩ | ⟨fault, place, beyond, rfl, hlimit⟩ := h
  · exact hnext a
  · exact reaches_limit hlimit place beyond _

end

section

variable {negative : Bool} {n dropped : Nat} {exponent : Int} {s rest : List Piece}

theorem skipDigits_eq_ok (h : skipDigits s = .ok rest) :
    (spanDigits s).1 ≠ [] ∧ rest = (spanDigits s).2 := by
  rcases hspan : spanDigits s with ⟨_ | ⟨c, cs⟩, left⟩
  · rw [skipDigits, hspan] at h
    cases h
  · rw [skipDigits, hspan] at h
    exact ⟨List.cons_ne_nil c cs, (Except.ok.inj h).symm⟩

theorem spanDigits_suffix (s : List Piece) : (spanDigits s).2 <:+ s := by
  induction s with
  | nil => exact List.suffix_rfl
  | cons p s ih =>
      cases p with
      | ill width => exact List.suffix_rfl
      | char c =>
          rw [spanDigits]
          split_ifs
          · exact ih.trans (List.suffix_cons _ _)
          · exact List.suffix_rfl

theorem double_reaches (negative : Bool) (n : Nat) (exponent : Int) (rest : List Piece) :
    Reaches (double negative n exponent rest) rest := by
  unfold double
  split
  · exact reaches_ok _ _
  · exact reaches_limit .numberTooLarge _ _ _

theorem exponentDigits_spec (n : Nat) (s : List Piece) :
    (spanDigits (exponentDigits n s).2.1).2 = (spanDigits s).2 ∧
      ((exponentDigits n s).2.2 = true → (exponentDigits n s).2.1 = (spanDigits s).2) := by
  induction s generalizing n with
  | nil => exact ⟨rfl, fun _ => rfl⟩
  | cons p s ih =>
      cases p with
      | ill width => exact ⟨rfl, fun _ => rfl⟩
      | char c =>
          rw [exponentDigits]
          by_cases hc : c.isDigit = true
          · have hspan : (spanDigits (.char c :: s)).2 = (spanDigits s).2 := by
              rw [spanDigits, if_pos hc]
            rw [if_pos hc, hspan]
            dsimp only
            split_ifs
            · exact ih _
            · exact ⟨rfl, False.elim⟩
          · have hspan : (spanDigits (.char c :: s)).2 = .char c :: s := by
              rw [spanDigits, if_neg hc]
            rw [if_neg hc]
            exact ⟨rfl, fun _ => hspan.symm⟩

/-- The sign of an exponent, if it has one: whether it is a minus, and what follows. -/
def takeSign : List Piece → Bool × List Piece
  | .char '+' :: rest => (false, rest)
  | .char '-' :: rest => (true, rest)
  | s => (false, s)

theorem takeSign_suffix (s : List Piece) : (takeSign s).2 <:+ s := by
  unfold takeSign
  split
  · exact List.suffix_cons _ _
  · exact List.suffix_cons _ _
  · exact List.suffix_rfl

theorem takeSign_of_ne (hplus : ∀ more, s = .char '+' :: more → False)
    (hminus : ∀ more, s = .char '-' :: more → False) : takeSign s = (false, s) := by
  unfold takeSign
  split
  · exact (hplus _ rfl).elim
  · exact (hminus _ rfl).elim
  · rfl

theorem skipExponent_eq {c : Char} (hc : c = 'e' ∨ c = 'E') (s : List Piece) :
    skipExponent (.char c :: s) = skipDigits (takeSign s).2 := by
  rcases hc with rfl | rfl
  · simp only [skipExponent]
    split
    · rfl
    · rfl
    · next hplus hminus => rw [takeSign_of_ne hplus hminus]
  · simp only [skipExponent]
    split
    · rfl
    · rfl
    · next hplus hminus => rw [takeSign_of_ne hplus hminus]

theorem skipExponent_of_ne (hsmall : ∀ more, s = .char 'e' :: more → False)
    (hlarge : ∀ more, s = .char 'E' :: more → False) : skipExponent s = .ok s := by
  unfold skipExponent
  split
  · exact (hsmall _ rfl).elim
  · exact (hlarge _ rfl).elim
  · rfl

/-- The exponent of a double behind its sign. -/
def unsignedExponent (negative : Bool) (n : Nat) (exponent : Int) (down : Bool) :
    List Piece → Except Stop (Json × List Piece)
  | [] => .error (.here .endInValue [])
  | p :: rest =>
    if isDigitPiece p then
      let (e, rest, fits) := exponentDigits 0 (p :: rest)
      if fits then
        let e : Int := if down then exponent - e else exponent + e
        let low : Int := -(exponentLimit : Int)
        double negative n (max low (min (exponentLimit - 1 : Int) e)) rest
      else if n ≠ 0 ∧ !down then .error (.here .numberTooLarge rest)
      else .ok (.float (if negative then -0.0 else 0.0), (spanDigits rest).2)
    else .error (.next .badNumber (p :: rest))

theorem withExponent_eq (s : List Piece) : withExponent negative n exponent s =
    unsignedExponent negative n exponent (takeSign s).1 (takeSign s).2 := rfl

theorem unsignedExponent_reaches {down : Bool} (h : skipDigits s = .ok rest) :
    Reaches (unsignedExponent negative n exponent down s) rest := by
  obtain ⟨hdigits, rfl⟩ := skipDigits_eq_ok h
  cases s with
  | nil => exact absurd rfl hdigits
  | cons p s =>
      have hp : isDigitPiece p = true := by
        cases p with
        | ill width => exact absurd rfl hdigits
        | char c =>
            by_contra hc
            rw [spanDigits, if_neg (show ¬ c.isDigit = true from hc)] at hdigits
            exact hdigits rfl
      obtain ⟨hleft, hfits⟩ := exponentDigits_spec 0 (p :: s)
      simp only [unsignedExponent, if_pos hp]
      by_cases hfit : (exponentDigits 0 (p :: s)).2.2 = true
      · rw [if_pos hfit, hfits hfit]
        exact double_reaches _ _ _ _
      · rw [if_neg hfit, hleft]
        by_cases hlarge : n ≠ 0 ∧ !down
        · rw [if_pos hlarge]
          exact reaches_limit .numberTooLarge _ _ _
        · rw [if_neg hlarge]
          exact reaches_ok _ _

theorem withExponent_reaches (h : skipDigits (takeSign s).2 = .ok rest) :
    Reaches (withExponent negative n exponent s) rest := by
  rw [withExponent_eq]
  exact unsignedExponent_reaches h

theorem exponentOrEnd_reaches (h : skipExponent s = .ok rest) :
    Reaches (exponentOrEnd negative n exponent s) rest := by
  unfold exponentOrEnd
  split
  · next c more =>
      split_ifs with hc
      · rw [skipExponent_eq hc] at h
        exact withExponent_reaches h
      · have hother : ∀ d, d = 'e' ∨ d = 'E' → ∀ tail, Piece.char c :: more = .char d :: tail →
            False := by
          rintro d hd tail heq
          obtain rfl := Piece.char.inj (List.cons.inj heq).1
          exact hc hd
        rw [skipExponent_of_ne (hother 'e' (.inl rfl)) (hother 'E' (.inr rfl))] at h
        obtain rfl := Except.ok.inj h
        exact double_reaches _ _ _ _
  · next s hnone =>
      rw [skipExponent_of_ne (hnone 'e') (hnone 'E')] at h
      obtain rfl := Except.ok.inj h
      exact double_reaches _ _ _ _

theorem withDecimals_reaches {more : List Piece} (hdigits : skipDigits s = .ok more)
    (h : skipExponent more = .ok rest) : Reaches (withDecimals negative n dropped s) rest := by
  obtain ⟨hne, rfl⟩ := skipDigits_eq_ok hdigits
  simp only [withDecimals, if_neg hne]
  exact exponentOrEnd_reaches h

theorem afterDigits_reaches {ds : List Char}
    (h : (match s with
      | .char '.' :: more => skipDigits more >>= skipExponent
      | _ => skipExponent s) = .ok rest) : Reaches (afterDigits negative ds s) rest := by
  simp only [afterDigits]
  split
  · obtain ⟨more, hdigits, hexponent⟩ := bind_eq_ok h
    exact withDecimals_reaches hdigits hexponent
  · rw [skipExponent_eq (.inl rfl)] at h
    exact withExponent_reaches h
  · rw [skipExponent_eq (.inr rfl)] at h
    exact withExponent_reaches h
  · next hnopoint hnosmall hnolarge =>
      split at h
      · exact (hnopoint _ rfl).elim
      · rw [skipExponent_of_ne hnosmall hnolarge] at h
        obtain rfl := Except.ok.inj h
        split_ifs
        · exact reaches_ok _ _
        · exact double_reaches _ _ _ _

theorem unsigned_reaches (h : skipNumber s = .ok rest) : Reaches (unsigned negative s) rest := by
  obtain ⟨behind, hdigits, h⟩ := bind_eq_ok h
  obtain ⟨hne, rfl⟩ := skipDigits_eq_ok hdigits
  rcases hspan : spanDigits s with ⟨ds, left⟩
  simp only [hspan] at hne h
  simp only [unsigned, hspan]
  split
  · exact absurd rfl hne
  · cases h
  · next hnil hzero =>
      split at h
      · exact (hzero _ _ rfl).elim
      · exact afterDigits_reaches h

end

/-- Do all the pieces come from characters? -/
def IsClean (s : List Piece) : Prop := ∀ width, Piece.ill width ∉ s

section

variable {s rest left : List Piece} {fuel n : Nat}

theorem IsClean.suffix (h : IsClean s) (hrest : rest <:+ s) : IsClean rest := fun width hmem =>
  h width (hrest.subset hmem)

theorem hexQuad_suffix (h : hexQuad s = .ok (n, rest)) : rest <:+ s := by
  unfold hexQuad at h
  split_ifs at h with hwidth
  clear hwidth
  split at h
  · next a b c d rest =>
      split at h
      · obtain ⟨-, rfl⟩ := Prod.mk.inj (Except.ok.inj h)
        exact ⟨[a, b, c, d], rfl⟩
      · cases h
  · cases h

/-- An escape that is no number takes one piece. -/
theorem escaped_eq_ok {c : Char} (h : escaped s = .ok (c, rest))
    (hnumber : ∀ more, s = .char 'u' :: more → False) : rest <:+ s := by
  unfold escaped at h
  split at h
  · cases h
  · cases h
  · next d more =>
      have hd : d ≠ 'u' := by
        rintro rfl
        exact hnumber more rfl
      rw [if_neg hd] at h
      split_ifs at h <;>
        exact (Prod.mk.inj (Except.ok.inj h)).2 ▸ List.suffix_cons _ _

theorem skipString_nil : skipString fuel [] ≠ .ok rest := by
  cases fuel with
  | zero => nofun
  | succ fuel => nofun

/-- An escaped number is read, with its partner if it needs one, or stops the reader. -/
theorem numbered_reaches (hquad : hexQuad s = .ok (n, left))
    (hskip : skipString fuel left = .ok rest) :
    ∃ fuel' left', left' <:+ left ∧ skipString fuel' left' = .ok rest ∧
      Reaches (numbered s) left' := by
  simp only [numbered, hquad, bind, Except.bind]
  split_ifs with hlone hplain
  · exact ⟨fuel, left, List.suffix_rfl, hskip, reaches_limit .loneSurrogate _ _ _⟩
  · exact ⟨fuel, left, List.suffix_rfl, hskip, reaches_ok _ _⟩
  · rcases left with _ | ⟨p, left⟩
    · exact absurd hskip skipString_nil
    rw [pairMark]
    split_ifs with hslash
    · subst hslash
      rcases fuel with _ | fuel
      · cases hskip
      rcases left with _ | ⟨q, left⟩
      · cases hskip
      simp only [pairMark]
      split_ifs with hletter
      · subst hletter
        obtain ⟨⟨m, behind⟩, hpartner, hskip⟩ := bind_eq_ok hskip
        have hbehind : behind <:+ .char '\\' :: .char 'u' :: left :=
          (hexQuad_suffix hpartner).trans ⟨[_, _], rfl⟩
        simp only [hpartner]
        split_ifs
        · exact ⟨fuel, behind, hbehind, hskip, reaches_limit .loneSurrogate _ _ _⟩
        · exact ⟨fuel, behind, hbehind, hskip, reaches_ok _ _⟩
      · exact ⟨fuel + 1, _, List.suffix_rfl, hskip, reaches_limit .halfSurrogatePair _ _ _⟩
    · exact ⟨fuel, _, List.suffix_rfl, hskip, reaches_limit .halfSurrogatePair _ _ _⟩

theorem stringBody_reaches {fuel' : Nat} (hclean : IsClean s) (hfuel : s.length < fuel')
    (h : skipString fuel s = .ok rest) :
    rest <:+ s ∧ Reaches (stringBody fuel' none s) rest := by
  -- A pair of surrogates is two steps of passing over and one of reading, so the fuels differ.
  induction fuel' generalizing fuel s with
  | zero => exact absurd hfuel (Nat.not_lt_zero _)
  | succ fuel' ih =>
      rcases fuel with _ | fuel
      · cases h
      rcases s with _ | ⟨_ | width, s⟩
      · cases h
      · next c =>
          have htail : IsClean s := hclean.suffix (List.suffix_cons _ _)
          have hshort : s.length < fuel' := Nat.lt_of_succ_lt_succ hfuel
          unfold skipString at h
          rw [stringBody]
          split_ifs at h ⊢ with hquote hslash hcontrol
          · obtain rfl := Except.ok.inj h
            exact ⟨List.suffix_cons _ _, reaches_ok _ _⟩
          · have hstep : ∃ fuel₁ left, left <:+ s ∧ skipString fuel₁ left = .ok rest ∧
                Reaches (escaped s) left := by
              split at h
              · next more =>
                  obtain ⟨⟨n, left⟩, hquad, hskip⟩ := bind_eq_ok h
                  obtain ⟨fuel₁, left₁, hsuffix, hskip, hreaches⟩ := numbered_reaches hquad hskip
                  exact ⟨fuel₁, left₁, (hsuffix.trans (hexQuad_suffix hquad)).trans
                    (List.suffix_cons _ _), hskip, hreaches⟩
              · next hnumber =>
                  obtain ⟨⟨d, left⟩, hescaped, hskip⟩ := bind_eq_ok h
                  exact ⟨fuel, left, escaped_eq_ok hescaped hnumber, hskip, hescaped ▸ reaches_ok _ _⟩
            obtain ⟨fuel₁, left, hleft, hskip, hescaped⟩ := hstep
            obtain ⟨hsuffix, hreaches⟩ :=
              ih (htail.suffix hleft) (lt_of_le_of_lt hleft.length_le hshort) hskip
            exact ⟨(hsuffix.trans hleft).trans (List.suffix_cons _ _),
              hescaped.bind fun _ => hreaches.bind fun _ => reaches_ok _ _⟩
          · obtain ⟨hsuffix, hreaches⟩ := ih htail hshort h
            exact ⟨hsuffix.trans (List.suffix_cons _ _), hreaches.bind fun _ => reaches_ok _ _⟩
      · exact absurd List.mem_cons_self (hclean width)

end

section

variable {s rest : List Piece} {isFirst : Bool}

theorem skipGap_suffix (s : List Piece) : skipGap s <:+ s := List.dropWhile_suffix _

theorem word_suffix {cs : List Char} (h : word cs s = .ok rest) : rest <:+ s := by
  induction cs generalizing s with
  | nil =>
      obtain rfl := Except.ok.inj h
      exact List.suffix_rfl
  | cons c cs ih =>
      rcases s with _ | ⟨p, s⟩
      · cases h
      rw [word] at h
      split_ifs at h
      exact (ih h).trans (List.suffix_cons _ _)

theorem skipDigits_suffix (h : skipDigits s = .ok rest) : rest <:+ s := by
  obtain ⟨-, rfl⟩ := skipDigits_eq_ok h
  exact spanDigits_suffix s

theorem skipExponent_suffix (h : skipExponent s = .ok rest) : rest <:+ s := by
  by_cases hletter : ∃ c more, (c = 'e' ∨ c = 'E') ∧ s = .char c :: more
  · obtain ⟨c, more, hc, rfl⟩ := hletter
    rw [skipExponent_eq hc] at h
    exact ((skipDigits_suffix h).trans (takeSign_suffix more)).trans (List.suffix_cons _ _)
  · rw [skipExponent_of_ne (fun more heq => hletter ⟨'e', more, .inl rfl, heq⟩)
      fun more heq => hletter ⟨'E', more, .inr rfl, heq⟩] at h
    obtain rfl := Except.ok.inj h
    exact List.suffix_rfl

theorem skipNumber_suffix (h : skipNumber s = .ok rest) : rest <:+ s := by
  obtain ⟨left, hdigits, h⟩ := bind_eq_ok h
  refine List.IsSuffix.trans ?_ (skipDigits_suffix hdigits)
  split at h
  · cases h
  · split at h
    · obtain ⟨behind, hdecimals, h⟩ := bind_eq_ok h
      exact ((skipExponent_suffix h).trans (skipDigits_suffix hdecimals)).trans
        (List.suffix_cons _ _)
    · exact skipExponent_suffix h

/-- The pieces from which a list or an object goes on, or those behind its end. -/
def Next.pieces : Next → List Piece
  | .more s => s
  | .done rest => rest

theorem nextItem_suffix {next : Next} (h : nextItem isFirst s = .ok next) :
    next.pieces <:+ s := by
  refine List.IsSuffix.trans ?_ (skipGap_suffix s)
  unfold nextItem at h
  split at h
  · cases h
  · next p left hgap =>
      rw [hgap]
      split_ifs at h
      · obtain rfl := Except.ok.inj h
        exact List.suffix_cons _ _
      · obtain rfl := Except.ok.inj h
        exact List.suffix_rfl
      · have hleft := (skipGap_suffix left).trans (List.suffix_cons p left)
        split at h
        · cases h
        · next q more hagain =>
            rw [hagain] at hleft
            split_ifs at h
            obtain rfl := Except.ok.inj h
            exact hleft

theorem nextName_suffix {next : Next} (h : nextName isFirst s = .ok next) :
    next.pieces <:+ s := by
  refine List.IsSuffix.trans ?_ (skipGap_suffix s)
  unfold nextName at h
  split at h
  · cases h
  · next p left hgap =>
      rw [hgap]
      split_ifs at h
      · obtain rfl := Except.ok.inj h
        exact List.suffix_cons _ _
      · obtain rfl := Except.ok.inj h
        exact List.suffix_cons _ _
      · have hleft := (skipGap_suffix left).trans (List.suffix_cons p left)
        split at h
        · cases h
        · next q more hagain =>
            rw [hagain] at hleft
            split_ifs at h
            obtain rfl := Except.ok.inj h
            exact (List.suffix_cons _ _).trans hleft

theorem colon_suffix (h : colon s = .ok rest) : rest <:+ s := by
  refine List.IsSuffix.trans ?_ (skipGap_suffix s)
  unfold colon at h
  split at h
  · cases h
  · next p left hgap =>
      rw [hgap]
      split_ifs at h
      obtain rfl := Except.ok.inj h
      exact List.suffix_cons _ _

theorem string_reaches {fuel : Nat} (hclean : IsClean s) (h : skipString fuel s = .ok rest) :
    rest <:+ s ∧ Reaches (string s) rest := by
  obtain ⟨hsuffix, hreaches⟩ := stringBody_reaches hclean (Nat.lt_succ_self s.length) h
  exact ⟨hsuffix, hreaches.bind fun _ => reaches_ok _ _⟩

theorem word_reaches {cs : List Char} (h : word cs s = .ok rest) (v : Json) :
    Reaches (do let rest ← word cs s; return (v, rest)) rest := by
  rw [h]
  exact reaches_ok v rest

/-- Where something can be passed over with this fuel it is read, or a limit of the reader is
met, however deep the reader may go. -/
structure ReachesAll (fuel : Nat) : Prop where
  inValue : ∀ {s rest}, IsClean s → skipValue fuel s = .ok rest →
    rest <:+ s ∧ ∀ limit, Reaches (value fuel limit s) rest
  inItems : ∀ {isFirst s rest}, IsClean s → skipItems fuel isFirst s = .ok rest →
    rest <:+ s ∧ ∀ limit, Reaches (items fuel limit isFirst s) rest
  inMembers : ∀ {isFirst s rest}, IsClean s → skipMembers fuel isFirst s = .ok rest →
    rest <:+ s ∧ ∀ limit, Reaches (members fuel limit isFirst s) rest

namespace ReachesAll

variable {fuel : Nat}

theorem inValue_succ (ih : ReachesAll fuel) (hclean : IsClean s)
    (h : skipValue (fuel + 1) s = .ok rest) :
    rest <:+ s ∧ ∀ limit, Reaches (value (fuel + 1) limit s) rest := by
  have hgap := skipGap_suffix s
  rw [skipValue] at h
  simp only [value]
  generalize skipGap s = s' at hgap h ⊢
  rcases s' with _ | ⟨c | width, s'⟩
  · cases h
  · have htail : s' <:+ s := (List.suffix_cons _ _).trans hgap
    have hclean' := hclean.suffix htail
    dsimp only at h ⊢
    split_ifs at h ⊢
    · exact ⟨(word_suffix h).trans htail, fun _ => word_reaches h _⟩
    · exact ⟨(word_suffix h).trans htail, fun _ => word_reaches h _⟩
    · exact ⟨(word_suffix h).trans htail, fun _ => word_reaches h _⟩
    · exact ⟨(skipNumber_suffix h).trans htail, fun _ => unsigned_reaches h⟩
    · exact ⟨(skipNumber_suffix h).trans hgap, fun _ => unsigned_reaches h⟩
    · obtain ⟨hrest, hstring⟩ := string_reaches hclean' h
      exact ⟨hrest.trans htail, fun _ => hstring.bind fun _ => reaches_ok _ _⟩
    · obtain ⟨hrest, hitems⟩ := ih.inItems hclean' h
      refine ⟨hrest.trans htail, fun limit => ?_⟩
      split_ifs
      · exact reaches_limit .tooDeep _ _ _
      · exact (hitems (limit - 1)).bind fun _ => reaches_ok _ _
    · obtain ⟨hrest, hmembers⟩ := ih.inMembers hclean' h
      refine ⟨hrest.trans htail, fun limit => ?_⟩
      split_ifs
      · exact reaches_limit .tooDeep _ _ _
      · exact (hmembers (limit - 1)).bind fun _ => reaches_ok _ _
  · cases h

theorem inItems_succ (ih : ReachesAll fuel) (hclean : IsClean s)
    (h : skipItems (fuel + 1) isFirst s = .ok rest) :
    rest <:+ s ∧ ∀ limit, Reaches (items (fuel + 1) limit isFirst s) rest := by
  rw [skipItems] at h
  obtain ⟨next, hnext, h⟩ := bind_eq_ok h
  have hpieces := nextItem_suffix hnext
  simp only [items, hnext]
  cases next with
  | done left =>
      obtain rfl := Except.ok.inj h
      exact ⟨hpieces, fun _ => reaches_ok _ _⟩
  | more s' =>
      obtain ⟨left, hvalue, h⟩ := bind_eq_ok h
      have hclean' := hclean.suffix hpieces
      obtain ⟨hleft, hfirst⟩ := ih.inValue hclean' hvalue
      obtain ⟨hrest, hothers⟩ := ih.inItems (hclean'.suffix hleft) h
      refine ⟨(hrest.trans hleft).trans hpieces, fun limit => ?_⟩
      exact (hfirst limit).bind fun _ => (hothers limit).bind fun _ => reaches_ok _ _

theorem inMembers_succ (ih : ReachesAll fuel) (hclean : IsClean s)
    (h : skipMembers (fuel + 1) isFirst s = .ok rest) :
    rest <:+ s ∧ ∀ limit, Reaches (members (fuel + 1) limit isFirst s) rest := by
  rw [skipMembers] at h
  obtain ⟨next, hnext, h⟩ := bind_eq_ok h
  have hpieces := nextName_suffix hnext
  simp only [members, hnext]
  cases next with
  | done left =>
      obtain rfl := Except.ok.inj h
      exact ⟨hpieces, fun _ => reaches_ok _ _⟩
  | more s' =>
      obtain ⟨behind, hstring, h⟩ := bind_eq_ok h
      obtain ⟨inner, hcolon, h⟩ := bind_eq_ok h
      obtain ⟨left, hvalue, h⟩ := bind_eq_ok h
      have hclean' := hclean.suffix hpieces
      obtain ⟨hbehind, hname⟩ := string_reaches hclean' hstring
      have hinner := (colon_suffix hcolon).trans hbehind
      obtain ⟨hleft, hfirst⟩ := ih.inValue (hclean'.suffix hinner) hvalue
      obtain ⟨hrest, hothers⟩ := ih.inMembers (hclean'.suffix (hleft.trans hinner)) h
      refine ⟨((hrest.trans hleft).trans hinner).trans hpieces, fun limit => ?_⟩
      refine hname.bind fun _ => ?_
      simp only [hcolon]
      exact (hfirst limit).bind fun _ => (hothers limit).bind fun _ => reaches_ok _ _

end ReachesAll

theorem reachesAll (fuel : Nat) : ReachesAll fuel := by
  -- Values, items and members call one another, each with less fuel.
  induction fuel with
  | zero =>
      constructor
      · intro s rest _ h
        cases h
      · intro isFirst s rest _ h
        cases h
      · intro isFirst s rest _ h
        cases h
  | succ fuel ih => exact ⟨ih.inValue_succ, ih.inItems_succ, ih.inMembers_succ⟩

/-- A text that is JSON is read, or goes beyond a limit of the reader. -/
theorem IsText.read {text : String} (h : IsText text) :
    (∃ v, Json.read text = .ok v) ∨ ∃ fault place, Malformed.IsLimit fault ∧
      Json.read text = .error ⟨.malformed fault, some place⟩ := by
  obtain ⟨rest, hskip, hfinish⟩ := h
  have hclean : IsClean (Piece.ofText text) := by
    intro width hmem
    obtain ⟨c, -, hc⟩ := List.mem_map.mp hmem
    cases hc
  rw [Json.read, readPieces, readAll]
  obtain ⟨-, hreaches⟩ := (reachesAll _).inValue hclean hskip
  obtain ⟨v, hvalue⟩ | ⟨fault, place, beyond, hstop, hlimit⟩ := hreaches depthLimit
  · rw [hvalue]
    simp only [hfinish]
    exact .inl ⟨v, rfl⟩
  · rw [hstop]
    exact .inr ⟨fault, _, hlimit, rfl⟩

end

theorem compactChars_nest_succ (n : Nat) :
    compactChars (nest (n + 1)) = '[' :: compactChars (nest n) ++ [']'] := by
  simp [nest, compactChars, compactItems]

theorem length_nest (n : Nat) : (compactChars (nest n)).length = 2 * n + 2 := by
  induction n with
  | zero => rfl
  | succ n ih =>
      rw [compactChars_nest_succ, List.length_append, List.length_cons, ih, List.length_singleton]
      omega

theorem skipValue_nest {n fuel : Nat} (hfuel : 2 * n + 2 ≤ fuel) (rest : List Piece) :
    skipValue fuel ((compactChars (nest n)).map .char ++ rest) = .ok rest := by
  induction n generalizing fuel rest with
  | zero =>
      obtain ⟨fuel, rfl⟩ := Nat.exists_eq_add_of_le' hfuel
      rfl
  | succ n ih =>
      obtain ⟨fuel, rfl⟩ := Nat.exists_eq_add_of_le' hfuel
      obtain ⟨c, cs, hchars, hc⟩ := (isWhole_nest n).exists_begins
      have hinner := @ih (fuel + 2 * n + 2) (by omega) (.char ']' :: rest)
      have hend : skipItems (fuel + 2 * n + 2) false (.char ']' :: rest) = .ok rest := rfl
      have hitems : skipItems (fuel + 2 * n + 2 + 1) true
          ((compactChars (nest n)).map .char ++ .char ']' :: rest) = .ok rest := by
        rw [hchars, List.map_cons, List.cons_append] at hinner ⊢
        have hnext : nextItem true (.char c :: (cs.map .char ++ .char ']' :: rest)) = .ok (.more _) :=
          nextItem_begins hc true _
        rw [skipItems, hnext]
        simp only [bind, Except.bind, hinner, hend]
      rw [compactChars_nest_succ, List.map_append, List.map_cons, List.append_assoc,
        List.cons_append]
      exact hitems

theorem isText_nest (n : Nat) : IsText (nest n).compact := by
  have hfuel : 2 * n + 2 ≤ fuelFor (Piece.ofText (nest n).compact) := by
    rw [ofText_compact, fuelFor, List.length_map, length_nest]
    omega
  have hskip := skipValue_nest hfuel []
  rw [List.append_nil, ← ofText_compact] at hskip
  exact ⟨[], hskip, rfl⟩

end TaskAudit.Json
