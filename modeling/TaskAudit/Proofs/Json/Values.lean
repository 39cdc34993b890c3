import Mathlib
import TaskAudit.Json.Printer
import TaskAudit.Proofs.Json.Numbers
import TaskAudit.Proofs.Json.Shape
import TaskAudit.Proofs.Json.Strings

/-!
# Values are read back

A value whose numbers are integers of 64 bits, written without blanks, is read back by every
reader that may go deep enough.
-/
namespace TaskAudit.Json

open Text Decimal

theorem skipGap_cons {p : Piece} (h : isGap p = false) (rest : List Piece) :
    skipGap (p :: rest) = p :: rest := by
  rw [skipGap, List.dropWhile_cons, h]
  rfl

theorem isGap_of_isDigit {c : Char} (hc : c.isDigit = true) : isGap (.char c) = false := by
  simp [isGap, ne_of_isDigit hc (show (' ').isDigit = false from rfl),
    ne_of_isDigit hc (show ('\n').isDigit = false from rfl),
    ne_of_isDigit hc (show ('\t').isDigit = false from rfl),
    ne_of_isDigit hc (show ('\r').isDigit = false from rfl)]

def Begins (c : Char) : Prop := isGap (.char c) = false ∧ c ≠ ']'

theorem begins_of_isDigit {c : Char} (hc : c.isDigit = true) : Begins c :=
  ⟨isGap_of_isDigit hc, ne_of_isDigit hc rfl⟩

theorem IsWhole.exists_begins {v : Json} (h : v.IsWhole) :
    ∃ c cs, compactChars v = c :: cs ∧ Begins c := by
  cases h with
  | null => exact ⟨_, _, rfl, rfl, by decide⟩
  | @bool b =>
      cases b with
      | false => exact ⟨_, _, rfl, rfl, by decide⟩
      | true => exact ⟨_, _, rfl, rfl, by decide⟩
  | @int n _ _ =>
      rw [compactChars, signed]
      split_ifs
      · exact ⟨_, _, rfl, rfl, by decide⟩
      · obtain ⟨c, cs, hdigits, hc⟩ := exists_digits_eq_cons n.natAbs
        exact ⟨c, cs, hdigits, begins_of_isDigit hc⟩
  | str =>
      rw [compactChars, quote]
      exact ⟨_, _, rfl, rfl, by decide⟩
  | arr =>
      rw [compactChars]
      exact ⟨_, _, rfl, rfl, by decide⟩
  | obj =>
      rw [compactChars]
      exact ⟨_, _, rfl, rfl, by decide⟩

/-- Is the value read back from what is written of it, by a reader that may go deep enough? -/
def ReadsBack (v : Json) : Prop :=
  ∀ {fuel limit : Nat} {rest : List Piece}, v.depth < limit → (compactChars v).length ≤ fuel →
    Ends rest → value fuel limit ((compactChars v).map .char ++ rest) = .ok (v, rest)

theorem value_signed {n : Int} (hlow : -2 ^ 63 ≤ n) (hhigh : n < 2 ^ 64) (fuel limit : Nat)
    {rest : List Piece} (hrest : Ends rest) :
    value (fuel + 1) limit ((signed n).map .char ++ rest) = .ok (.int n, rest) := by
  have hfits : n.natAbs < 2 ^ 64 := by omega
  have hinteger := integer_natAbs hlow
  rw [signed]
  split_ifs with hneg
  · rw [List.map_cons, List.cons_append, value, skipGap_cons rfl]
    simp only [reduceIte, Char.reduceEq]
    rw [unsigned_digits hfits hrest, ← hinteger, decide_eq_true hneg]
  · obtain ⟨c, cs, hdigits, hc⟩ := exists_digits_eq_cons n.natAbs
    have hunsigned := @unsigned_digits rest n.natAbs false hfits hrest
    rw [hdigits, List.map_cons, List.cons_append] at hunsigned ⊢
    rw [value, skipGap_cons (isGap_of_isDigit hc)]
    simp only [ne_of_isDigit hc (show ('n').isDigit = false from rfl),
      ne_of_isDigit hc (show ('t').isDigit = false from rfl),
      ne_of_isDigit hc (show ('f').isDigit = false from rfl),
      ne_of_isDigit hc (show ('-').isDigit = false from rfl), hc, if_false, if_true]
    rw [hunsigned, ← hinteger, decide_eq_false hneg]

theorem ends_of_notDigit {c : Char} (h : c = ',' ∨ c = ']' ∨ c = '\x7d') (rest : List Piece) :
    Ends (.char c :: rest) := by
  apply ends_cons
  rcases h with rfl | rfl | rfl <;> decide

theorem ends_items (vs : List Json) (rest : List Piece) :
    Ends ((compactItems false vs).map .char ++ .char ']' :: rest) := by
  cases vs with
  | nil => exact ends_of_notDigit (by simp) rest
  | cons v vs => exact ends_of_notDigit (by simp) _

theorem ends_members (ms : List (String × Json)) (rest : List Piece) :
    Ends ((compactMembers false ms).map .char ++ .char '\x7d' :: rest) := by
  cases ms with
  | nil => exact ends_of_notDigit (by simp) rest
  | cons m ms => exact ends_of_notDigit (by simp) _

def comma (isFirst : Bool) : List Piece := if isFirst then [] else [.char ',']

theorem nextItem_begins {c : Char} (h : Begins c) (isFirst : Bool) (rest : List Piece) :
    nextItem isFirst (comma isFirst ++ .char c :: rest) = .ok (.more (.char c :: rest)) := by
  cases isFirst with
  | true => simp [comma, nextItem, skipGap_cons h.1, h.2]
  | false =>
      have hcomma : isGap (.char ',') = false := rfl
      simp [comma, nextItem, skipGap_cons h.1, skipGap_cons hcomma, h.2]

theorem nextName_quoted (isFirst : Bool) (rest : List Piece) :
    nextName isFirst (comma isFirst ++ .char '"' :: rest) = .ok (.more rest) := by
  cases isFirst with
  | true => rfl
  | false => rfl

theorem items_compact {vs : List Json} (hbegins : ∀ v ∈ vs, ∃ c cs, compactChars v = c :: cs ∧
      Begins c) (hvs : ∀ v ∈ vs, ReadsBack v) {fuel limit : Nat} (hdepth : depthItems vs < limit)
    (isFirst : Bool) (hfuel : (compactItems isFirst vs).length < fuel) (rest : List Piece) :
    items fuel limit isFirst ((compactItems isFirst vs).map .char ++ .char ']' :: rest) =
      .ok (vs, rest) := by
  induction vs generalizing fuel isFirst with
  | nil =>
      obtain ⟨fuel, rfl⟩ := Nat.exists_eq_succ_of_ne_zero (Nat.ne_zero_of_lt hfuel)
      rfl
  | cons v vs ih =>
      obtain ⟨fuel, rfl⟩ := Nat.exists_eq_succ_of_ne_zero (Nat.ne_zero_of_lt hfuel)
      obtain ⟨⟨c, cs, hchars, hc⟩, hbegins⟩ := List.forall_mem_cons.mp hbegins
      obtain ⟨hv, hvs⟩ := List.forall_mem_cons.mp hvs
      obtain ⟨hshallow, hdepth⟩ := max_lt_iff.mp hdepth
      have hlength : (compactChars v).length = cs.length + 1 := by rw [hchars, List.length_cons]
      rw [compactItems, List.length_append, List.length_append] at hfuel
      -- What follows an item cannot belong to it, so the item is read to its own end.
      have hfirst := hv hshallow (show (compactChars v).length ≤ fuel by omega) (ends_items vs rest)
      have hothers := ih hbegins hvs hdepth false
        (show (compactItems false vs).length < fuel by omega)
      have htext : (compactItems isFirst (v :: vs)).map Piece.char ++ Piece.char ']' :: rest =
          comma isFirst ++ Piece.char c :: (cs.map Piece.char ++
            ((compactItems false vs).map Piece.char ++ Piece.char ']' :: rest)) := by
        simp only [compactItems, hchars, List.map_append, List.map_cons, List.append_assoc,
          List.cons_append]
        cases isFirst <;> rfl
      rw [hchars, List.map_cons, List.cons_append] at hfirst
      rw [htext, items, nextItem_begins hc]
      simp only [bind, Except.bind, hfirst, hothers, pure, Except.pure]

theorem members_compact {ms : List (String × Json)} (hms : ∀ m ∈ ms, ReadsBack m.2)
    {fuel limit : Nat} (hdepth : depthMembers ms < limit) (isFirst : Bool)
    (hfuel : (compactMembers isFirst ms).length < fuel) (rest : List Piece) :
    members fuel limit isFirst
        ((compactMembers isFirst ms).map .char ++ .char '\x7d' :: rest) = .ok (ms, rest) := by
  induction ms generalizing fuel isFirst with
  | nil =>
      obtain ⟨fuel, rfl⟩ := Nat.exists_eq_succ_of_ne_zero (Nat.ne_zero_of_lt hfuel)
      rfl
  | cons m ms ih =>
      obtain ⟨fuel, rfl⟩ := Nat.exists_eq_succ_of_ne_zero (Nat.ne_zero_of_lt hfuel)
      obtain ⟨name, v⟩ := m
      obtain ⟨hv, hms⟩ := List.forall_mem_cons.mp hms
      obtain ⟨hshallow, hdepth⟩ := max_lt_iff.mp hdepth
      simp only [compactMembers, List.length_append, List.length_cons] at hfuel
      have hfirst := hv hshallow (show (compactChars v).length ≤ fuel by omega)
        (ends_members ms rest)
      have hothers := ih hms hdepth false (show (compactMembers false ms).length < fuel by omega)
      have htext : (compactMembers isFirst ((name, v) :: ms)).map Piece.char ++
            Piece.char '\x7d' :: rest =
          comma isFirst ++ Piece.char '"' :: ((name.toList.flatMap escapedChar).map Piece.char ++
            Piece.char '"' :: Piece.char ':' :: ((compactChars v).map Piece.char ++
              ((compactMembers false ms).map Piece.char ++ Piece.char '\x7d' :: rest))) := by
        simp only [compactMembers, List.map_append, List.map_cons, List.append_assoc,
          List.cons_append, map_quote_append]
        cases isFirst <;> rfl
      have hcolon : ∀ left, colon (.char ':' :: left) = .ok left := fun _ => rfl
      rw [htext, members, nextName_quoted]
      simp only [bind, Except.bind, string_quote, hcolon, hfirst, hothers, pure, Except.pure]

theorem readsBack_str (s : String) : ReadsBack (.str s) := by
  intro fuel limit rest _ hfuel _
  rw [compactChars] at hfuel ⊢
  obtain ⟨fuel, rfl⟩ := Nat.exists_eq_succ_of_ne_zero (Nat.ne_zero_of_lt hfuel)
  rw [map_quote_append, value, skipGap_cons rfl]
  simp only [reduceIte, Char.reduceEq, Char.reduceIsDigit, Bool.false_eq_true, string_quote]
  rfl

theorem readsBack_int {n : Int} (hlow : -2 ^ 63 ≤ n) (hhigh : n < 2 ^ 64) :
    ReadsBack (.int n) := by
  intro fuel limit rest _ hfuel hrest
  obtain ⟨c, cs, hchars, -⟩ := (IsWhole.int hlow hhigh).exists_begins
  rw [hchars] at hfuel
  obtain ⟨fuel, rfl⟩ := Nat.exists_eq_succ_of_ne_zero (Nat.ne_zero_of_lt hfuel)
  rw [compactChars]
  exact value_signed hlow hhigh fuel limit hrest

theorem readsBack_arr {vs : List Json}
    (hbegins : ∀ v ∈ vs, ∃ c cs, compactChars v = c :: cs ∧ Begins c)
    (hvs : ∀ v ∈ vs, ReadsBack v) : ReadsBack (.arr vs) := by
  intro fuel limit rest hdepth hfuel _
  rw [compactChars, List.length_append, List.length_cons, List.length_singleton] at hfuel
  obtain ⟨fuel, rfl⟩ := Nat.exists_eq_succ_of_ne_zero (Nat.ne_zero_of_lt hfuel)
  rw [depth] at hdepth
  have hopens : ¬ limit ≤ 1 := by omega
  have hitems := items_compact hbegins hvs (show depthItems vs < limit - 1 by omega) true
    (show (compactItems true vs).length < fuel by omega) rest
  rw [compactChars, List.map_append, List.map_cons, List.append_assoc, List.cons_append, value,
    skipGap_cons rfl]
  simp only [reduceIte, Char.reduceEq, Char.reduceIsDigit, Bool.false_eq_true, if_neg hopens]
  rw [List.map_singleton, List.singleton_append, hitems]
  rfl

theorem readsBack_obj {ms : List (String × Json)} (hnames : Named.IsOrdered ms)
    (hms : ∀ m ∈ ms, ReadsBack m.2) : ReadsBack (.obj ms) := by
  intro fuel limit rest hdepth hfuel _
  rw [compactChars, List.length_append, List.length_cons, List.length_singleton] at hfuel
  obtain ⟨fuel, rfl⟩ := Nat.exists_eq_succ_of_ne_zero (Nat.ne_zero_of_lt hfuel)
  rw [depth] at hdepth
  have hopens : ¬ limit ≤ 1 := by omega
  have hmembers := members_compact hms (show depthMembers ms < limit - 1 by omega) true
    (show (compactMembers true ms).length < fuel by omega) rest
  have hobj : Json.ofMembers ms = .obj ms := by rw [ofMembers, hnames.ofList_eq]
  rw [compactChars, List.map_append, List.map_cons, List.append_assoc, List.cons_append, value,
    skipGap_cons rfl]
  simp only [reduceIte, Char.reduceEq, Char.reduceIsDigit, Bool.false_eq_true, if_neg hopens]
  rw [List.map_singleton, List.singleton_append, hmembers, ← hobj]
  rfl

theorem readsBack {v : Json} (hwhole : v.IsWhole) (hordered : v.IsOrdered) : ReadsBack v := by
  induction hwhole with
  | null =>
      intro fuel limit rest _ hfuel _
      obtain ⟨fuel, rfl⟩ := Nat.exists_eq_succ_of_ne_zero (Nat.ne_zero_of_lt hfuel)
      rfl
  | @bool b =>
      intro fuel limit rest _ hfuel _
      have hpos : 0 < fuel := by
        cases b with
        | false => exact Nat.zero_lt_of_lt hfuel
        | true => exact Nat.zero_lt_of_lt hfuel
      obtain ⟨fuel, rfl⟩ := Nat.exists_eq_succ_of_ne_zero hpos.ne'
      cases b with
      | false => rfl
      | true => rfl
  | int hlow hhigh => exact readsBack_int hlow hhigh
  | str => exact readsBack_str _
  | arr hwhole ih =>
      cases hordered with
      | arr hordered =>
          exact readsBack_arr (fun v hv => (hwhole v hv).exists_begins) fun v hv =>
            ih v hv (hordered v hv)
  | obj hwhole ih =>
      cases hordered with
      | obj hnames hordered => exact readsBack_obj hnames fun m hm => ih m hm (hordered m hm)

section

variable {v : Json}

theorem ofText_compact : Piece.ofText v.compact = (compactChars v).map .char := by
  rw [Piece.ofText, compact, String.toList_ofList]

theorem value_compact (hwhole : v.IsWhole) (hordered : v.IsOrdered) {limit : Nat}
    (hdepth : v.depth < limit) :
    value (fuelFor (Piece.ofText v.compact)) limit (Piece.ofText v.compact) = .ok (v, []) := by
  have hfuel : (compactChars v).length ≤ fuelFor ((compactChars v).map .char) := by
    rw [fuelFor, List.length_map]
    omega
  have hback := readsBack hwhole hordered hdepth hfuel ends_nil
  rw [List.append_nil] at hback
  rw [ofText_compact, hback]

/-- What was written is read back if it is nested 127 deep at most. -/
theorem read_compact (hwhole : v.IsWhole) (hordered : v.IsOrdered) (hdepth : v.depth ≤ 127) :
    read v.compact = .ok v := by
  have hlimit : v.depth < depthLimit := Nat.lt_succ_of_le hdepth
  rw [read, readPieces, readAll, value_compact hwhole hordered hlimit]
  rfl

theorem pieces_toUTF8 (s : String) : pieces s.toUTF8 = Piece.ofText s := by
  have hvalid : String.fromUTF8? s.toUTF8 = some s := by
    unfold String.fromUTF8?
    simp [String.fromUTF8, s.isValidUTF8]
  rw [pieces, hvalid]

theorem readBytes_toUTF8 (s : String) : readBytes s.toUTF8 = read s := by
  rw [readBytes, read, pieces_toUTF8]

end

end TaskAudit.Json
