import Mathlib
import TaskAudit.Proofs.Json.Values

/-!
# Texts of values, however deep

Of two readers of a text one may go deeper than the other. They read the same, unless the first
one stops at a list or an object that it may not open. So a value that is nested too deep is
refused for its depth in every text of it, whatever its layout.
-/
namespace TaskAudit.Json

open Text

/-- Does one answer give what the other gives, unless it stopped for the depth? -/
def FallsShort {α : Type} (answer answer' : Except Stop α) : Prop :=
  answer = answer' ∨ ∃ place, answer = .error (.next .tooDeep place)

section

variable {α β : Type} {answer answer' : Except Stop α} {next next' : α → Except Stop β}

theorem FallsShort.refl (answer : Except Stop α) : FallsShort answer answer := .inl rfl

theorem FallsShort.bind (h : FallsShort answer answer')
    (hnext : ∀ a, FallsShort (next a) (next' a)) :
    FallsShort (answer >>= next) (answer' >>= next') := by
  rcases h with rfl | ⟨place, rfl⟩
  · cases answer with
    | error stop => exact .refl _
    | ok a => exact hnext a
  · exact .inr ⟨place, rfl⟩

theorem FallsShort.ite {p : Prop} [Decidable p] {other other' : Except Stop α}
    (h : FallsShort answer answer') (hother : FallsShort other other') :
    FallsShort (if p then answer else other) (if p then answer' else other') := by
  by_cases hp : p
  · rwa [if_pos hp, if_pos hp]
  · rwa [if_neg hp, if_neg hp]

/-- A list or an object that one reader may open, one that may go deeper may open too. -/
theorem FallsShort.nest {limit limit' : Nat} (hlimit : limit ≤ limit') (place : List Piece)
    (h : FallsShort answer answer') :
    FallsShort (if limit ≤ 1 then .error (.next .tooDeep place) else answer)
      (if limit' ≤ 1 then .error (.next .tooDeep place) else answer') := by
  by_cases hone : limit ≤ 1
  · rw [if_pos hone]
    exact .inr ⟨place, rfl⟩
  · have hone' : ¬ limit' ≤ 1 := fun hle => hone (hlimit.trans hle)
    rwa [if_neg hone, if_neg hone']

end

/-- Do all readers with this fuel fall short only of those that may go deeper? -/
structure FallsShortAll (fuel : Nat) : Prop where
  inValue : ∀ {limit limit' s}, limit ≤ limit' →
    FallsShort (value fuel limit s) (value fuel limit' s)
  inItems : ∀ {limit limit' isFirst s}, limit ≤ limit' →
    FallsShort (items fuel limit isFirst s) (items fuel limit' isFirst s)
  inMembers : ∀ {limit limit' isFirst s}, limit ≤ limit' →
    FallsShort (members fuel limit isFirst s) (members fuel limit' isFirst s)

namespace FallsShortAll

variable {fuel limit limit' : Nat} {isFirst : Bool} {s : List Piece}

theorem inValue_succ (ih : FallsShortAll fuel) (h : limit ≤ limit') :
    FallsShort (value (fuel + 1) limit s) (value (fuel + 1) limit' s) := by
  have hinner : limit - 1 ≤ limit' - 1 := Nat.sub_le_sub_right h 1
  simp only [value]
  rcases skipGap s with _ | ⟨c | width, rest⟩
  · exact .refl _
  · -- only a list and an object make a difference
    refine .ite (.refl _) (.ite (.refl _) (.ite (.refl _) (.ite (.refl _) (.ite (.refl _)
      (.ite (.refl _) (.ite ?list (.ite ?object (.refl _))))))))
    case list => exact .nest h _ ((ih.inItems hinner).bind fun _ => .refl _)
    case object => exact .nest h _ ((ih.inMembers hinner).bind fun _ => .refl _)
  · exact .refl _

theorem inItems_succ (ih : FallsShortAll fuel) (h : limit ≤ limit') :
    FallsShort (items (fuel + 1) limit isFirst s) (items (fuel + 1) limit' isFirst s) := by
  rw [items, items]
  apply FallsShort.bind (.refl _)
  intro next
  cases next with
  | done rest => exact .refl _
  | more s' =>
      apply (ih.inValue h).bind
      intro first
      exact (ih.inItems h).bind fun _ => .refl _

theorem inMembers_succ (ih : FallsShortAll fuel) (h : limit ≤ limit') :
    FallsShort (members (fuel + 1) limit isFirst s) (members (fuel + 1) limit' isFirst s) := by
  rw [members, members]
  apply FallsShort.bind (.refl _)
  intro next
  cases next with
  | done rest => exact .refl _
  | more s' =>
      apply FallsShort.bind (.refl _)
      intro name
      apply FallsShort.bind (.refl _)
      intro rest
      apply (ih.inValue h).bind
      intro first
      exact (ih.inMembers h).bind fun _ => .refl _

end FallsShortAll

theorem fallsShortAll (fuel : Nat) : FallsShortAll fuel := by
  induction fuel with
  | zero =>
      constructor
      · intro limit limit' s _
        exact .refl _
      · intro limit limit' isFirst s _
        exact .refl _
      · intro limit limit' isFirst s _
        exact .refl _
  | succ fuel ih => exact ⟨ih.inValue_succ, ih.inItems_succ, ih.inMembers_succ⟩

/-- Is this a text of the value, in any layout? It is if a reader that may go deep enough reads
the value in it, and nothing follows. -/
def IsTextOf (text : String) (v : Json) : Prop :=
  ∃ limit rest, value (fuelFor (Piece.ofText text)) limit (Piece.ofText text) = .ok (v, rest) ∧
    finish rest = .ok ()

section

variable {text : String} {v : Json}

theorem isTextOf_compact (hwhole : v.IsWhole) (hordered : v.IsOrdered) : IsTextOf v.compact v :=
  ⟨v.depth + 1, [], value_compact hwhole hordered (Nat.lt_succ_self v.depth), rfl⟩

/-- A value that is nested more than 127 deep is read in no text of it. -/
theorem IsTextOf.read_of_deep (h : IsTextOf text v) (hdepth : 127 < v.depth) :
    ∃ place, read text = .error ⟨.malformed .tooDeep, some place⟩ := by
  obtain ⟨limit, rest, hvalue, -⟩ := h
  have hlimit : v.depth ≤ limit - 1 := ((readsShaped _).inValue hvalue).2
  have hdeeper : depthLimit ≤ limit := by
    unfold depthLimit
    omega
  rw [read, readPieces, readAll]
  rcases (fallsShortAll _).inValue hdeeper with hsame | ⟨place, hstop⟩
  · have hshallow := ((readsShaped _).inValue (hsame.trans hvalue)).2
    unfold depthLimit at hshallow
    omega
  · rw [hstop]
    exact ⟨_, rfl⟩

end

end TaskAudit.Json
