import Mathlib
import TaskAudit.Json.Reader
import TaskAudit.Proofs.Named

/-!
# The shape of JSON values

How deep lists and objects are nested in a value, whether its objects list their members in
order, and whether its numbers are integers. Every value that is read is in order, and nested
less deep than the reader may go.
-/
namespace TaskAudit.Json

mutual

/-- How many lists and objects stand inside one another. -/
def depth : Json → Nat
  | .arr vs => depthItems vs + 1
  | .obj ms => depthMembers ms + 1
  | _ => 0

def depthItems : List Json → Nat
  | [] => 0
  | v :: vs => max v.depth (depthItems vs)

def depthMembers : List (String × Json) → Nat
  | [] => 0
  | (_, v) :: ms => max v.depth (depthMembers ms)

end

theorem depthItems_le_iff {vs : List Json} {d : Nat} :
    depthItems vs ≤ d ↔ ∀ v ∈ vs, v.depth ≤ d := by
  induction vs with
  | nil => simp [depthItems]
  | cons v vs ih => simp [depthItems, ih]

theorem depthMembers_le_iff {ms : List (String × Json)} {d : Nat} :
    depthMembers ms ≤ d ↔ ∀ m ∈ ms, m.2.depth ≤ d := by
  induction ms with
  | nil => simp [depthMembers]
  | cons m ms ih => simp [depthMembers, ih]

/-- Do all objects in the value list their members by name, no two of one name? -/
inductive IsOrdered : Json → Prop where
  | null : IsOrdered .null
  | bool {b} : IsOrdered (.bool b)
  | int {n} : IsOrdered (.int n)
  | float {x} : IsOrdered (.float x)
  | str {s} : IsOrdered (.str s)
  | arr {vs} (h : ∀ v ∈ vs, IsOrdered v) : IsOrdered (.arr vs)
  | obj {ms} (hnames : Named.IsOrdered ms) (h : ∀ m ∈ ms, IsOrdered m.2) : IsOrdered (.obj ms)

/-- Are all numbers in the value integers of 64 bits, signed or unsigned? -/
inductive IsWhole : Json → Prop where
  | null : IsWhole .null
  | bool {b} : IsWhole (.bool b)
  | int {n} (hlow : -2 ^ 63 ≤ n) (hhigh : n < 2 ^ 64) : IsWhole (.int n)
  | str {s} : IsWhole (.str s)
  | arr {vs} (h : ∀ v ∈ vs, IsWhole v) : IsWhole (.arr vs)
  | obj {ms} (h : ∀ m ∈ ms, IsWhole m.2) : IsWhole (.obj ms)

def nest : Nat → Json
  | 0 => .arr []
  | n + 1 => .arr [nest n]

theorem depth_nest (n : Nat) : (nest n).depth = n + 1 := by
  induction n with
  | zero => rfl
  | succ n ih => rw [nest, depth, depthItems, depthItems, ih, Nat.max_zero]

theorem isWhole_nest (n : Nat) : (nest n).IsWhole := by
  induction n with
  | zero => exact .arr nofun
  | succ n ih => exact .arr (List.forall_mem_singleton.mpr ih)

theorem isOrdered_nest (n : Nat) : (nest n).IsOrdered := by
  induction n with
  | zero => exact .arr nofun
  | succ n ih => exact .arr (List.forall_mem_singleton.mpr ih)

open Text

inductive IsNumber : Json → Prop where
  | int {n} : IsNumber (.int n)
  | float {x} : IsNumber (.float x)

section

variable {negative : Bool} {n dropped : Nat} {exponent : Int} {s rest : List Piece} {v : Json}

theorem isNumber_of_double (h : double negative n exponent s = .ok (v, rest)) : IsNumber v := by
  unfold double at h
  split at h
  · obtain ⟨rfl, -⟩ := Prod.mk.inj (Except.ok.inj h)
    exact .float
  · cases h

theorem isNumber_of_withExponent (h : withExponent negative n exponent s = .ok (v, rest)) :
    IsNumber v := by
  simp only [withExponent] at h
  split at h
  · cases h
  · split_ifs at h
    · exact isNumber_of_double h
    · exact isNumber_of_double h
    · obtain ⟨rfl, -⟩ := Prod.mk.inj (Except.ok.inj h)
      exact .float
    · obtain ⟨rfl, -⟩ := Prod.mk.inj (Except.ok.inj h)
      exact .float

theorem isNumber_of_exponentOrEnd (h : exponentOrEnd negative n exponent s = .ok (v, rest)) :
    IsNumber v := by
  unfold exponentOrEnd at h
  split at h
  · split_ifs at h
    · exact isNumber_of_withExponent h
    · exact isNumber_of_double h
  · exact isNumber_of_double h

theorem isNumber_of_withDecimals (h : withDecimals negative n dropped s = .ok (v, rest)) :
    IsNumber v := by
  simp only [withDecimals] at h
  split_ifs at h
  exact isNumber_of_exponentOrEnd h

theorem isNumber_integer : IsNumber (integer negative n) := by
  unfold integer
  split_ifs
  · exact .int
  · exact .float
  · exact .int

theorem isNumber_of_unsigned (h : unsigned negative s = .ok (v, rest)) : IsNumber v := by
  simp only [unsigned, afterDigits] at h
  split at h
  · cases h
  · cases h
  · split at h
    · exact isNumber_of_withDecimals h
    · exact isNumber_of_withExponent h
    · exact isNumber_of_withExponent h
    · split_ifs at h
      · obtain ⟨rfl, -⟩ := Prod.mk.inj (Except.ok.inj h)
        exact isNumber_integer
      · exact isNumber_of_double h

end

theorem IsNumber.isOrdered {v : Json} (h : IsNumber v) : v.IsOrdered := by
  cases h with
  | int => exact .int
  | float => exact .float

theorem IsNumber.depth_eq {v : Json} (h : IsNumber v) : v.depth = 0 := by
  cases h with
  | int => rfl
  | float => rfl

theorem bind_eq_ok {ε α β : Type} {x : Except ε α} {f : α → Except ε β} {b : β}
    (h : x >>= f = .ok b) : ∃ a, x = .ok a ∧ f a = .ok b := by
  cases x with
  | error e => cases h
  | ok a => exact ⟨a, rfl, h⟩

/-- Is the value in order, and can a reader that may go this deep have read it? -/
def IsShaped (limit : Nat) (v : Json) : Prop := v.IsOrdered ∧ v.depth ≤ limit - 1

theorem IsNumber.isShaped {v : Json} (h : IsNumber v) (limit : Nat) : IsShaped limit v :=
  ⟨h.isOrdered, h.depth_eq ▸ Nat.zero_le _⟩

theorem isShaped_arr {limit : Nat} {vs : List Json} (hlimit : ¬ limit ≤ 1)
    (h : ∀ v ∈ vs, IsShaped (limit - 1) v) : IsShaped limit (.arr vs) := by
  refine ⟨.arr fun v hv => (h v hv).1, ?_⟩
  have hitems : depthItems vs ≤ limit - 1 - 1 := depthItems_le_iff.mpr fun v hv => (h v hv).2
  rw [depth]
  omega

theorem isShaped_ofMembers {limit : Nat} {ms : List (String × Json)} (hlimit : ¬ limit ≤ 1)
    (h : ∀ m ∈ ms, IsShaped (limit - 1) m.2) : IsShaped limit (.ofMembers ms) := by
  have hmembers : ∀ m ∈ Named.ofList ms, IsShaped (limit - 1) m.2 := fun m hm =>
    h m (Named.mem_of_mem_ofList hm)
  refine ⟨.obj (Named.isOrdered_ofList ms) fun m hm => (hmembers m hm).1, ?_⟩
  have hdeepest : depthMembers (Named.ofList ms) ≤ limit - 1 - 1 :=
    depthMembers_le_iff.mpr fun m hm => (hmembers m hm).2
  rw [ofMembers, depth]
  omega

/-- Does all that is read with this fuel have its shape, however deep the reader may go? -/
structure ReadsShaped (fuel : Nat) : Prop where
  inValue : ∀ {limit s v rest}, value fuel limit s = .ok (v, rest) → IsShaped limit v
  inItems : ∀ {limit isFirst s vs rest}, items fuel limit isFirst s = .ok (vs, rest) →
    ∀ v ∈ vs, IsShaped limit v
  inMembers : ∀ {limit isFirst s ms rest}, members fuel limit isFirst s = .ok (ms, rest) →
    ∀ m ∈ ms, IsShaped limit m.2

namespace ReadsShaped

variable {fuel limit : Nat} {isFirst : Bool} {s rest : List Piece}

theorem inValue_succ (ih : ReadsShaped fuel) {v : Json}
    (h : value (fuel + 1) limit s = .ok (v, rest)) : IsShaped limit v := by
  rw [value] at h
  split at h
  · cases h
  · cases h
  · split_ifs at h with _ _ _ _ _ _ _ hlimit _ hlimit
    · obtain ⟨_, -, h⟩ := bind_eq_ok h
      obtain ⟨rfl, -⟩ := Prod.mk.inj (Except.ok.inj h)
      exact ⟨.null, Nat.zero_le _⟩
    · obtain ⟨_, -, h⟩ := bind_eq_ok h
      obtain ⟨rfl, -⟩ := Prod.mk.inj (Except.ok.inj h)
      exact ⟨.bool, Nat.zero_le _⟩
    · obtain ⟨_, -, h⟩ := bind_eq_ok h
      obtain ⟨rfl, -⟩ := Prod.mk.inj (Except.ok.inj h)
      exact ⟨.bool, Nat.zero_le _⟩
    · exact (isNumber_of_unsigned h).isShaped limit
    · exact (isNumber_of_unsigned h).isShaped limit
    · obtain ⟨⟨_, _⟩, -, h⟩ := bind_eq_ok h
      obtain ⟨rfl, -⟩ := Prod.mk.inj (Except.ok.inj h)
      exact ⟨.str, Nat.zero_le _⟩
    · obtain ⟨⟨vs, _⟩, hitems, h⟩ := bind_eq_ok h
      obtain ⟨rfl, -⟩ := Prod.mk.inj (Except.ok.inj h)
      exact isShaped_arr hlimit (ih.inItems hitems)
    · obtain ⟨⟨ms, _⟩, hmembers, h⟩ := bind_eq_ok h
      obtain ⟨rfl, -⟩ := Prod.mk.inj (Except.ok.inj h)
      exact isShaped_ofMembers hlimit (ih.inMembers hmembers)

theorem inItems_succ (ih : ReadsShaped fuel) {vs : List Json}
    (h : items (fuel + 1) limit isFirst s = .ok (vs, rest)) : ∀ v ∈ vs, IsShaped limit v := by
  rw [items] at h
  obtain ⟨next, -, h⟩ := bind_eq_ok h
  split at h
  · obtain ⟨rfl, -⟩ := Prod.mk.inj (Except.ok.inj h)
    nofun
  · obtain ⟨⟨v, _⟩, hvalue, h⟩ := bind_eq_ok h
    obtain ⟨⟨vs, _⟩, hitems, h⟩ := bind_eq_ok h
    obtain ⟨rfl, -⟩ := Prod.mk.inj (Except.ok.inj h)
    exact List.forall_mem_cons.mpr ⟨ih.inValue hvalue, ih.inItems hitems⟩

theorem inMembers_succ (ih : ReadsShaped fuel) {ms : List (String × Json)}
    (h : members (fuel + 1) limit isFirst s = .ok (ms, rest)) :
    ∀ m ∈ ms, IsShaped limit m.2 := by
  rw [members] at h
  obtain ⟨next, -, h⟩ := bind_eq_ok h
  split at h
  · obtain ⟨rfl, -⟩ := Prod.mk.inj (Except.ok.inj h)
    nofun
  · obtain ⟨⟨name, _⟩, -, h⟩ := bind_eq_ok h
    obtain ⟨_, -, h⟩ := bind_eq_ok h
    obtain ⟨⟨v, _⟩, hvalue, h⟩ := bind_eq_ok h
    obtain ⟨⟨ms, _⟩, hmembers, h⟩ := bind_eq_ok h
    obtain ⟨rfl, -⟩ := Prod.mk.inj (Except.ok.inj h)
    exact List.forall_mem_cons.mpr ⟨ih.inValue hvalue, ih.inMembers hmembers⟩

end ReadsShaped

theorem readsShaped (fuel : Nat) : ReadsShaped fuel := by
  induction fuel with
  | zero =>
      constructor
      · intro limit s v rest h
        cases h
      · intro limit isFirst s vs rest h
        cases h
      · intro limit isFirst s ms rest h
        cases h
  | succ fuel ih => exact ⟨ih.inValue_succ, ih.inItems_succ, ih.inMembers_succ⟩

theorem readPieces_eq_ok {s : List Piece} {v : Json} (h : readPieces s = .ok v) :
    ∃ rest, value (fuelFor s) depthLimit s = .ok (v, rest) := by
  unfold readPieces readAll at h
  split at h
  · cases h
  · next hvalue =>
      split at h
      · cases h
      · obtain rfl := Except.ok.inj h
        exact ⟨_, hvalue⟩

/-- What is read is in order, and its lists and objects are nested 127 deep at most. -/
theorem shape_of_readPieces {s : List Piece} {v : Json} (h : readPieces s = .ok v) :
    v.IsOrdered ∧ v.depth ≤ 127 := by
  obtain ⟨rest, hvalue⟩ := readPieces_eq_ok h
  exact (readsShaped _).inValue hvalue

end TaskAudit.Json
