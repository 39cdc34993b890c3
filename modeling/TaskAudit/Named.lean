/-!
# Values by name

A list of values under distinct names, in the order of the names. A value put
under a name that is taken replaces the one before it, so the last one counts.
-/
namespace TaskAudit.Named

variable {α : Type}

def insert (name : String) (a : α) : List (String × α) → List (String × α)
  | [] => [(name, a)]
  | (other, b) :: rest =>
    if name < other then (name, a) :: (other, b) :: rest
    else if name = other then (name, a) :: rest
    else (other, b) :: insert name a rest

def find? (name : String) : List (String × α) → Option α
  | [] => none
  | (other, b) :: rest => if name = other then some b else find? name rest

/-- Puts values under their names, one after the other. -/
def ofList (pairs : List (String × α)) : List (String × α) :=
  pairs.foldl (fun acc p => insert p.1 p.2 acc) []

@[simp]
theorem find?_insert_self (name : String) (a : α) (l : List (String × α)) :
    find? name (insert name a l) = some a := by
  induction l with
  | nil => simp [insert, find?]
  | cons p rest ih =>
    obtain ⟨other, b⟩ := p
    simp only [insert]
    split
    · simp [find?]
    · split
      · simp [find?]
      · next h => simp [find?, h, ih]

/-- A value put under one name changes no other. -/
theorem find?_insert_of_ne {name other : String} (h : other ≠ name) (a : α)
    (l : List (String × α)) : find? other (insert name a l) = find? other l := by
  induction l with
  | nil => simp [insert, find?, h]
  | cons p rest ih =>
    obtain ⟨k, b⟩ := p
    simp only [insert]
    split
    · simp [find?, h]
    · split
      · next hk => simp [find?, h, ← hk]
      · simp only [find?, ih]

end TaskAudit.Named
