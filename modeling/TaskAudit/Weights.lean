import TaskAudit.Decimal.Digits
import TaskAudit.Named
import TaskAudit.Text.Blank
import TaskAudit.Text.Parts
import TaskAudit.Text.Quoted

/-!
# Weights of queues

The weights of the queues are written `name=weight` with commas between them.
Blanks around the parts and empty parts are ignored; the last weight of a name
counts. The first faulty part is reported.

A map of weights is gone through in no order in particular, so who needs one sorts
its entries.
-/
namespace TaskAudit

abbrev Weights := List (String × UInt32)

namespace Weights

inductive Fault where
  | notAssignment (part : String)
  | noName (part : String)
  | notNumber (part : String)
  deriving DecidableEq, Repr

def Fault.message : Fault → String
  | .notAssignment part => s!"queue weight {Text.quoted part} is not name=weight"
  | .noName part => s!"queue weight {Text.quoted part} has no name"
  | .notNumber part => s!"queue weight {Text.quoted part} is not a number"

/-- The name and the weight of a part that is neither empty nor has blanks around it. -/
def assignment (part : List Char) : Except Fault (String × UInt32) :=
  match part.dropWhile (· ≠ '=') with
  | [] => .error (.notAssignment (String.ofList part))
  | _ :: weight =>
    let name := Text.trim (part.takeWhile (· ≠ '='))
    if name = [] then .error (.noName (String.ofList part))
    else match Decimal.ofText? (Nat.pow 2 32) (Text.trim weight) with
      | none => .error (.notNumber (String.ofList part))
      | some n => .ok (String.ofList name, UInt32.ofNat n)

def parts (text : String) : List (List Char) :=
  ((Text.split ',' text.toList).map Text.trim).filter (· ≠ [])

def ofText (text : String) : Except Fault Weights := do
  let pairs ← (parts text).mapM assignment
  return Named.ofList pairs

/-- An order in which the entries of a map can be gone through. -/
structure Order where
  entries : Weights → Weights
  perm : ∀ weights, (entries weights).Perm weights

def Order.standing : Order := ⟨id, fun _ => .refl _⟩

/-- Does an entry come no later than another, by name and then by weight? -/
def Precedes (p q : String × UInt32) : Prop := p.1 < q.1 ∨ p.1 = q.1 ∧ p.2 ≤ q.2

instance (p q : String × UInt32) : Decidable (Precedes p q) :=
  inferInstanceAs (Decidable (_ ∨ _))

/-- Puts an entry into its place among sorted ones. -/
def insert (q : String × UInt32) : Weights → Weights
  | [] => [q]
  | p :: rest => if Precedes q p then q :: p :: rest else p :: insert q rest

/-- The entries by name and then by weight. -/
def sort : Weights → Weights
  | [] => []
  | q :: rest => insert q (sort rest)

end Weights

end TaskAudit
