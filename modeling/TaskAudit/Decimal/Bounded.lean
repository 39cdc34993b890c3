import TaskAudit.Decimal.Digits

/-!
# Numbers below a bound

A number is read digit by digit, after an optional plus sign. What is reported is
the first digit that is none, or the first that makes the number too large.
-/
namespace TaskAudit.Decimal

inductive Fault where
  | empty
  | badDigit
  | tooLarge
  deriving DecidableEq, Repr

def Fault.message : Fault → String
  | empty => "cannot parse integer from empty string"
  | badDigit => "invalid digit found in string"
  | tooLarge => "number too large to fit in target type"

def further (bound : Nat) (n : Nat) (c : Char) : Except Fault Nat :=
  let m := n * 10 + digitValue c
  if ¬ c.isDigit then .error .badDigit
  else if bound ≤ m then .error .tooLarge
  else .ok m

/-- The number below a bound that a text stands for. -/
def bounded (bound : Nat) : List Char → Except Fault Nat
  | [] => .error .empty
  | ['+'] => .error .badDigit
  | '+' :: cs => cs.foldlM (further bound) 0
  | cs => cs.foldlM (further bound) 0

end TaskAudit.Decimal
