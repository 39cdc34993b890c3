/-!
# Decimal digits

Numbers written in decimal, either with as few digits as they need or with a
fixed number of them, and the readers for both.
-/
namespace TaskAudit.Decimal

def digits (n : Nat) : List Char := Nat.toDigits 10 n

/-- The last `width` digits of a number, with zeros in front. -/
def fixed : Nat → Nat → List Char
  | 0, _ => []
  | w + 1, n => fixed w (n / 10) ++ [Nat.digitChar (n % 10)]

def atLeast (width n : Nat) : List Char :=
  let ds := digits n
  List.replicate (width - ds.length) '0' ++ ds

def signed (n : Int) : List Char :=
  if n < 0 then '-' :: digits n.natAbs else digits n.natAbs

def text (n : Nat) : String := String.ofList (digits n)

def signedText (n : Int) : String := String.ofList (signed n)

def digitValue (c : Char) : Nat := c.toNat - '0'.toNat

def value (cs : List Char) : Nat := cs.foldl (fun n c => n * 10 + digitValue c) 0

def ofDigits? (cs : List Char) : Option Nat :=
  if cs ≠ [] ∧ cs.all Char.isDigit then some (value cs) else none

/-- Digits after an optional plus sign, as a number below `bound`. -/
def ofText? (bound : Nat) (cs : List Char) : Option Nat :=
  let body := match cs with
    | '+' :: rest => rest
    | _ => cs
  (ofDigits? body).filter (· < bound)

/-- Digits after an optional sign, as a number in `-bound ≤ n < bound`. -/
def ofSignedText? (bound : Nat) : List Char → Option Int
  | '-' :: rest => ((ofDigits? rest).filter (· ≤ bound)).map fun n => -(n : Int)
  | cs => (ofText? bound cs).map fun n => (n : Int)

@[simp]
theorem length_fixed (w n : Nat) : (fixed w n).length = w := by
  induction w generalizing n with
  | zero => rfl
  | succ w ih => simp [fixed, ih]

end TaskAudit.Decimal
