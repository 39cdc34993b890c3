/-!
# The shortest decimal that reads back

A finite double stands for `m * 2 ^ q`, and every real number closer to it than
to the other doubles reads back as it; the ends of that interval belong to it if
`m` is even. On the grid of decimals with a given number of digits only the two
neighbours of the value have to be tried: if any point of the grid lies in the
interval, one of them does. The first grid with a hit has the fewest digits; of
two hits the nearer is taken, and of two equally near ones the even one.
-/
namespace TaskAudit.Decimal

/-- A decimal `0.d₁d₂… * 10 ^ point`. -/
structure Scientific where
  digits : List Char
  point : Int
  deriving DecidableEq, Repr

/-- A positive double in lowest terms: `mantissa * 2 ^ exponent`; `narrow` says that
the double below it is only half as far away as the one above. -/
structure Binary where
  mantissa : Nat
  exponent : Int
  narrow : Bool
  deriving DecidableEq, Repr

/-- The size of a finite double, given its bits. -/
def Binary.ofBits (bits : UInt64) : Binary :=
  let fraction : Nat := bits.toNat % Nat.pow 2 52
  let biased : Nat := bits.toNat / Nat.pow 2 52 % Nat.pow 2 11
  if biased = 0 then ⟨fraction, -1074, false⟩
  else ⟨fraction + Nat.pow 2 52, (biased : Int) - 1075, fraction = 0 && 1 < biased⟩

structure Ratio where
  num : Nat
  den : Nat
  deriving DecidableEq, Repr

def Ratio.scaled (n base : Nat) (exponent : Int) : Ratio :=
  if 0 ≤ exponent then ⟨n * Nat.pow base exponent.toNat, 1⟩
  else ⟨n, Nat.pow base (-exponent).toNat⟩

def Ratio.le (a b : Ratio) : Bool := a.num * b.den ≤ b.num * a.den

def leadingZeros (r : Ratio) : Nat → Nat → Nat
  | 0, k => k
  | fuel + 1, k => if r.den ≤ r.num * Nat.pow 10 k then k else leadingZeros r fuel (k + 1)

/-- The number of digits before the point, negative for zeros behind it. -/
def pointOf (r : Ratio) : Int :=
  let whole := r.num / r.den
  if whole ≠ 0 then ((Nat.toDigits 10 whole).length : Int)
  else 1 - (leadingZeros r 400 1 : Int)

/-- The digits without the zeros at their end. -/
def dropZeros (ds : List Char) : List Char := (ds.reverse.dropWhile (· = '0')).reverse

/-- The number `d`, which has `n` digits or is `10 ^ n`, in units of
`10 ^ (point - n)`. -/
def Scientific.ofUnits (d n : Nat) (point : Int) : Scientific :=
  let ds := Nat.toDigits 10 d
  ⟨dropZeros ds, point + (ds.length : Int) - n⟩

/-- The hit on the grid of `n` digits, if there is one. -/
def hit? (b : Binary) (point : Int) (n : Nat) : Option Scientific :=
  let value := Ratio.scaled (4 * b.mantissa) 2 (b.exponent - 2)
  let low := Ratio.scaled (4 * b.mantissa - (if b.narrow then 1 else 2)) 2 (b.exponent - 2)
  let high := Ratio.scaled (4 * b.mantissa + 2) 2 (b.exponent - 2)
  let unit := Ratio.scaled 1 10 (point - n)
  let below := value.num * unit.den / (value.den * unit.num)
  let closed := b.mantissa % 2 = 0
  let inside (d : Nat) : Bool :=
    let r : Ratio := ⟨d * unit.num, unit.den⟩
    low.le r && r.le high && (closed || !(r.le low) && !(high.le r))
  let twice : Ratio := ⟨(2 * below + 1) * unit.num, 2 * unit.den⟩
  let upward := twice.le value && (!(value.le twice) || below % 2 = 1)
  let take (d : Nat) : Option Scientific :=
    if d = 0 then none else some (Scientific.ofUnits d n point)
  if inside below && inside (below + 1) then take (if upward then below + 1 else below)
  else if inside below then take below
  else if inside (below + 1) then take (below + 1)
  else none

/-- The shortest decimal that reads back as a positive double. -/
def shortest (b : Binary) : Scientific :=
  let point := pointOf (Ratio.scaled b.mantissa 2 b.exponent)
  ((List.range 17).findSome? fun k => hit? b point (k + 1)).getD ⟨['0'], 1⟩

end TaskAudit.Decimal
