import TaskAudit.Decimal.Shortest
import TaskAudit.Json.Basic
import TaskAudit.Json.Cursor

/-!
# Numbers in JSON

A number without decimals and exponent is an integer if it fits in 64 bits,
signed or unsigned; every other number is a double. A double is read from the
digits that fit in 64 bits, as an integer times or over one power of ten, and
written in the shortest form that reads back, with a point or an exponent.
-/
namespace TaskAudit.Json

open Text

def wordLimit : Nat := Nat.pow 2 64

/-- The digits that begin a list of pieces, and the rest. -/
def spanDigits : List Piece → List Char × List Piece
  | .char c :: rest =>
    if c.isDigit then
      let (ds, rest) := spanDigits rest
      (c :: ds, rest)
    else ([], .char c :: rest)
  | s => ([], s)

def absorb (n : Nat) : List Char → Nat × List Char
  | [] => (n, [])
  | d :: ds =>
    let m := n * 10 + Decimal.digitValue d
    if m < wordLimit then absorb m ds else (n, d :: ds)

def tenTo (n : Nat) : Float := Float.ofScientific 1 false n

/-- `x / 10 ^ n`, in steps of 308 as long as the power is no double. -/
def overTen (x : Float) : Nat → Nat → Float
  | 0, _ => x
  | fuel + 1, n =>
    if n ≤ 308 then x / tenTo n
    else if x == 0 then x
    else overTen (x / tenTo 308) fuel (n - 308)

def scaled? (n : Nat) (exponent : Int) : Option Float :=
  let x := n.toUInt64.toFloat
  if exponent < 0 then some (overTen x (exponent.natAbs / 308 + 2) exponent.natAbs)
  else if exponent.toNat ≤ 308 then
    let y := x * tenTo exponent.toNat
    if y.isInf then none else some y
  else if x == 0 then some x
  else none

def double (negative : Bool) (n : Nat) (exponent : Int) (rest : List Piece) :
    Except Stop (Json × List Piece) :=
  match scaled? n exponent with
  | some x => .ok (.float (if negative then -x else x), rest)
  | none => .error (.here .numberTooLarge rest)

def exponentLimit : Nat := Nat.pow 2 31

def exponentDigits (n : Nat) : List Piece → Nat × List Piece × Bool
  | .char c :: rest =>
    if c.isDigit then
      let m := n * 10 + Decimal.digitValue c
      if m < exponentLimit then exponentDigits m rest else (n, rest, false)
    else (n, .char c :: rest, true)
  | s => (n, s, true)

/-- The exponent of a double, after the letter `e`. -/
def withExponent (negative : Bool) (n : Nat) (exponent : Int) (s : List Piece) :
    Except Stop (Json × List Piece) :=
  let (down, s) := match s with
    | .char '+' :: rest => (false, rest)
    | .char '-' :: rest => (true, rest)
    | s => (false, s)
  match s with
  | [] => .error (.here .endInValue [])
  | p :: rest =>
    if isDigitPiece p then
      let (e, rest, fits) := exponentDigits 0 (p :: rest)
      if fits then
        let e : Int := if down then exponent - e else exponent + e
        let low : Int := -(exponentLimit : Int)
        double negative n (max low (min (exponentLimit - 1 : Int) e)) rest
      else if n ≠ 0 ∧ !down then .error (.here .numberTooLarge rest)
      else .ok (.float (if negative then -0.0 else 0.0), (spanDigits rest).2)
    else .error (.next .badNumber (p :: rest))

/-- What follows the digits before the point or after it, if a double is read. -/
def exponentOrEnd (negative : Bool) (n : Nat) (exponent : Int) :
    List Piece → Except Stop (Json × List Piece)
  | .char c :: rest =>
    if c = 'e' ∨ c = 'E' then withExponent negative n exponent rest
    else double negative n exponent (.char c :: rest)
  | s => double negative n exponent s

def withDecimals (negative : Bool) (n : Nat) (dropped : Nat) (s : List Piece) :
    Except Stop (Json × List Piece) :=
  let (ds, rest) := spanDigits s
  if ds = [] then
    .error (.next (if rest = [] then .endInValue else .badNumber) rest)
  else
    let (n, left) := absorb n ds
    exponentOrEnd negative n ((dropped : Int) - (ds.length - left.length : Nat)) rest

/-- An integer if it fits in 64 bits, else a double. -/
def integer (negative : Bool) (n : Nat) : Json :=
  if !negative then .int n
  else if n = 0 ∨ Nat.pow 2 63 < n then .float (-(n.toUInt64.toFloat))
  else .int (-(n : Int))

def afterDigits (negative : Bool) (ds : List Char) (s : List Piece) :
    Except Stop (Json × List Piece) :=
  let (n, left) := absorb 0 ds
  match s with
  | .char '.' :: rest => withDecimals negative n left.length rest
  | .char 'e' :: rest => withExponent negative n left.length rest
  | .char 'E' :: rest => withExponent negative n left.length rest
  | s => if left = [] then .ok (integer negative n, s) else double negative n left.length s

def unsigned (negative : Bool) (s : List Piece) : Except Stop (Json × List Piece) :=
  let (ds, rest) := spanDigits s
  match ds with
  | [] => .error (if s = [] then .here .endInValue [] else .next .badNumber s)
  | '0' :: _ :: _ => .error (.next .badNumber (s.drop 1))
  | ds => afterDigits negative ds rest

/-- A double between 1e-5 and 1e16 is written with a point, any other with an
exponent. -/
def floatText (x : Float) : List Char :=
  if x.isNaN || x.isInf then "null".toList
  else
    let sign : List Char := if x.toBits.toNat < Nat.pow 2 63 then [] else ['-']
    if x == 0 then sign ++ "0.0".toList
    else
      let d := Decimal.shortest (Decimal.Binary.ofBits x.toBits)
      let count : Int := d.digits.length
      sign ++
        if d.point < -4 ∨ 16 < d.point then
          let mantissa := match d.digits with
            | [c] => [c]
            | c :: cs => c :: '.' :: cs
            | [] => []
          let e := d.point - 1
          mantissa ++ 'e' :: (if e < 0 then '-' else '+') :: Decimal.digits e.natAbs
        else if d.point ≤ 0 then
          "0.".toList ++ List.replicate (-d.point).toNat '0' ++ d.digits
        else if count ≤ d.point then
          d.digits ++ List.replicate (d.point - count).toNat '0' ++ ".0".toList
        else d.digits.take d.point.toNat ++ '.' :: d.digits.drop d.point.toNat

end TaskAudit.Json
