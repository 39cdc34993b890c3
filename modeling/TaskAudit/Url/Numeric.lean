import TaskAudit.Decimal.Digits
import TaskAudit.Text.Parts

/-!
# Hosts given by a number

A host may be given by its number on the net: four bytes between dots, or eight
groups of hexadecimal digits between colons, of which one row of zeros may be left
out. On the web the first kind has looser forms: fewer parts, of which the last
fills the bytes that are left, in octal or hexadecimal digits too.
-/
namespace TaskAudit.Url

open Text

def isByte (cs : List Char) : Bool :=
  cs ≠ [] && cs.all Char.isDigit && cs.length ≤ 3 && Decimal.value cs ≤ 255 &&
    (cs.length = 1 || cs.head? ≠ some '0')

def isAddress4 (cs : List Char) : Bool :=
  (split '.' cs).length = 4 && (split '.' cs).all isByte

def isHexDigit (c : Char) : Bool :=
  c.isDigit || 'a' ≤ c && c ≤ 'f' || 'A' ≤ c && c ≤ 'F'

def isGroup (cs : List Char) : Bool := cs ≠ [] && cs.length ≤ 4 && cs.all isHexDigit

/-- The number of groups that some parts stand for; the last of them may be four
bytes, which are two groups. -/
def groupCount : List (List Char) → Option Nat
  | [] => some 0
  | [g] => if isGroup g then some 1 else if isAddress4 g then some 2 else none
  | g :: gs => if isGroup g then (groupCount gs).map (· + 1) else none

/-- The texts around the first two colons that stand together. -/
def cutGap : List Char → Option (List Char × List Char)
  | ':' :: ':' :: rest => some ([], rest)
  | c :: rest => (cutGap rest).map fun p => (c :: p.1, p.2)
  | [] => none

def groups (cs : List Char) : List (List Char) := if cs = [] then [] else split ':' cs

/-- Eight groups between colons; two colons stand for one group of zeros or more. -/
def isAddress6 (cs : List Char) : Bool :=
  match cutGap cs with
  | none => groupCount (groups cs) = some 8
  | some (front, back) =>
    match groupCount (groups back) with
    | none => false
    | some n => (groups front).all isGroup && (groups front).length + n ≤ 7

def digitOf (c : Char) : Nat :=
  if c.isDigit then c.toNat - '0'.toNat else c.toLower.toNat - 'a'.toNat + 10

/-- A number in the base that its first characters show. -/
def looseNumber? (cs : List Char) : Option Nat :=
  let (base, digits) := match cs with
    | '0' :: 'x' :: rest | '0' :: 'X' :: rest => (16, rest)
    | '0' :: c :: rest => (8, c :: rest)
    | _ => (10, cs)
  if cs ≠ [] ∧ digits.all (fun c => isHexDigit c && digitOf c < base) then
    some (digits.foldl (fun n c => n * base + digitOf c) 0)
  else none

def labels (cs : List Char) : List (List Char) :=
  match (split '.' cs).reverse with
  | [] :: front => front.reverse
  | parts => parts.reverse

/-- Does a name end in a number, so that it is none? -/
def endsInNumber (cs : List Char) : Bool :=
  match (labels cs).getLast? with
  | none => false
  | some part => (part ≠ [] && part.all Char.isDigit) || (looseNumber? part).isSome

def looseAddress4? (cs : List Char) : Option Nat := do
  let numbers ← (labels cs).mapM looseNumber?
  let front := numbers.dropLast
  let last ← numbers.getLast?
  if 4 < numbers.length ∨ front.any (fun n => 255 < n) ∨
      Nat.pow 256 (4 - front.length) ≤ last then none
  else some (front.mapIdx (fun i n => n * Nat.pow 256 (3 - i)) |>.foldr (· + ·) last)

def address4 (n : Nat) : List Char :=
  join '.' ((List.range 4).map fun i => Decimal.digits (n / Nat.pow 256 (3 - i) % 256))

end TaskAudit.Url
