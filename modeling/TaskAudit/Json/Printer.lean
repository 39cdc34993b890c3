import TaskAudit.Json.Number
import TaskAudit.Json.Str

/-!
# Writing JSON values

`compact` writes a value without blanks, `indented` gives every item and member
a line of its own, two blanks further in for each level.
-/
namespace TaskAudit.Json

mutual

def compactChars : Json → List Char
  | .null => "null".toList
  | .bool b => if b then "true".toList else "false".toList
  | .int n => Decimal.signed n
  | .float x => floatText x
  | .str s => quote s
  | .arr vs => '[' :: compactItems true vs ++ [']']
  | .obj ms => '\x7b' :: compactMembers true ms ++ ['\x7d']

def compactItems : Bool → List Json → List Char
  | _, [] => []
  | isFirst, v :: vs =>
    (if isFirst then [] else [',']) ++ compactChars v ++ compactItems false vs

def compactMembers : Bool → List (String × Json) → List Char
  | _, [] => []
  | isFirst, (name, v) :: ms =>
    (if isFirst then [] else [',']) ++ quote name ++ ':' :: compactChars v ++
      compactMembers false ms

end

def compact (v : Json) : String := String.ofList (compactChars v)

def newline (level : Nat) : List Char := '\n' :: List.replicate (2 * level) ' '

mutual

def indentedChars : Nat → Json → List Char
  | _, .arr [] => "[]".toList
  | level, .arr (v :: vs) =>
    '[' :: indentedItems (level + 1) true (v :: vs) ++ newline level ++ [']']
  | _, .obj [] => ['\x7b', '\x7d']
  | level, .obj (m :: ms) =>
    '\x7b' :: indentedMembers (level + 1) true (m :: ms) ++ newline level ++ ['\x7d']
  | _, .null => "null".toList
  | _, .bool b => if b then "true".toList else "false".toList
  | _, .int n => Decimal.signed n
  | _, .float x => floatText x
  | _, .str s => quote s

def indentedItems : Nat → Bool → List Json → List Char
  | _, _, [] => []
  | level, isFirst, v :: vs =>
    (if isFirst then [] else [',']) ++ newline level ++ indentedChars level v ++
      indentedItems level false vs

def indentedMembers : Nat → Bool → List (String × Json) → List Char
  | _, _, [] => []
  | level, isFirst, (name, v) :: ms =>
    (if isFirst then [] else [',']) ++ newline level ++ quote name ++ ": ".toList ++
      indentedChars level v ++ indentedMembers level false ms

end

def indented (v : Json) : String := String.ofList (indentedChars 0 v)

end TaskAudit.Json
