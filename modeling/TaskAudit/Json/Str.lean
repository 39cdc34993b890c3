import TaskAudit.Json.Cursor

/-!
# Strings in JSON

A string stands in double quotes. Inside, a backslash begins an escape; a
character outside the first plane may be escaped as a pair of surrogates, and no
surrogate may stand alone. Control characters must be escaped.
-/
namespace TaskAudit.Json

open Text

def hexValue? : Piece → Option Nat
  | .char c =>
    if c.isDigit then some (c.toNat - '0'.toNat)
    else if 'a' ≤ c ∧ c ≤ 'f' then some (c.toNat - 'a'.toNat + 10)
    else if 'A' ≤ c ∧ c ≤ 'F' then some (c.toNat - 'A'.toNat + 10)
    else none
  | .ill _ => none

def hexQuad (s : List Piece) : Except Stop (Nat × List Piece) :=
  if widths s < 4 then .error (.here .endInString [])
  else match s with
    | a :: b :: c :: d :: rest =>
      match hexValue? a, hexValue? b, hexValue? c, hexValue? d with
      | some a, some b, some c, some d => .ok (((a * 16 + b) * 16 + c) * 16 + d, rest)
      | _, _, _, _ => .error ⟨.malformed .badEscape, s, 4⟩
    | _ => .error ⟨.malformed .badEscape, s, 4⟩

def pairMark (c : Char) : List Piece → Except Stop (List Piece)
  | [] => .error (.here .endInString [])
  | p :: rest =>
    if p = .char c then .ok rest else .error ⟨.malformed .halfSurrogatePair, p :: rest, 1⟩

def numbered (s : List Piece) : Except Stop (Char × List Piece) := do
  let (n, s) ← hexQuad s
  if 0xDC00 ≤ n ∧ n ≤ 0xDFFF then .error (.here .loneSurrogate s)
  else if n < 0xD800 ∨ 0xDBFF < n then .ok (Char.ofNat n, s)
  else
    let s ← pairMark '\\' s
    let s ← pairMark 'u' s
    let (m, s) ← hexQuad s
    if m < 0xDC00 ∨ 0xDFFF < m then .error (.here .loneSurrogate s)
    else .ok (Char.ofNat ((n - 0xD800) * 0x400 + (m - 0xDC00) + 0x10000), s)

def escaped : List Piece → Except Stop (Char × List Piece)
  | [] => .error (.here .endInString [])
  | .ill n :: rest => .error ⟨.malformed .badEscape, .ill n :: rest, 1⟩
  | .char c :: rest =>
    if c = '"' ∨ c = '\\' ∨ c = '/' then .ok (c, rest)
    else if c = 'b' then .ok ('\x08', rest)
    else if c = 'f' then .ok ('\x0c', rest)
    else if c = 'n' then .ok ('\n', rest)
    else if c = 'r' then .ok ('\r', rest)
    else if c = 't' then .ok ('\t', rest)
    else if c = 'u' then numbered rest
    else .error ⟨.malformed .badEscape, .char c :: rest, 1⟩

/-- The characters up to the closing quote. Bytes that form no character are
reported when the quote is reached, at the first of them; `flaw` is the input
from there on, if there are any. -/
def stringBody : Nat → Option (List Piece) → List Piece → Except Stop (List Char × List Piece)
  | 0, _, s => .error (.here .endInString s)
  | _ + 1, _, [] => .error (.here .endInString [])
  | fuel + 1, flaw, .ill n :: rest => stringBody fuel (some (flaw.getD (.ill n :: rest))) rest
  | fuel + 1, flaw, .char c :: rest =>
    if c = '"' then
      match flaw with
      | some place => .error (.next .badCodePoint place)
      | none => .ok ([], rest)
    else if c = '\\' then do
      let (d, rest) ← escaped rest
      let (ds, rest) ← stringBody fuel flaw rest
      return (d :: ds, rest)
    else if c.toNat < 0x20 then .error (.here .controlCharacter rest)
    else do
      let (ds, rest) ← stringBody fuel flaw rest
      return (c :: ds, rest)

def string (s : List Piece) : Except Stop (String × List Piece) := do
  let (cs, rest) ← stringBody (s.length + 1) none s
  return (String.ofList cs, rest)

def escapedChar (c : Char) : List Char :=
  if c = '"' then ['\\', '"']
  else if c = '\\' then ['\\', '\\']
  else if c = '\n' then ['\\', 'n']
  else if c = '\r' then ['\\', 'r']
  else if c = '\t' then ['\\', 't']
  else if c = '\x08' then ['\\', 'b']
  else if c = '\x0c' then ['\\', 'f']
  else if c.toNat < 0x20 then
    ['\\', 'u', '0', '0', Nat.digitChar (c.toNat / 16), Nat.digitChar (c.toNat % 16)]
  else [c]

def quote (s : String) : List Char := '"' :: s.toList.flatMap escapedChar ++ ['"']

end TaskAudit.Json
