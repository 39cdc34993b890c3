import TaskAudit.Json.Error
import TaskAudit.Text.Utf8

/-!
# Reading through a text

A reader takes the pieces still to be read and answers with what it found and the
pieces left, or stops. A stop names the place by the pieces left and the bytes
beyond their start, so that no reader has to count lines.
-/
namespace TaskAudit.Json

open Text

/-- Where and why reading stops. -/
structure Stop where
  cause : Cause
  rest : List Piece
  beyond : Nat
  deriving DecidableEq, Repr

namespace Stop

def here (fault : Malformed) (rest : List Piece) : Stop := ⟨.malformed fault, rest, 0⟩

def next (fault : Malformed) (rest : List Piece) : Stop := ⟨.malformed fault, rest, 1⟩

def misfit (fault : Mismatch) (rest : List Piece) : Stop := ⟨.mismatch fault, rest, 0⟩

end Stop

/-- The place after some bytes of a text; a line end is a byte of the line before. -/
def placeAfter : Nat → List Piece → Place → Place
  | _, [], p => p
  | n, c :: rest, p =>
    if n = 0 then p
    else if n < c.width then ⟨p.line, p.column + n⟩
    else if c = .char '\n' then placeAfter (n - 1) rest ⟨p.line + 1, 0⟩
    else placeAfter (n - c.width) rest ⟨p.line, p.column + c.width⟩

/-- The error that a stop in the reading of a text amounts to. -/
def Stop.toError (whole : List Piece) (s : Stop) : Error :=
  ⟨s.cause, some (placeAfter (widths whole - widths s.rest + s.beyond) whole ⟨1, 0⟩)⟩

def isGap : Piece → Bool
  | .char c => c = ' ' || c = '\n' || c = '\t' || c = '\r'
  | .ill _ => false

def skipGap (s : List Piece) : List Piece := s.dropWhile isGap

def isDigitPiece : Piece → Bool
  | .char c => c.isDigit
  | .ill _ => false

def word : List Char → List Piece → Except Stop (List Piece)
  | [], s => .ok s
  | _ :: _, [] => .error (.here .endInValue [])
  | c :: cs, p :: rest =>
    if p = .char c then word cs rest else .error (.next .badWord (p :: rest))

end TaskAudit.Json
