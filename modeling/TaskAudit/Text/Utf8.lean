/-!
# Characters in a sequence of bytes

A task payload is a sequence of bytes that nobody has promised to be text.
`pieces` cuts it into characters and stretches that belong to no character; a
stretch ends where no character could go on, so that each lost character is
reported once. Bytes that are the UTF-8 form of a text are the characters of
that text and nothing else.
-/
namespace TaskAudit.Text

/-- A piece of a byte sequence: a character, or some bytes that form none. -/
inductive Piece where
  | char (c : Char)
  | ill (width : Nat)
  deriving DecidableEq, Repr

namespace Piece

def width : Piece → Nat
  | .char c => c.utf8Size
  | .ill n => n

def shown : Piece → Char
  | .char c => c
  | .ill _ => '\uFFFD'

def ofText (s : String) : List Piece := s.toList.map .char

end Piece

/-- A character that has begun: the bytes it lacks, the bounds of the next one,
the bits collected and the bytes read. -/
structure Begun where
  lacking : Nat
  low : Nat
  high : Nat
  bits : Nat
  read : Nat
  deriving DecidableEq, Repr

def lead (b : Nat) : List Piece × Option Begun :=
  if b < 0x80 then ([.char (Char.ofNat b)], none)
  else if b < 0xC2 then ([.ill 1], none)
  else if b < 0xE0 then ([], some ⟨1, 0x80, 0xBF, b - 0xC0, 1⟩)
  else if b = 0xE0 then ([], some ⟨2, 0xA0, 0xBF, 0, 1⟩)
  else if b = 0xED then ([], some ⟨2, 0x80, 0x9F, 0xD, 1⟩)
  else if b < 0xF0 then ([], some ⟨2, 0x80, 0xBF, b - 0xE0, 1⟩)
  else if b = 0xF0 then ([], some ⟨3, 0x90, 0xBF, 0, 1⟩)
  else if b < 0xF4 then ([], some ⟨3, 0x80, 0xBF, b - 0xF0, 1⟩)
  else if b = 0xF4 then ([], some ⟨3, 0x80, 0x8F, 4, 1⟩)
  else ([.ill 1], none)

def feed : Option Begun → Nat → List Piece × Option Begun
  | none, b => lead b
  | some o, b =>
    if o.low ≤ b ∧ b ≤ o.high then
      let bits := o.bits * 64 + (b - 0x80)
      if o.lacking ≤ 1 then ([.char (Char.ofNat bits)], none)
      else ([], some ⟨o.lacking - 1, 0x80, 0xBF, bits, o.read + 1⟩)
    else
      let next := lead b
      (.ill o.read :: next.1, next.2)

def scan : Option Begun → List UInt8 → List Piece
  | none, [] => []
  | some o, [] => [.ill o.read]
  | o, b :: rest =>
    let next := feed o b.toNat
    next.1 ++ scan next.2 rest

def pieces (bytes : ByteArray) : List Piece :=
  match String.fromUTF8? bytes with
  | some s => Piece.ofText s
  | none => scan none bytes.toList

/-- The text of a byte sequence, with a replacement character for every stretch
of bytes that forms no character. -/
def lossy (bytes : ByteArray) : String :=
  String.ofList ((pieces bytes).map Piece.shown)

def widths (ps : List Piece) : Nat := (ps.map Piece.width).foldr (· + ·) 0

/-- Bytes that form no character: where they stand, how many they are, and whether
only their end is missing. -/
structure Ill where
  index : Nat
  width : Nat
  isCut : Bool
  deriving DecidableEq, Repr

def Ill.message (i : Ill) : String :=
  let index := toString i.index
  if i.isCut then s!"incomplete utf-8 byte sequence from index {index}"
  else s!"invalid utf-8 sequence of {toString i.width} bytes from index {index}"

/-- The first bytes of a sequence that form no character. Only the end is missing if
they are the last ones and begin a character. -/
def firstIll (bytes : ByteArray) : Option Ill :=
  let ps := pieces bytes
  let before := ps.takeWhile fun p => match p with
    | .char _ => true
    | .ill _ => false
  let index := widths before
  match ps.drop before.length with
  | .ill width :: rest =>
    some ⟨index, width, rest = [] && (lead (bytes.toList[index]?.getD 0).toNat).2.isSome⟩
  | _ => none

end TaskAudit.Text
