import TaskAudit.Json.Number
import TaskAudit.Json.Str

/-!
# Reading a JSON value

`read` reads a whole text, `readBytes` a byte sequence, as one value; nothing but
blanks may follow it. Lists and objects may be nested 127 deep. The readers spend
a unit of fuel on every value, item and member; there are at most two of these to
a piece of the text, so `read` always has enough.
-/
namespace TaskAudit.Json

open Text

/-- How many lists and objects may stand inside one another, and one more. -/
def depthLimit : Nat := 128

def colon (s : List Piece) : Except Stop (List Piece) :=
  match skipGap s with
  | [] => .error (.next .endInObject [])
  | p :: rest => if p = .char ':' then .ok rest else .error (.next .noColon (p :: rest))

/-- What follows inside a list or an object: another part, or nothing. -/
inductive Next where
  | more (s : List Piece)
  | done (rest : List Piece)
  deriving DecidableEq, Repr

def nextItem (isFirst : Bool) (s : List Piece) : Except Stop Next :=
  match skipGap s with
  | [] => .error (.next .endInList [])
  | p :: rest =>
    if p = .char ']' then .ok (.done rest)
    else if isFirst then .ok (.more (p :: rest))
    else if p = .char ',' then
      match skipGap rest with
      | [] => .error (.next .endInValue [])
      | q :: more =>
        if q = .char ']' then .error (.next .trailingComma (q :: more))
        else .ok (.more (q :: more))
    else .error (.next .noCommaInList (p :: rest))

def nextName (isFirst : Bool) (s : List Piece) : Except Stop Next :=
  match skipGap s with
  | [] => .error (.next .endInObject [])
  | p :: rest =>
    if p = .char '\x7d' then .ok (.done rest)
    else if isFirst then
      if p = .char '"' then .ok (.more rest) else .error (.next .keyNotText (p :: rest))
    else if p = .char ',' then
      match skipGap rest with
      | [] => .error (.next .endInValue [])
      | q :: more =>
        if q = .char '"' then .ok (.more more)
        else if q = .char '\x7d' then .error (.next .trailingComma (q :: more))
        else .error (.next .keyNotText (q :: more))
    else .error (.next .noCommaInObject (p :: rest))

mutual

/-- A value; `depth` lists and objects less one may still be opened. -/
def value : Nat → Nat → List Piece → Except Stop (Json × List Piece)
  | 0, _, s => .error (.here .endInValue s)
  | fuel + 1, depth, s =>
    match skipGap s with
    | [] => .error (.next .endInValue [])
    | .ill n :: rest => .error (.next .noValue (.ill n :: rest))
    | .char c :: rest =>
      if c = 'n' then do
        let rest ← word "ull".toList rest
        return (.null, rest)
      else if c = 't' then do
        let rest ← word "rue".toList rest
        return (.bool true, rest)
      else if c = 'f' then do
        let rest ← word "alse".toList rest
        return (.bool false, rest)
      else if c = '-' then unsigned true rest
      else if c.isDigit then unsigned false (.char c :: rest)
      else if c = '"' then do
        let (text, rest) ← string rest
        return (.str text, rest)
      else if c = '[' then
        if depth ≤ 1 then .error (.next .tooDeep (.char c :: rest))
        else do
          let (vs, rest) ← items fuel (depth - 1) true rest
          return (.arr vs, rest)
      else if c = '\x7b' then
        if depth ≤ 1 then .error (.next .tooDeep (.char c :: rest))
        else do
          let (ms, rest) ← members fuel (depth - 1) true rest
          return (.ofMembers ms, rest)
      else .error (.next .noValue (.char c :: rest))

def items : Nat → Nat → Bool → List Piece → Except Stop (List Json × List Piece)
  | 0, _, _, s => .error (.here .endInList s)
  | fuel + 1, depth, isFirst, s => do
    match ← nextItem isFirst s with
    | .done rest => return ([], rest)
    | .more s =>
      let (v, rest) ← value fuel depth s
      let (vs, rest) ← items fuel depth false rest
      return (v :: vs, rest)

def members : Nat → Nat → Bool → List Piece → Except Stop (List (String × Json) × List Piece)
  | 0, _, _, s => .error (.here .endInObject s)
  | fuel + 1, depth, isFirst, s => do
    match ← nextName isFirst s with
    | .done rest => return ([], rest)
    | .more s =>
      let (name, rest) ← string s
      let rest ← colon rest
      let (v, rest) ← value fuel depth rest
      let (ms, rest) ← members fuel depth false rest
      return ((name, v) :: ms, rest)

end

def fuelFor (s : List Piece) : Nat := 2 * s.length + 2

def finish (s : List Piece) : Except Stop Unit :=
  match skipGap s with
  | [] => .ok ()
  | p :: rest => .error (.next .trailingText (p :: rest))

def readAll {α : Type} (reader : List Piece → Except Stop (α × List Piece)) (s : List Piece) :
    Except Error α :=
  match reader s with
  | .error stop => .error (stop.toError s)
  | .ok (a, rest) =>
    match finish rest with
    | .error stop => .error (stop.toError s)
    | .ok () => .ok a

def readPieces (s : List Piece) : Except Error Json :=
  readAll (value (fuelFor s) depthLimit) s

def read (text : String) : Except Error Json := readPieces (Piece.ofText text)

def readBytes (bytes : ByteArray) : Except Error Json := readPieces (pieces bytes)

end TaskAudit.Json
