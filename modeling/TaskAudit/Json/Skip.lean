import TaskAudit.Json.Reader

/-!
# Passing over a value

A member that nobody asked for is passed over. It has to be well formed, but its
depth, the size of its numbers and the pairing of its surrogates do not matter.
-/
namespace TaskAudit.Json

open Text

def skipDigits (s : List Piece) : Except Stop (List Piece) :=
  match spanDigits s with
  | ([], rest) => .error (.next .badNumber rest)
  | (_, rest) => .ok rest

def skipExponent (s : List Piece) : Except Stop (List Piece) :=
  let signed : List Piece → Except Stop (List Piece)
    | .char '+' :: rest => skipDigits rest
    | .char '-' :: rest => skipDigits rest
    | rest => skipDigits rest
  match s with
  | .char 'e' :: rest => signed rest
  | .char 'E' :: rest => signed rest
  | _ => .ok s

def skipNumber (s : List Piece) : Except Stop (List Piece) := do
  let rest ← skipDigits s
  match (spanDigits s).1 with
  | '0' :: _ :: _ => .error (.next .badNumber (s.drop 1))
  | _ =>
    let rest ← match rest with
      | .char '.' :: rest => skipDigits rest
      | _ => .ok rest
    skipExponent rest

def skipString : Nat → List Piece → Except Stop (List Piece)
  | 0, s => .error (.here .endInString s)
  | _ + 1, [] => .error (.here .endInString [])
  | fuel + 1, .ill _ :: rest => skipString fuel rest
  | fuel + 1, .char c :: rest =>
    if c = '"' then .ok rest
    else if c = '\\' then
      match rest with
      | .char 'u' :: more => do
        let (_, rest) ← hexQuad more
        skipString fuel rest
      | _ => do
        let (_, rest) ← escaped rest
        skipString fuel rest
    else if c.toNat < 0x20 then .error (.here .controlCharacter rest)
    else skipString fuel rest

mutual

def skipValue : Nat → List Piece → Except Stop (List Piece)
  | 0, s => .error (.here .endInValue s)
  | fuel + 1, s =>
    match skipGap s with
    | [] => .error (.next .endInValue [])
    | .ill n :: rest => .error (.next .noValue (.ill n :: rest))
    | .char c :: rest =>
      if c = 'n' then word "ull".toList rest
      else if c = 't' then word "rue".toList rest
      else if c = 'f' then word "alse".toList rest
      else if c = '-' then skipNumber rest
      else if c.isDigit then skipNumber (.char c :: rest)
      else if c = '"' then skipString (rest.length + 1) rest
      else if c = '[' then skipItems fuel true rest
      else if c = '\x7b' then skipMembers fuel true rest
      else .error (.next .noValue (.char c :: rest))

def skipItems : Nat → Bool → List Piece → Except Stop (List Piece)
  | 0, _, s => .error (.here .endInList s)
  | fuel + 1, isFirst, s => do
    match ← nextItem isFirst s with
    | .done rest => return rest
    | .more s =>
      let rest ← skipValue fuel s
      skipItems fuel false rest

def skipMembers : Nat → Bool → List Piece → Except Stop (List Piece)
  | 0, _, s => .error (.here .endInObject s)
  | fuel + 1, isFirst, s => do
    match ← nextName isFirst s with
    | .done rest => return rest
    | .more s =>
      let rest ← skipString (s.length + 1) s
      let rest ← colon rest
      let rest ← skipValue fuel rest
      skipMembers fuel false rest

end

def skip (s : List Piece) : Except Stop (List Piece) := skipValue (fuelFor s) s

end TaskAudit.Json
