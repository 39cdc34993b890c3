import TaskAudit.Json.Reader

/-!
# Reading a wanted value

Readers for a value of a known kind. If another kind stands there, they stop and
say what was found; a text that is no JSON stops them first.
-/
namespace TaskAudit.Json

open Text

def Found.ofNumber : Json → Found
  | .int n => .int n
  | .float x => .float (String.ofList (floatText x))
  | _ => .null

def unwanted (wanted : String) (s : List Piece) : Stop :=
  let found (f : Found) (rest : List Piece) : Stop := .misfit (.wrongType f wanted) rest
  let afterWord (cs : List Char) (f : Found) (rest : List Piece) : Stop :=
    match word cs rest with
    | .error stop => stop
    | .ok rest => found f rest
  let number (r : Except Stop (Json × List Piece)) : Stop :=
    match r with
    | .error stop => stop
    | .ok (v, rest) => found (.ofNumber v) rest
  match s with
  | [] => .next .endInValue []
  | .ill n :: rest => .next .noValue (.ill n :: rest)
  | .char c :: rest =>
    if c = 'n' then afterWord "ull".toList .null rest
    else if c = 't' then afterWord "rue".toList (.bool true) rest
    else if c = 'f' then afterWord "alse".toList (.bool false) rest
    else if c = '-' then number (unsigned true rest)
    else if c.isDigit then number (unsigned false (.char c :: rest))
    else if c = '"' then
      match string rest with
      | .error stop => stop
      | .ok (text, rest) => found (.str text) rest
    else if c = '[' then found .list (.char c :: rest)
    else if c = '\x7b' then found .object (.char c :: rest)
    else .next .noValue (.char c :: rest)

def text (wanted : String) (s : List Piece) : Except Stop (String × List Piece) :=
  match skipGap s with
  | [] => .error (.next .endInValue [])
  | p :: rest => if p = .char '"' then string rest else .error (unwanted wanted (p :: rest))

def unit (s : List Piece) : Except Stop (Unit × List Piece) :=
  match skipGap s with
  | [] => .error (.next .endInValue [])
  | p :: rest =>
    if p = .char 'n' then do
      let rest ← word "ull".toList rest
      return ((), rest)
    else .error (unwanted "unit" (p :: rest))

def optional {α : Type} (reader : List Piece → Except Stop (α × List Piece)) (s : List Piece) :
    Except Stop (Option α × List Piece) :=
  match skipGap s with
  | .char 'n' :: rest => do
    let rest ← word "ull".toList rest
    return (none, rest)
  | s => do
    let (a, rest) ← reader s
    return (some a, rest)

end TaskAudit.Json
