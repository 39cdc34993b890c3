import TaskAudit.Json.Decode
import TaskAudit.Status

/-!
# Statuses in JSON

A status is written as its name. It is also read from an object whose only member
has that name and the value `null`.
-/
namespace TaskAudit.Status

open Json Text

def toJson (s : Status) : Json := .str s.name

def ofRead (name : String) (rest : List Piece) : Except Stop (Status × List Piece) :=
  match ofName name with
  | .ok s => .ok (s, rest)
  | .error _ => .error (.misfit (.unknownName name (all.map Status.name)) rest)

def closing (s : List Piece) : Except Stop (List Piece) :=
  match skipGap s with
  | [] => .error (.here .endInObject [])
  | p :: rest => if p = .char '\x7d' then .ok rest else .error (.here .noValue (p :: rest))

def readName (s : List Piece) : Except Stop (Status × List Piece) := do
  let (name, rest) ← Json.text "variant identifier" s
  ofRead name rest

def reader (s : List Piece) : Except Stop (Status × List Piece) :=
  match skipGap s with
  | [] => .error (.next .endInValue [])
  | p :: rest =>
    if p = .char '\x7b' then do
      let (status, rest) ← readName rest
      let rest ← colon rest
      let (_, rest) ← unit rest
      let rest ← closing rest
      return (status, rest)
    else if p = .char '"' then readName (p :: rest)
    else .error (.next .noValue (p :: rest))

def ofJsonText (text : String) : Except Json.Error Status :=
  readAll reader (Piece.ofText text)

end TaskAudit.Status
