/-!
# Endpoints of a collector

An endpoint is an address: a scheme with `://` behind it, an authority and a path
with a query, or an authority alone, or a path alone. `Endpoint.check` says what
is wrong with a text that is none.
-/
namespace TaskAudit.Endpoint

/-- What can be wrong with an endpoint. -/
inductive Fault where
  | badCharacter
  | badAuthority
  | badFormat
  | empty
  | schemeTooLong
  | tooLong
  deriving DecidableEq, Repr

def Fault.message : Fault → String
  | badCharacter => "invalid uri character"
  | badAuthority => "invalid authority"
  | badFormat => "invalid format"
  | empty => "empty string"
  | schemeTooLong => "scheme too long"
  | tooLong => "uri too long"

def schemeLimit : Nat := 64

def limit : Nat := 65534

def inScheme (c : Char) : Bool := c.isAlphanum || "+-.~".toList.contains c

def inAuthority (c : Char) : Bool :=
  c.isAlphanum || "-._~!$&'()*+,;=:@[]%".toList.contains c

def inPath (c : Char) : Bool :=
  0x7E < c.toNat || c.isAlphanum || "!\"$%&'()*+,-./:;=@[\\]^_|~\x7b\x7d".toList.contains c

def inQuery (c : Char) : Bool :=
  0x3F ≤ c.toNat || c.isAlphanum || "!$%&'()*+,-./:;=".toList.contains c

/-- The characters behind the scheme, if there is one. A scheme may be without letters,
but `://` alone has none. -/
def behindScheme (cs : List Char) : Except Fault (Option (List Char)) :=
  let name := cs.takeWhile inScheme
  let rest := cs.drop name.length
  if cs = "://".toList then .ok none
  else if "://".toList.isPrefixOf rest then
    if schemeLimit < name.length then .error .schemeTooLong else .ok (some (rest.drop 3))
  else .ok none

/-- What has been seen of an authority since its user part ended. -/
structure Seen where
  colons : Nat := 0
  percent : Bool := false
  opened : Bool := false
  closed : Bool := false
  deriving DecidableEq, Repr

def authority (last : Option Char) (s : Seen) : List Char → Except Fault (List Char)
  | [] => ending []
  | c :: cs =>
    if c = '/' ∨ c = '?' ∨ c = '#' then ending (c :: cs)
    else if ¬ inAuthority c then .error .badCharacter
    else if c = ':' then
      if 8 ≤ s.colons then .error .badAuthority
      else authority (some c) { s with colons := s.colons + 1 } cs
    else if c = '[' then
      if s.percent || s.opened then .error .badAuthority
      else authority (some c) { s with opened := true } cs
    else if c = ']' then
      if !s.opened || s.closed then .error .badAuthority
      else authority (some c) { s with closed := true, colons := 0, percent := false } cs
    else if c = '@' then authority (some c) { s with colons := 0, percent := false } cs
    else if c = '%' then authority (some c) { s with percent := true } cs
    else authority (some c) s cs
where
  /-- An authority ends with what follows it, if it is complete. -/
  ending (rest : List Char) : Except Fault (List Char) :=
    if s.opened ≠ s.closed ∨ 1 < s.colons ∨ last = some '@' ∨ s.percent then
      .error .badAuthority
    else .ok rest

def path (cs : List Char) : Except Fault Unit :=
  let body := cs.takeWhile (· ≠ '#')
  let query := (body.dropWhile (· ≠ '?')).drop 1
  if (body.takeWhile (· ≠ '?')).all inPath ∧ query.all inQuery then .ok ()
  else .error .badCharacter

def check (text : String) : Except Fault Unit :=
  let cs := text.toList
  if limit < text.utf8ByteSize then .error .tooLong
  else if cs = [] then .error .empty
  else if cs.head? = some '/' then path cs
  else if cs = ['*'] then .ok ()
  else do
    match ← behindScheme cs with
    | none =>
      let rest ← authority none {} cs
      if rest = [] then .ok ()
      else if cs.length = 1 then .error .badCharacter
      else .error .badFormat
    | some [] => .error .empty
    | some body =>
      let rest ← authority none {} body
      if rest.length = body.length then .error .badFormat else path rest

end TaskAudit.Endpoint
