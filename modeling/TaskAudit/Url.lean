import TaskAudit.Decimal.Digits
import TaskAudit.Url.Domain
import TaskAudit.Url.Numeric
import TaskAudit.Url.Path

/-!
# Locators

A locator is a scheme, a colon and what the scheme is about: an authority after two
slashes, a path, a query after a question mark, a fragment after a number sign. An
authority is a user with a password before an at sign, a host, and the number of a
service after a colon. The schemes of the web need a host, take backslashes for
slashes and have a number of their own. Blanks and control characters around a
locator are dropped, tabs and line ends in it too.
-/
namespace TaskAudit

/-- A user, a host and the number of a service. -/
structure Authority where
  user : List Char := []
  password : List Char := []
  host : List Char := []
  number : Option Nat := none
  deriving DecidableEq, Repr

/-- The parts of a locator. -/
structure Url where
  scheme : String
  authority : Option Authority := none
  path : List Char := []
  query : Option (List Char) := none
  fragment : Option (List Char) := none
  deriving DecidableEq, Repr

namespace Url

open Text

inductive Fault where
  | noScheme
  | emptyHost
  | badNumber
  | badAddress4
  | badAddress6
  | badHost
  | badName
  deriving DecidableEq, Repr

def Fault.message : Fault → String
  | noScheme => "relative URL without a base"
  | emptyHost => "empty host"
  | badNumber => "invalid port number"
  | badAddress4 => "invalid IPv4 address"
  | badAddress6 => "invalid IPv6 address"
  | badHost => "invalid domain character"
  | badName => "invalid international domain name"

/-- How a locator is read: as one of the web, of a file, or of any other kind. -/
inductive Kind where
  | web
  | file
  | other
  deriving DecidableEq, Repr

def webNumbers : List (String × Nat) :=
  [("http", 80), ("https", 443), ("ws", 80), ("wss", 443), ("ftp", 21)]

def usualNumber (scheme : String) : Option Nat :=
  (webNumbers.find? (·.1 = scheme)).map Prod.snd

def Kind.ofScheme (scheme : String) : Kind :=
  if scheme = "file" then .file
  else if (usualNumber scheme).isSome then .web
  else .other

def Kind.isSlash (kind : Kind) (c : Char) : Bool := c = '/' || (c = '\\' && kind ≠ .other)

def inScheme (c : Char) : Bool := c.isAlphanum || c = '+' || c = '-' || c = '.'

def isScheme : List Char → Bool
  | [] => false
  | c :: cs => c.isAlpha && cs.all inScheme

def outsideHost : List Char := "\x00 #/:<>?@[\\]^|".toList

def host (kind : Kind) (cs : List Char) : Except Fault (List Char) :=
  match cs with
  | '[' :: rest =>
    if rest.getLast? = some ']' ∧ isAddress6 rest.dropLast then .ok cs else .error .badAddress6
  | _ =>
    if kind = .other then
      if cs.any outsideHost.contains then .error .badHost else .ok cs
    else match domain? cs with
      | none => .error .badName
      | some name =>
        if name = [] then .error .emptyHost
        else if endsInNumber name then
          match looseAddress4? name with
          | none => .error .badAddress4
          | some n => .ok (address4 n)
        else .ok name

/-- The host of an authority and what follows its colon, if there is one. A colon
between brackets belongs to the host. -/
def cutHost : Bool → List Char → List Char × Option (List Char)
  | _, [] => ([], none)
  | inside, c :: cs =>
    if c = ':' ∧ ¬ inside then ([], some cs)
    else
      let inside := if c = '[' then true else if c = ']' then false else inside
      let rest := cutHost inside cs
      (c :: rest.1, rest.2)

def highestNumber : Nat := 65535

/-- The number of a service and what follows it, which can only be a backslash. An
empty number is the usual one. -/
def number (cs : List Char) : Except Fault (Option Nat × List Char) :=
  let digits := cs.takeWhile Char.isDigit
  let rest := cs.drop digits.length
  if highestNumber < Decimal.value digits ∨ ¬ rest.head?.all (· = '\\') then .error .badNumber
  else .ok (if digits = [] then none else some (Decimal.value digits), rest)

/-- An authority and what follows the number of its service. `isOver` says that the
locator ends with it. -/
def readAuthority (scheme : String) (isOver : Bool) (cs : List Char) :
    Except Fault (Authority × List Char) := do
  let kind := Kind.ofScheme scheme
  let behind := (cs.reverse.takeWhile (· ≠ '@')).reverse
  let before := (cs.take (cs.length - behind.length)).dropLast
  let (user, password) := cut ':' before
  let password := password.getD []
  let (name, service) := cutHost false behind
  if cs.head? = some '@' ∧ before = [] ∧ behind = [] ∧ ¬ isOver then .error .emptyHost
  else if name = [] ∧ kind = .web then .error .emptyHost
  else
    let host ← host kind name
    if host = [] ∧ (service.isSome ∨ user ≠ [] ∨ password ≠ []) then .error .emptyHost
    else
      let (n, rest) ← number (service.getD [])
      return ({ user, password, host, number := n.filter (usualNumber scheme ≠ some ·) }, rest)

def isDrive : List Char → Bool
  | [c, mark] => c.isAlpha && (mark = ':' || mark = '|')
  | _ => false

/-- The host of a file. This machine needs no name. -/
def fileHost (cs : List Char) : Except Fault Authority := do
  if cs = [] then return {}
  let host ← host .file cs
  return { host := if host = "localhost".toList then [] else host }

/-- A text without the blanks and control characters around it, and without the tabs and
line ends in it. -/
def tidy (cs : List Char) : List Char :=
  let isOuter (c : Char) : Bool := c.toNat ≤ 0x20
  let front := cs.dropWhile isOuter
  let back := (front.reverse.dropWhile isOuter).reverse
  back.filter fun c => c ≠ '\t' && c ≠ '\n' && c ≠ '\r'

def rooted (kind : Kind) (cs : List Char) : List Char :=
  if kind = .other then
    match cs with
    | [] => []
    | '/' :: _ => withoutDots cs
    | _ => withoutDots ('/' :: cs)
  else
    let cs := cs.map fun c => if kind.isSlash c then '/' else c
    withoutDots (if cs.head? = some '/' then cs else '/' :: cs)

/-- The authority and the path of a locator, given what stands between its scheme and
its query. -/
def location (scheme : String) (isOver : Bool) (cs : List Char) :
    Except Fault (Option Authority × List Char) := do
  let kind := Kind.ofScheme scheme
  let slashes := cs.takeWhile kind.isSlash
  let body := cs.drop (if kind = .web then slashes.length else 2)
  let name := body.takeWhile (!kind.isSlash ·)
  let rest := body.drop name.length
  if kind = .other ∧ slashes = [] then return (none, cs)
  else if kind ≠ .web ∧ slashes.length < 2 then return (none, rooted kind cs)
  else if kind = .file then
    if isDrive name then return (some {}, rooted kind body)
    else return (some (← fileHost name), rooted kind rest)
  else
    let (authority, more) ← readAuthority scheme (isOver && rest = []) name
    return (some authority, rooted kind (more ++ rest))

def ofText (text : String) : Except Fault Url := do
  let (name, body) := cut ':' (tidy text.toList)
  match body with
  | none => .error .noScheme
  | some body =>
    if ¬ isScheme name then .error .noScheme
    else
      let scheme := String.ofList (name.map Char.toLower)
      let (body, fragment) := cut '#' body
      let (body, query) := cut '?' body
      let (authority, path) ← location scheme (fragment.isNone && query.isNone) body
      return { scheme, authority, path, query, fragment }

def marked (mark : Char) : Option (List Char) → List Char
  | none => []
  | some cs => mark :: cs

def Authority.written (a : Authority) : List Char :=
  let password := if a.password = [] then [] else ':' :: a.password
  let user := a.user ++ password
  (if user = [] then [] else user ++ ['@']) ++ a.host ++ marked ':' (a.number.map Decimal.digits)

def body (u : Url) : List Char :=
  let authority := match u.authority with
    | none => []
    | some a => '/' :: '/' :: Authority.written a
  authority ++ u.path ++ marked '?' u.query ++ marked '#' u.fragment

end Url

end TaskAudit
