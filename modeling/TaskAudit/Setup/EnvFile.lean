import TaskAudit.Setup
import TaskAudit.Text.Blank
import TaskAudit.Text.Word

/-!
# Environment files

An environment file gives a variable a value in each line: `NAME=value`, perhaps
after the word `export`. A value may stand in quotes of both kinds and then goes on
over several lines; a backslash takes a character literally; a dollar sign brings
in the value of a variable. A variable that is set already keeps its value, and the
first faulty line ends the file.
-/
namespace TaskAudit.EnvFile

inductive Scan where
  | plain
  | blank
  | escape
  | weak
  | weakEscape
  | strong
  | strongEscape
  deriving DecidableEq, Repr

def Scan.next (s : Scan) (c : Char) : Scan :=
  let outside : Scan :=
    if c = '\\' then .escape
    else if c = '"' then .weak
    else if c = '\'' then .strong
    else .plain
  match s with
  | .blank => outside
  | .plain => if Text.isBlank c && c ≠ '\n' && c ≠ '\r' then .blank else outside
  | .escape => .plain
  | .weak => if c = '\\' then .weakEscape else if c = '"' then .plain else .weak
  | .weakEscape => .weak
  | .strong => if c = '\\' then .strongEscape else if c = '\'' then .plain else .strong
  | .strongEscape => .strong

/-- Goes through a line: the characters before a comment, the place at the end, and
whether a comment was met. -/
def scan (s : Scan) : List Char → List Char × Scan × Bool
  | [] => ([], s, false)
  | c :: cs =>
    if s = .blank ∧ c = '#' then ([], s, true)
    else
      let (kept, r) := scan (s.next c) cs
      (c :: kept, r)

def physical : List Char → List (List Char)
  | [] => []
  | c :: cs =>
    if c = '\n' then [c] :: physical cs
    else match physical cs with
      | [] => [[c]]
      | line :: lines => (c :: line) :: lines

def chomp (line : List Char) : List Char :=
  match line.reverse with
  | '\n' :: '\r' :: rest | '\n' :: rest => rest.reverse
  | _ => line

def isComment (line : List Char) : Bool := (Text.trimStart line).head? = some '#'

/-- The lines of a file, each as long as its quotes are open. `pending` is the line
so far; a last line that is not complete is dropped. -/
def logical (pending : List Char) (s : Scan) : List (List Char) → List (List Char)
  | [] => []
  | line :: rest =>
    let all := pending ++ line
    if isComment all then [] :: logical [] .plain rest
    else
      let (kept, s, isCut) := scan s line
      if isCut then (pending ++ kept) :: logical [] .plain rest
      else if s = .plain then chomp all :: logical [] .plain rest
      else logical all s rest

/-- What has been read of a value. A variable is `bare` after a dollar sign, or
stands in braces. -/
structure Value where
  out : List Char := []
  isStrong : Bool := false
  isWeak : Bool := false
  isEscaped : Bool := false
  isEnding : Bool := false
  isCut : Bool := false
  inBraces : Bool := false
  name : Option (List Char) := none
  deriving DecidableEq, Repr

namespace Value

def push (v : Value) (c : Char) : Value := { v with out := v.out ++ [c] }

def substitute (env : Environment) (v : Value) : Value :=
  match v.name with
  | none => v
  | some name =>
    { v with
      out := v.out ++ ((env (String.ofList name)).getD "").toList
      name := none
      inBraces := false }

def stepName (env : Environment) (v : Value) (name : List Char) (c : Char) : Value :=
  if Text.isWordPart c then { v with name := some (name ++ [c]) }
  else if v.inBraces then
    if c = '\x7d' then v.substitute env else { v with name := some (name ++ [c]) }
  else if c = '\x7b' ∧ name = [] then { v with inBraces := true }
  else
    let v := v.substitute env
    if c = '$' then { v with name := some [] } else v.push c

def step (env : Environment) (v : Value) (c : Char) : Option Value :=
  if v.isCut then some v
  else if v.isEnding then
    if c = ' ' ∨ c = '\t' then some v
    else if c = '#' then some { v with isCut := true }
    else none
  else if v.isEscaped then
    let v := { v with isEscaped := false }
    if "\\'\"$ ".toList.contains c then some (v.push c)
    else if c = 'n' then some (v.push '\n')
    else none
  else if v.isStrong then
    some (if c = '\'' then { v with isStrong := false } else v.push c)
  else match v.name with
    | some name => some (v.stepName env name c)
    | none =>
      if c = '$' then some { v with name := some [] }
      else if c = '\\' then some { v with isEscaped := true }
      else if c = '"' then some { v with isWeak := !v.isWeak }
      else if v.isWeak then some (v.push c)
      else if c = '\'' then some { v with isStrong := true }
      else if c = ' ' ∨ c = '\t' then some { v with isEnding := true }
      else some (v.push c)

def read (env : Environment) (cs : List Char) : Option String := do
  let v ← cs.foldlM (step env) {}
  if v.inBraces || v.isStrong || v.isWeak then none
  else return String.ofList (v.substitute env).out

end Value

def name? (cs : List Char) : Option (String × List Char) :=
  match cs with
  | [] => none
  | c :: _ =>
    if c.isAlpha || c = '_' then
      let name := cs.takeWhile fun c => c.isAlphanum || c = '_' || c = '.'
      some (String.ofList name, cs.drop name.length)
    else none

def equals? : List Char → Option (List Char)
  | '=' :: rest => some (Text.trimStart rest)
  | _ => none

/-- What a line says: nothing, or a value for a variable. -/
inductive Line where
  | empty
  | assignment (name value : String)
  deriving DecidableEq, Repr

def readLine (env : Environment) (line : List Char) : Option Line :=
  let cs := Text.trim line
  if cs = [] ∨ cs.head? = some '#' then some .empty
  else do
    let (name, rest) ← name? cs
    let rest := Text.trimStart rest
    let (name, rest) ←
      if name = "export" ∧ (equals? rest).isNone then name? rest else some (name, rest)
    let rest ← equals? (Text.trimStart rest)
    if rest = [] ∨ rest.head? = some '#' then return .assignment name ""
    else
      let value ← Value.read env rest
      return .assignment name value

def extend (env : Environment) (more : List (String × String)) : Environment := fun name =>
  match env name with
  | some value => some value
  | none => Named.find? name more

def assignments (env : Environment) (sofar : List (String × String)) :
    List (List Char) → List (String × String)
  | [] => sofar
  | line :: lines =>
    match readLine (extend env sofar) line with
    | none => sofar
    | some .empty => assignments env sofar lines
    | some (.assignment name value) =>
      if (extend env sofar name).isSome then assignments env sofar lines
      else assignments env (Named.insert name value sofar) lines

/-- The environment after a file was read. A mark of the byte order is no part of it. -/
def load (env : Environment) (text : String) : Environment :=
  let cs := match text.toList with
    | '\uFEFF' :: rest => rest
    | cs => cs
  extend env (assignments env [] (logical [] .plain (physical cs)))

end TaskAudit.EnvFile
