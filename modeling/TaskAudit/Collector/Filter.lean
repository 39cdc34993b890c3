import TaskAudit.Decimal.Digits
import TaskAudit.Text.Blank
import TaskAudit.Text.Parts
import TaskAudit.Text.Word

/-!
# Filters of events

A filter is a list of directives between commas. A directive is a level, or a target
with a span in brackets and its fields in braces, perhaps with a level behind an equals
sign: `off`, `audit=warn`, `audit[run{id}]=debug`. A directive that cannot be read is
left out, and that is told.
-/
namespace TaskAudit.Filter

/-- The least level that passes. -/
inductive Threshold where
  | off
  | error
  | warn
  | info
  | debug
  | trace
  deriving DecidableEq, Repr

/-- The thresholds by their names; their places are their numbers. -/
def thresholdNames : List (String × Threshold) :=
  [("off", .off), ("error", .error), ("warn", .warn), ("info", .info), ("debug", .debug),
    ("trace", .trace)]

inductive Fault where
  | badDirective
  | badLevel
  deriving DecidableEq, Repr

def Fault.message : Fault → String
  | badDirective => "invalid filter directive"
  | badLevel => "error parsing level filter: expected one of \"off\", \"error\", \"warn\", " ++
      "\"info\", \"debug\", \"trace\", or a number 0-5"

def threshold? (cs : List Char) : Option Threshold :=
  match Decimal.ofText? 6 cs with
  | some n => (thresholdNames[n]?).map Prod.snd
  | none =>
    let name := String.ofList (cs.map Char.toLower)
    if name = "" then some .error else (thresholdNames.find? (·.1 = name)).map Prod.snd

/-- What a directive is about and which level it lets through. -/
structure Directive where
  target : Option String := none
  span : Option String := none
  fields : List String := []
  threshold : Threshold := .trace
  deriving DecidableEq, Repr

/-- Which part of a directive is being read, and where it began. -/
inductive Part where
  | start
  | name
  | span (start : Nat)
  | field (start : Nat)
  | fields
  | closed
  | level (start : Nat)
  deriving DecidableEq, Repr

/-- The characters of a text between two places. -/
def slice (cs : List Char) (start stop : Nat) : String :=
  String.ofList ((cs.take stop).drop start)

/-- May a directive begin with the character? -/
def canBegin (c : Char) : Bool := Text.isWordPart c || "[-:_".toList.contains c

/-- The effect of a character and its place on what has been read. The parts are cut out
of the text `cs`. -/
def step (cs : List Char) (s : Part × Directive) (c : Char) (i : Nat) :
    Except Fault (Part × Directive) :=
  let (part, d) := s
  match part with
  | .start =>
    if ¬ canBegin c then .error .badDirective
    else .ok (if c = '[' then .span 1 else .name, d)
  | .name =>
    if c = '=' then .ok (.level (i + 1), { d with target := some (slice cs 0 i) })
    else if c = '[' then .ok (.span (i + 1), { d with target := some (slice cs 0 i) })
    else .ok (part, d)
  | .span start =>
    if c = ']' then .ok (.closed, { d with span := some (slice cs start i) })
    else if c = '\x7b' then
      .ok (.field (i + 1), { d with span := (some (slice cs start i)).filter (· ≠ "") })
    else .ok (part, d)
  | .field start =>
    if c = '\x7d' then
      if slice cs start i = "" then .error .badDirective
      else .ok (.fields, { d with fields := d.fields ++ [slice cs start i] })
    else .ok (part, d)
  | .fields => if c = ']' then .ok (.closed, d) else .error .badDirective
  | .closed => if c = '=' then .ok (.level (i + 1), d) else .error .badDirective
  | .level _ => .ok (part, d)

def scan (cs : List Char) : Nat → Part × Directive → List Char → Except Fault (Part × Directive)
  | _, s, [] => .ok s
  | i, s, c :: rest => do scan cs (i + 1) (← step cs s c i) rest

def finish (cs : List Char) : Part × Directive → Except Fault Directive
  | (.name, d) =>
    match threshold? cs with
    | some threshold => .ok { d with threshold }
    | none => .ok { d with target := some (String.ofList cs) }
  | (.level start, d) =>
    let level := cs.drop start
    if level = [] then .ok d
    else match threshold? level with
      | some threshold => .ok { d with threshold }
      | none => .error .badLevel
  | (.closed, d) => .ok d
  | _ => .error .badDirective

/-- Reads a directive. Its marks are looked for behind the blanks before it, but counted
from its first character, so that blanks move its parts. -/
def directive (cs : List Char) : Except Fault Directive := do
  finish cs (← scan cs 0 (.start, {}) (Text.trim cs))

def parts (text : String) : List (List Char) := (Text.split ',' text.toList).filter (· ≠ [])

def strict (text : String) : Except Fault (List Directive) := (parts text).mapM directive

/-- What is told about the faulty directives of a filter. -/
def complaints (text : String) : List String :=
  (parts text).filterMap fun cs =>
    match directive cs with
    | .ok _ => none
    | .error fault =>
      some ("ignoring \x60" ++ String.ofList cs ++ "\x60: " ++ fault.message)

end TaskAudit.Filter
