import TaskAudit.Decimal.Digits

/-!
# Arguments of a command

A command takes positional arguments and options with values. An option stands
before its value, `--name value`, or is joined to it, `--name=value`; only a joined
value may begin with a hyphen. Behind `--` every argument is positional.
-/
namespace TaskAudit.Console

/-- What a command takes: how many positional arguments, and the names of its
options, each with the values that it accepts. -/
structure Signature where
  positionals : Nat
  options : List (String × (String → Bool))

structure Arguments where
  positionals : List String := []
  options : List (String × String) := []
  deriving DecidableEq, Repr

/-- What a list of arguments asks for. -/
inductive Parsed where
  | arguments (a : Arguments)
  | help
  | misuse
  deriving DecidableEq, Repr

namespace Arguments

def option? (a : Arguments) (name : String) : Option String :=
  (a.options.find? (·.1 = name)).map Prod.snd

def withPositional (sig : Signature) (a : Arguments) (s : String) : Option Arguments :=
  if a.positionals.length < sig.positionals then
    some { a with positionals := a.positionals ++ [s] }
  else none

def withOption (sig : Signature) (a : Arguments) (name value : String) : Option Arguments :=
  match sig.options.find? (·.1 = name) with
  | none => none
  | some (_, accepts) =>
    if (a.option? name).isSome || !accepts value then none
    else some { a with options := a.options ++ [(name, value)] }

end Arguments

def isHyphened (s : String) : Bool := s.startsWith "-" && s ≠ "-"

def splitLong (s : String) : String × Option String :=
  let cs := s.toList.drop 2
  let name := cs.takeWhile (· ≠ '=')
  (String.ofList name,
    if name.length = cs.length then none else some (String.ofList (cs.drop (name.length + 1))))

/-- A positional argument, an option with its value, or the wish for help. -/
inductive Item where
  | positional (s : String)
  | option (name value : String)
  | help
  deriving DecidableEq, Repr

/-- The item that begins with an argument, and the arguments behind it. -/
def item? (s : String) (rest : List String) : Option (Item × List String) :=
  if s = "--help" || s.startsWith "-h" then some (.help, rest)
  else if s.startsWith "--" then
    match splitLong s, rest with
    | (name, some value), _ => some (.option name value, rest)
    | (name, none), t :: rest => if isHyphened t then none else some (.option name t, rest)
    | (_, none), [] => none
  else if isHyphened s then none
  else some (.positional s, rest)

/-- Goes through arguments, of which there are at most `fuel`. -/
def parseFrom (sig : Signature) : Nat → Arguments → List String → Parsed
  | 0, a, _ => .arguments a
  | _ + 1, a, [] => .arguments a
  | fuel + 1, a, s :: rest =>
    if s = "--" then
      match rest.foldlM (Arguments.withPositional sig) a with
      | none => .misuse
      | some a => .arguments a
    else
      match item? s rest with
      | none => .misuse
      | some (.help, _) => .help
      | some (.positional s, rest) =>
        match a.withPositional sig s with
        | none => .misuse
        | some a => parseFrom sig fuel a rest
      | some (.option name value, rest) =>
        match a.withOption sig name value with
        | none => .misuse
        | some a => parseFrom sig fuel a rest

/-- Reads the arguments of a command; all positional ones are required. -/
def parse (sig : Signature) (args : List String) : Parsed :=
  match parseFrom sig args.length {} args with
  | .arguments a =>
    if a.positionals.length = sig.positionals then .arguments a else .misuse
  | other => other

end TaskAudit.Console
