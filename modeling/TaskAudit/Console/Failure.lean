import TaskAudit.Error

/-!
# Failures of the program

A command that fails ends the program with a message and, behind it, what caused
it. Several causes are numbered; the further lines of a cause are set in under its
first one.
-/
namespace TaskAudit.Console

/-- A message and the messages of what lies behind it. -/
structure Failure where
  message : String
  causes : List String := []
  deriving DecidableEq, Repr

namespace Failure

def ofError (e : Error) : Failure := ⟨e.message, e.causes⟩

/-- A fault of the setup that ends the program. -/
def ofConfig (text : String) : Failure := ofError (.config text)

def inset (first further : String) (text : String) : String :=
  first ++ String.ofList (text.toList.flatMap fun c =>
    if c = '\n' then c :: further.toList else [c])

def numbering (n : Nat) : String :=
  let digits := Decimal.digits n
  String.ofList (List.replicate (5 - digits.length) ' ' ++ digits) ++ ": "

def causesText (causes : List String) : String :=
  match causes with
  | [] => ""
  | [cause] => "\n\nCaused by:\n" ++ inset "    " "    " cause
  | causes =>
    "\n\nCaused by:" ++ String.join (causes.mapIdx fun n cause =>
      "\n" ++ inset (numbering n) "       " cause)

def text (f : Failure) : String := "Error: " ++ f.message ++ causesText f.causes ++ "\n"

end Failure

end TaskAudit.Console
