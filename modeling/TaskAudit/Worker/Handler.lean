import TaskAudit.Action
import TaskAudit.Task

/-!
# Handlers

A handler works on a task and ends with success, failure or a panic, or never. Only
success and failure are results. A guard makes of a panic a failure whose text says so.
-/
namespace TaskAudit

/-- How the work of a handler ends. -/
inductive Ending where
  | succeeded
  | failed (text : String)
  | panicked (text : Option String)
  | never
  deriving DecidableEq, Repr

/-- What becomes of a delivery. -/
inductive Outcome where
  | completed
  | failed (text : String)
  deriving DecidableEq, Repr

def Outcome.status : Outcome → Status
  | completed => .completed
  | failed _ => .failed

def Ending.panicText (text : Option String) : String :=
  "panic: " ++ text.getD "handler panicked"

def Ending.result? : Ending → Option Outcome
  | succeeded => some .completed
  | failed text => some (.failed text)
  | panicked _ | never => none

/-- What a guard makes of an ending. -/
def Ending.guarded : Ending → Ending
  | panicked text => failed (panicText text)
  | ending => ending

def Ending.outcome? (ending : Ending) : Option Outcome := ending.guarded.result?

/-- A handler that works on a state of type `η`. -/
abbrev Handler (η : Type) := Context → Task → Action η Ending

def Handler.guarded {η : Type} (handler : Handler η) : Handler η := fun context task => do
  let ending ← handler context task
  return ending.guarded

end TaskAudit
