import TaskAudit.Error
import TaskAudit.Named
import TaskAudit.Worker.Handler

/-!
# Choosing a handler

Handlers are registered under patterns. A task goes to the handler of the longest
pattern that its type begins with; without one it fails.
-/
namespace TaskAudit

abbrev Routes (η : Type) := List (String × Handler η)

namespace Routes

variable {η : Type}

/-- Registers a handler; one registered before under the same pattern is replaced. -/
def register (routes : Routes η) (pattern : String) (handler : Handler η) : Routes η :=
  Named.insert pattern handler routes

def patterns (routes : Routes η) : List String := routes.map Prod.fst

/-- Does a type begin with a pattern? -/
def Fits (pattern taskType : String) : Prop := pattern.toList <+: taskType.toList

instance (pattern taskType : String) : Decidable (Fits pattern taskType) :=
  inferInstanceAs (Decidable (pattern.toList <+: taskType.toList))

/-- The handler of the longest pattern, in bytes, that a type begins with. -/
def route (taskType : String) : Routes η → Option (String × Handler η)
  | [] => none
  | p :: rest =>
    match route taskType rest with
    | none => if Fits p.1 taskType then some p else none
    | some q => if Fits p.1 taskType ∧ q.1.utf8ByteSize < p.1.utf8ByteSize then some p else some q

def handler (routes : Routes η) : Handler η := fun context task =>
  match routes.route task.taskType with
  | some (_, h) => h context task
  | none => pure (.failed (Error.handlerNotFound task.taskType).message)

end Routes

end TaskAudit
