import TaskAudit.Error

/-!
# The status of a task

A task record is created when its task has been submitted, in progress while a
handler runs, and completed or failed afterwards.
-/
namespace TaskAudit

/-- How far a task has come. -/
inductive Status where
  | created
  | inProgress
  | completed
  | failed
  deriving DecidableEq, Repr, Inhabited

namespace Status

def all : List Status := [created, inProgress, completed, failed]

def name : Status → String
  | created => "created"
  | inProgress => "in_progress"
  | completed => "completed"
  | failed => "failed"

def ofName (s : String) : Except Error Status :=
  if s = "created" then .ok .created
  else if s = "in_progress" then .ok .inProgress
  else if s = "completed" then .ok .completed
  else if s = "failed" then .ok .failed
  else .error (.invalidStatus s)

def isFinal : Status → Bool
  | completed | failed => true
  | created | inProgress => false

@[simp]
theorem ofName_name (s : Status) : ofName s.name = .ok s := by
  cases s <;> rfl

end Status

end TaskAudit
