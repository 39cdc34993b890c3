import TaskAudit.Trail

/-!
# A trail that only remembers

A trail that keeps the writes that it is asked for, in their order, and then
refuses those of some operations. It shows what a submitter and the workers ask of a
trail, and that its refusals do not disturb them.
-/
namespace TaskAudit

/-- The writes that a trail was asked for, and the operations that it refuses. -/
structure Recorder where
  refused : List String := []
  writes : List Write := []
  deriving DecidableEq, Repr

namespace Recorder

/-- Does the trail refuse a write? A star stands for all operations. -/
def refuses (s : Recorder) (w : Write) : Bool :=
  s.refused.contains "*" || s.refused.contains w.operation

def write (w : Write) : Action Recorder (Except Error Unit) := fun s =>
  let answer := if s.refuses w then .error (.other "store unavailable") else .ok ()
  ⟨answer, { s with writes := s.writes ++ [w] }, []⟩

def trail : Trail Recorder := ⟨write⟩

end Recorder

end TaskAudit
