import TaskAudit.Trail
import TaskAudit.Worker.Handler

/-!
# Following a delivery in the trail

Before a handler works its task is marked as started, and after a result as completed
or failed. What the trail says to that changes nothing, and a task without an id is
not followed. A handler without a guard may also panic, and then there is no mark at
the end.
-/
namespace TaskAudit.Tracking

variable {σ η : Type}

def opening (time : Timestamp) (id : String) : Write := .started id time

def closing (outcome : Outcome) (time : Timestamp) (id : String) : Write :=
  match outcome with
  | .completed => .completed id none time
  | .failed text => .failed id text time

/-- A handler that is followed in the trail. It ends as it would by itself. -/
def follow (trail : Option (Trail σ)) (handler : Handler η)
    (startedAt finishedAt : Timestamp) : Handler (σ × η) := fun context task => do
  .onFst (Trail.track trail context.taskId (opening startedAt))
  let ending ← .onSnd (handler context task)
  match ending.result? with
  | none => return ending
  | some outcome =>
    .onFst (Trail.track trail context.taskId (closing outcome finishedAt))
    return ending

end TaskAudit.Tracking
