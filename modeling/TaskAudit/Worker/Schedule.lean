import TaskAudit.Worker.Pool

/-!
# A schedule

One way to run a pool on a single thread: an execution that can take a step takes
it, the oldest first; the loop polls only when none can. The shutdown is heard
when it is wanted and nothing is left to do but to wait.
-/
namespace TaskAudit.Worker

structure Reading where
  now : Now
  words : Words

namespace Crew

variable {β σ η : Type} (w : Crew β σ η)

def next (wanted : Bool) (r : Reading) (s : Pool β σ η) : Option Choice :=
  match s.running.find? (·.stage ≠ .stuck) with
  | some x => some (.advance x.number r.now)
  | none =>
    match s.mode with
    | .polling =>
      if s.HasSlot w.plan then some (.poll r.now r.words)
      else if wanted then some .shutdown
      else none
    | .idle => if wanted then some .shutdown else some .wake
    | .draining => if s.HasAwaited w.plan then some .finish else some .expire
    | .stopped | .abandoned => none

def follow (wanted : Pool β σ η → Bool) : List Reading → Action (Pool β σ η) Unit
  | [] => pure ()
  | r :: rs => do
    let s ← .get
    match w.next (wanted s) r s with
    | none => pure ()
    | some choice =>
      w.step choice
      follow wanted rs

def serve (wanted : Pool β σ η → Bool) (readings : List Reading) :
    Action (Pool β σ η) Unit := do
  w.start
  w.follow wanted readings

end Crew

end TaskAudit.Worker
