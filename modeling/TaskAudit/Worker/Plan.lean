import TaskAudit.Task
import TaskAudit.Time.Span
import TaskAudit.Weights

/-!
# Settings of the worker pool

`Settings` is what an operator asks for, `Plan` what the pool does: it has at
least one worker slot, and it polls the queues of positive weight in the order of
their names, or the queue `default` if there are none.
-/
namespace TaskAudit.Worker

def defaultConcurrency : Nat := 10

/-- What an operator asks for; the queues are the entries of a map in any order. -/
structure Settings where
  concurrency : Nat := defaultConcurrency
  queues : Weights := []
  pollInterval : Span := .seconds 1
  shutdownTimeout : Span := .seconds 8
  deriving DecidableEq, Repr

/-- What the pool does. -/
structure Plan where
  concurrency : Nat
  queues : Weights
  pollInterval : Span
  shutdownTimeout : Span
  deriving DecidableEq, Repr

/-- The worker slots that must be free for a shutdown to be complete: all of them, as far as
32 bits can count. -/
def Plan.awaited (p : Plan) : Nat := min p.concurrency (UInt32.size - 1)

def polled (entries : Weights) : Weights :=
  let positive := entries.filter (0 < ·.2)
  Weights.sort (if positive = [] then [(defaultQueue, 1)] else positive)

def plan (s : Settings) : Plan where
  concurrency := if s.concurrency = 0 then defaultConcurrency else s.concurrency
  queues := polled s.queues
  pollInterval := s.pollInterval
  shutdownTimeout := s.shutdownTimeout

end TaskAudit.Worker
