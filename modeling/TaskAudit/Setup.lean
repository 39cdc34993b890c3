import TaskAudit.Environment
import TaskAudit.Error
import TaskAudit.Worker.Plan

/-!
# The setup of a process

The setup is read from environment variables; only the address of the database is
required. Addresses hold passwords, so a setup shows that they are there and no more.
-/
namespace TaskAudit

inductive Setup.Fault where
  | required (name : String)
  | concurrency (value : String)
  | weights (fault : Weights.Fault)
  deriving DecidableEq, Repr

def Setup.Fault.message : Setup.Fault → String
  | .required name => s!"required environment variable {name} is not set"
  | .concurrency value => s!"TASKTRAIL_CONCURRENCY must be a number, got {Text.quoted value}"
  | .weights fault => fault.message

/-- What a process is set up with. -/
structure Setup where
  databaseAddress : String
  queueDatabaseAddress : Option String
  defaultQueue : String
  concurrency : Nat
  queues : Weights
  otelEndpoint : Option String
  logLevel : String
  deriving DecidableEq, Repr

namespace Setup

def concurrencyOf (env : Environment) : Except Fault Nat :=
  match env "TASKTRAIL_CONCURRENCY" with
  | none => .ok Worker.defaultConcurrency
  | some value =>
    match Decimal.ofText? (Nat.pow 2 64) (Text.trim value.toList) with
    | some n => .ok n
    | none => .error (.concurrency value)

def weightsOf (env : Environment) : Except Fault Weights :=
  match env "TASKTRAIL_QUEUES" with
  | none => .ok []
  | some text => (Weights.ofText text).mapError .weights

/-- The setup that an environment describes, or its first fault. -/
def ofEnvironment (env : Environment) : Except Fault Setup := do
  match env "DATABASE_URL" with
  | none => .error (.required "DATABASE_URL")
  | some databaseAddress =>
    let concurrency ← concurrencyOf env
    let queues ← weightsOf env
    return {
      databaseAddress
      queueDatabaseAddress := env "QUEUE_DATABASE_URL"
      defaultQueue := (env "TASKTRAIL_QUEUE").getD TaskAudit.defaultQueue
      concurrency
      queues
      otelEndpoint := env "OTEL_ENDPOINT"
      logLevel := (env "LOG_LEVEL").getD "info" }

def queueAddress (c : Setup) : String := c.queueDatabaseAddress.getD c.databaseAddress

/-- The settings of the worker pool: without weights it polls the default queue. -/
def workerSettings (c : Setup) : Worker.Settings where
  concurrency := c.concurrency
  queues := if c.queues = [] then [(c.defaultQueue, 1)] else c.queues

def submitterQueue (c : Setup) : String := c.defaultQueue

def debugText : Option String → String
  | none => "None"
  | some s => s!"Some({Text.quoted s})"

def hidden : String := "SecretBox<str>([REDACTED])"

def debugWeights (w : Weights) : String :=
  "\x7b" ++ ", ".intercalate (w.map fun q => Text.quoted q.1 ++ ": " ++ Decimal.text q.2.toNat) ++
    "\x7d"

def debug (c : Setup) : String :=
  let queueDatabase := match c.queueDatabaseAddress with
    | none => "None"
    | some _ => s!"Some({hidden})"
  "Config \x7b database_url: " ++ hidden ++ ", queue_database_url: " ++ queueDatabase ++
    ", default_queue: " ++ Text.quoted c.defaultQueue ++
    ", concurrency: " ++ Decimal.text c.concurrency ++ ", queues: " ++ debugWeights c.queues ++
    ", otel_endpoint: " ++ debugText c.otelEndpoint ++
    ", log_level: " ++ Text.quoted c.logLevel ++ " \x7d"

end Setup

end TaskAudit
