import Std.Time.DateTime.Timestamp
import TaskAudit.Broker.Messages.Rehearsal
import TaskAudit.Console.Program
import TaskAudit.Task.Id

/-!
# The command line

Reads the environment, the environment file of the working folder, the clock and a
source of randomness, runs the program, and prints what it answers. The database
and the queues are those of the process: they begin empty and end with it. A worker
stops when its queues are empty.
-/
namespace TaskAudit.Console

def variableNames : List String :=
  ["DATABASE_URL", "QUEUE_DATABASE_URL", "TASKTRAIL_QUEUE", "TASKTRAIL_CONCURRENCY",
    "TASKTRAIL_QUEUES", "OTEL_ENDPOINT", "LOG_LEVEL", Program.filterVariable,
    Collector.generalVariable] ++ Collector.signals.map Prod.snd ++ Link.variableNames

def readEnvironment : IO Environment := do
  let pairs ← variableNames.filterMapM fun name => do
    return (← IO.getEnv name).map fun value => (name, value)
  return fun name => (pairs.find? (·.1 = name)).map Prod.snd

def readEnvironmentFile : IO (Option String) := do
  try return some (← IO.FS.readFile ".env")
  catch _ => return none

def readClock : IO Timestamp := do
  let nanos := (← Std.Time.Timestamp.now).toNanosecondsSinceUnixEpoch.val
  return (Timestamp.ofParts? (nanos / 1000000000) (nanos % 1000000000).toNat).getD .epoch

def readWord : IO UInt64 := do
  let bytes ← IO.getRandomBytes 8
  return bytes.toList.foldl (fun word b => word * 256 + b.toUInt64) 0

def stepLimit : Nat := 10000

/-- Readings of the clocks for the steps of a worker, with a random word for each. -/
def readReadings (start : Timestamp) : IO (List Worker.Reading) :=
  (List.range stepLimit).mapM fun (n : Nat) => do
    let time := (Timestamp.ofParts? (start.seconds + n) start.nanos).getD start
    return ⟨⟨n, time⟩, ⟨[← readWord], 0⟩⟩

def addressOf (env : Environment) (name : String) : Option Url :=
  (env name).bind fun text => (Url.ofText text).toOption

def machine (env : Environment) : Machine :=
  let address := (addressOf env "DATABASE_URL").bind fun u => (Address.ofUrl env u).toOption
  let file : Option DatabaseFile := match address with
    | some (.embedded file) => some file
    | _ => none
  let link : Option Link :=
    (addressOf env "QUEUE_DATABASE_URL").bind fun u => (Link.ofUrl env .postgres u).toOption
  { files := (file.bind (Machine.pathOf {})).toList
    servers := link.toList.filterMap fun l => l.hostNumber?.map fun number => (number, l.port) }

end TaskAudit.Console

open TaskAudit Console in
def main (args : List String) : IO UInt32 := do
  let file ← readEnvironmentFile
  let given ← readEnvironment
  let env := match file with
    | none => given
    | some text => EnvFile.load given text
  let now ← readClock
  let id := TaskId.ofBytes (← IO.getRandomBytes 16).toList
  let readings ← if args.head? = some "serve" then readReadings now else pure []
  let machine := machine env
  let place : Place Rehearsal :=
    { environment := env
      machine
      databaseFile := machine.files.head?.getD []
      server := Rehearsal.server }
  let occasion : Occasion Rehearsal :=
    { submission := ⟨id, ⟨0, now⟩, now, now⟩
      readings
      isOver := fun queues => 0 < queues.emptyReads }
  let site : Site Rehearsal := { database := { now := now.shown }, queues := {} }
  let exit := ((Program.run place occasion args).run site).value
  IO.print exit.output
  IO.eprint exit.errors
  return exit.code.toUInt32
