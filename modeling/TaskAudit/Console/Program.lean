import TaskAudit.Broker.Messages
import TaskAudit.Collector
import TaskAudit.Console.Failure
import TaskAudit.Console.Report
import TaskAudit.Setup.EnvFile
import TaskAudit.Submission
import TaskAudit.Trail.Address
import TaskAudit.Trail.Engine
import TaskAudit.Worker.Routes
import TaskAudit.Worker.Schedule

/-!
# The program

The program reads its setup, connects the audit trail and does one command.
It works on a site: an embedded database in a file and a server of message queues.
It ends with a code, with what it prints, and with the failure that ended it.
-/
namespace TaskAudit.Console

/-- What the program works on. -/
structure Site (κ : Type) where
  database : Embedded
  queues : κ

/-- Where the program is run: its environment and environment file, the machine, the path
of the file that the database of the site is in, and the server of queues, which is
behind every address that is listened at. -/
structure Place (κ : Type) where
  environment : Environment
  environmentFile : Option String := none
  machine : Machine := {}
  databaseFile : List String
  server : QueueServer κ

/-- What a run takes from outside besides: for a submission its id and the clocks,
for a worker the readings of its steps, when the shutdown is wanted, and the order in
which it finds the queues in the map of their weights. -/
structure Occasion (κ : Type) where
  submission : Surroundings
  readings : List Worker.Reading
  isOver : κ → Bool
  order : Weights.Order := .standing

structure Exit where
  code : Nat
  output : String := ""
  errors : String := ""
  deriving DecidableEq, Repr

def Exit.withNotes (notes : List String) (e : Exit) : Exit :=
  { e with errors := String.join (notes.map (· ++ "\n")) ++ e.errors }

abbrev Answer := Except Failure String

namespace Program

variable {κ δ α : Type}

abbrev Desk (κ δ : Type) := κ × δ

def andThen (a : Action (Desk κ δ) (Except Error α)) (next : α → Action (Desk κ δ) Answer) :
    Action (Desk κ δ) Answer := do
  match ← a with
  | .error e => return .error (.ofError e)
  | .ok x => next x

/-- The environment with what the environment file adds. -/
def environment (place : Place κ) : Environment :=
  match place.environmentFile with
  | none => place.environment
  | some text => EnvFile.load place.environment text

def connectQueues (place : Place κ) (url : String) : Except Error Unit :=
  (do
    let link ← Link.ofUrl (environment place) .postgres (← DatabaseFault.ofUrl url)
    link.establish place.machine.servers).mapError .storage

def migrate (engine : Engine δ) (settings : AuditTable.Settings) :
    Action (Desk κ δ) Answer :=
  andThen (.onSnd engine.migrate) fun _ =>
    return .ok ("Migrations applied (" ++ settings.dialect.name ++ " placeholders).\n")

def showOne (engine : Engine δ) (settings : AuditTable.Settings) (id : String) :
    Action (Desk κ δ) Answer :=
  andThen (.onSnd (AuditTable.get engine.database settings id)) fun r =>
    return .ok (Report.one r)

def listRecent (engine : Engine δ) (settings : AuditTable.Settings)
    (status taskType : Option String) (limit : Int) : Action (Desk κ δ) Answer :=
  match status.mapM Status.ofName with
  | .error e => return .error (.ofError e)
  | .ok status =>
    andThen (.onSnd (AuditTable.list engine.database settings ⟨status, taskType⟩ limit)) fun rs =>
      return .ok (Report.many rs)

/-- The payload of a submission; without one it is an empty object. -/
def payloadOf : Option String → Except Json.Error Json
  | none => .ok (.obj [])
  | some text => Json.read text

def submit (place : Place κ) (engine : Engine δ) (settings : AuditTable.Settings)
    (setup : Setup) (around : Surroundings) (taskType : String) (payload queue : Option String)
    (maxRetry : Option UInt32) : Action (Desk κ δ) Answer :=
  match payloadOf payload with
  | .error fault => return .error ⟨fault.message, []⟩
  | .ok payload =>
    let queue := queue.getD setup.defaultQueue
    let trail := AuditTable.trail engine.database settings
    let submitter : Submitter κ δ :=
      .new (Messages.broker place.server {}) (some trail) setup.submitterQueue
    andThen (return connectQueues place setup.queueAddress) fun _ =>
    andThen (.onFst (Messages.makeQueue place.server queue)) fun _ =>
    andThen (submitter.submit around taskType payload ⟨some queue, maxRetry⟩) fun a =>
    andThen submitter.close fun _ =>
      return .ok ("Enqueued: " ++ a.id ++ " (queue: " ++ a.queue ++ ", max retry: " ++
        Decimal.text a.maxRetry.toNat ++ ")\n")

/-- The handler that every worker has: it tells the payload and succeeds. -/
def echo : Handler Unit := fun context task => do
  .note (.echoed (context.taskId.getD "") task.taskType (Text.lossy task.payload))
  return .succeeded

def handlers : Routes Unit := Routes.register [] "echo:" echo

def makeQueues (server : QueueServer κ) : List String → Action κ (Except Error Unit)
  | [] => return .ok ()
  | queue :: queues => do
    match ← Messages.makeQueue server queue with
    | .error e => return .error e
    | .ok () => makeQueues server queues

/-- Runs a pool of workers on the queues until it has ended. -/
def work (place : Place κ) (engine : Engine δ) (settings : AuditTable.Settings)
    (asked : Worker.Settings) (occasion : Occasion κ) : Action (Desk κ δ) Unit :=
  fun (queues, database) =>
  let workers : Worker.Crew κ δ Unit :=
    { broker := Messages.broker place.server {}
      trail := some (AuditTable.trail engine.database settings)
      handler := handlers.handler
      plan := Worker.plan asked }
  let e := workers.serve (fun pool => occasion.isOver pool.broker) occasion.readings
    { broker := queues, trail := database, handler := () }
  ⟨(), (e.state.broker, e.state.trail), e.events⟩

/-- Makes every queue that has a weight, in the order in which they are found, and lets
the workers work. -/
def serve (place : Place κ) (engine : Engine δ) (settings : AuditTable.Settings)
    (setup : Setup) (occasion : Occasion κ) : Action (Desk κ δ) Answer :=
  let weights := setup.workerSettings.queues
  let asked := { setup.workerSettings with queues := occasion.order.entries weights }
  andThen (.onSnd engine.migrate) fun _ =>
  andThen (return connectQueues place setup.queueAddress) fun _ =>
  andThen (.onFst (makeQueues place.server (asked.queues.map Prod.fst))) fun _ => do
    work place engine settings asked occasion
    return .ok ""

def perform (place : Place κ) (occasion : Occasion κ) (setup : Setup)
    (settings : AuditTable.Settings) (engine : Engine δ) :
    Command → Action (Desk κ δ) Answer
  | .serve => serve place engine settings setup occasion
  | .migrate => migrate engine settings
  | .submit taskType payload queue maxRetry =>
    submit place engine settings setup occasion.submission taskType payload queue maxRetry
  | .showOne id => showOne engine settings id
  | .listRecent status taskType limit => listRecent engine settings status taskType limit

def onServer (a : Action (Desk κ Unit) Answer) : Action (Site κ) Answer := fun site =>
  let e := a (site.queues, ())
  ⟨e.value, { site with queues := e.state.1 }, e.events⟩

def onFile (place : Place κ) (file : DatabaseFile) (a : Action (Desk κ Embedded) Answer) :
    Action (Site κ) Answer := fun site =>
  let isOwn := (place.machine.pathOf file) = some place.databaseFile
  let database := if isOwn then site.database else { now := site.database.now }
  let e := a (site.queues, { database with readOnly := file.isReadOnly })
  let database := if isOwn then { e.state.2 with readOnly := false } else site.database
  ⟨e.value, ⟨database, e.state.1⟩, e.events⟩

def onDatabase (place : Place κ) (occasion : Occasion κ) (setup : Setup)
    (connection : AuditTable.Connection) (command : Command) : Action (Site κ) Answer :=
  let settings := connection.settings
  match connection.address with
  | .embedded file =>
    onFile place file (perform place occasion setup settings Embedded.engine command)
  | .server _ => onServer (perform place occasion setup settings bareServer command)

/-- The variable with a filter of events that goes before the level of the setup. -/
def filterVariable : String := "RUST_LOG"

def connect (place : Place κ) (setup : Setup) : Except Failure AuditTable.Connection := do
  let env := environment place
  (Collector.start false env setup.otelEndpoint).mapError .ofError
  (AuditTable.connect place.machine env setup.databaseAddress).mapError .ofError

def exitOf : Answer → Exit
  | .ok text => { code := 0, output := text }
  | .error failure => { code := 1, errors := failure.text }

def runCommand (place : Place κ) (occasion : Occasion κ) (command : Command) :
    Action (Site κ) Exit :=
  let env := environment place
  match Setup.ofEnvironment env with
  | .error fault => return exitOf (.error (.ofConfig fault.message))
  | .ok setup => do
    let notes := Collector.complaints (env filterVariable) setup.logLevel
    let answer ← match connect place setup with
      | .error failure => return (exitOf (.error failure)).withNotes notes
      | .ok connection => onDatabase place occasion setup connection command
    return (exitOf answer).withNotes notes

def run (place : Place κ) (occasion : Occasion κ) (args : List String) :
    Action (Site κ) Exit :=
  match request args with
  | .misuse => return { code := 2 }
  | .help text => return { code := 0, output := text }
  | .run command => runCommand place occasion command

end Program

end TaskAudit.Console
