import TaskAudit.Console.Arguments

/-!
# Commands

The commands of the program with their arguments, and the help for each.
-/
namespace TaskAudit.Console

/-- What the program can be told to do. -/
inductive Command where
  | serve
  | migrate
  | submit (taskType : String) (payload queue : Option String) (maxRetry : Option UInt32)
  | showOne (id : String)
  | listRecent (status taskType : Option String) (limit : Int)
  deriving DecidableEq, Repr

def defaultLimit : Int := 20

def countOf? (s : String) : Option UInt32 :=
  (Decimal.ofText? (Nat.pow 2 32) s.toList).map UInt32.ofNat

def limitOf? (s : String) : Option Int := Decimal.ofSignedText? (Nat.pow 2 63) s.toList

/-- A command as it is described: its name, what it does, its arguments, and how
they make up a command. -/
structure Entry where
  name : String
  about : String
  signature : Signature
  usage : List String
  build : Arguments → Option Command

def anyValue (_ : String) : Bool := true

def entries : List Entry :=
  [{ name := "serve"
     about := "Run a worker that processes tasks from the configured queues"
     signature := ⟨0, []⟩
     usage :=
       ["Usage: tasktrail serve",
        "",
        "Options:",
        "  -h, --help  Print help"]
     build := fun _ => some .serve },
   { name := "migrate"
     about := "Create or upgrade the audit table"
     signature := ⟨0, []⟩
     usage :=
       ["Usage: tasktrail migrate",
        "",
        "Options:",
        "  -h, --help  Print help"]
     build := fun _ => some .migrate },
   { name := "submit"
     about := "Submit a task through the pgmq broker and record it"
     signature :=
       ⟨1, [("payload", anyValue), ("queue", anyValue),
         ("max-retry", fun s => (countOf? s).isSome)]⟩
     usage :=
       ["Usage: tasktrail submit [OPTIONS] <TASK_TYPE>",
        "",
        "Arguments:",
        "  <TASK_TYPE>  Task type (determines handler routing)",
        "",
        "Options:",
        "      --payload <PAYLOAD>      JSON payload",
        "      --queue <QUEUE>          Queue name (defaults to TASKTRAIL_QUEUE)",
        "      --max-retry <MAX_RETRY>  Redeliveries allowed after a failure",
        "  -h, --help                   Print help"]
     build := fun a => a.positionals.head?.map fun taskType =>
       .submit taskType (a.option? "payload") (a.option? "queue")
         ((a.option? "max-retry").bind countOf?) },
   { name := "show"
     about := "Show one task record"
     signature := ⟨1, []⟩
     usage :=
       ["Usage: tasktrail show <ID>",
        "",
        "Arguments:",
        "  <ID>  Task ID",
        "",
        "Options:",
        "  -h, --help  Print help"]
     build := fun a => a.positionals.head?.map .showOne },
   { name := "list"
     about := "List recent task records"
     signature :=
       ⟨0, [("status", anyValue), ("type", anyValue), ("limit", fun s => (limitOf? s).isSome)]⟩
     usage :=
       ["Usage: tasktrail list [OPTIONS]",
        "",
        "Options:",
        "      --status <STATUS>   Filter by status",
        "      --type <TASK_TYPE>  Filter by task type",
        "      --limit <LIMIT>     Maximum records to show [default: 20]",
        "  -h, --help              Print help"]
     build := fun a => some (.listRecent (a.option? "status") (a.option? "type")
       (((a.option? "limit").bind limitOf?).getD defaultLimit)) }]

def ofLines (lines : List String) : String :=
  lines.foldl (fun text line => text ++ line ++ "\n") ""

def Entry.help (e : Entry) : String := ofLines ([e.about, ""] ++ e.usage)

def padRight (width : Nat) (s : String) : String :=
  s ++ String.ofList (List.replicate (width - s.length) ' ')

def help : String :=
  let listed := (entries.map fun e => (e.name, e.about)) ++
    [("help", "Print this message or the help of the given subcommand(s)")]
  ofLines (["Audit trail for queued background tasks", "", "Usage: tasktrail <COMMAND>", "",
      "Commands:"] ++
    (listed.map fun l => "  " ++ padRight 7 l.1 ++ "  " ++ l.2) ++
    ["", "Options:", "  -h, --help  Print help"])

def helpAboutHelp : String := ofLines
  ["Print this message or the help of the given subcommand(s)",
   "",
   "Usage: tasktrail help [COMMAND]...",
   "",
   "Arguments:",
   "  [COMMAND]...  Print help for the subcommand(s)"]

inductive Request where
  | run (c : Command)
  | help (text : String)
  | misuse
  deriving DecidableEq, Repr

def Entry.ofName? (name : String) : Option Entry := entries.find? (·.name = name)

def Entry.request (e : Entry) (args : List String) : Request :=
  match parse e.signature args with
  | .misuse => .misuse
  | .help => .help e.help
  | .arguments a =>
    match e.build a with
    | none => .misuse
    | some c => .run c

def request : List String → Request
  | [] => .misuse
  | name :: args =>
    if name = "--help" || name.startsWith "-h" then .help help
    else if name = "help" then
      match args with
      | [] => .help help
      | ["help"] => .help helpAboutHelp
      | [name] => ((Entry.ofName? name).map fun e => Request.help e.help).getD .misuse
      | _ => .misuse
    else match Entry.ofName? name with
      | none => .misuse
      | some e => e.request args

end TaskAudit.Console
