import TaskAudit.Console.Command
import TaskAudit.Json.Printer
import TaskAudit.Json.Reader
import TaskAudit.Record
import TaskAudit.Time.Rfc3339

/-!
# Records on the screen

`one` shows a record with a line for each thing that is known about it, `many`
shows a table with a line for each record.
-/
namespace TaskAudit.Console.Report

def payload (text : String) : String :=
  match Json.read text with
  | .ok v => v.indented
  | .error _ => text

def labelled (label text : String) : String := padRight 12 (label ++ ":") ++ text

def finishing (r : Record) : List String :=
  match r.finishedAt with
  | none => []
  | some finished =>
    labelled "Finished" finished.shown :: (r.startedAt.toList.map fun started =>
      labelled "Duration" (Decimal.signedText (started.millisecondsTo finished) ++ "ms"))

def one (r : Record) : String :=
  ofLines (
    [labelled "ID" r.id,
      labelled "Type" r.taskType,
      labelled "Queue" r.queue,
      labelled "Status" r.status.name,
      labelled "Created" r.createdAt.shown,
      labelled "Enqueued" r.enqueuedAt.shown] ++
    (r.startedAt.toList.map fun t => labelled "Started" t.shown) ++
    finishing r ++
    [labelled "Payload" (payload r.payload)] ++
    (r.resultPayload.toList.map fun t => labelled "Result" (payload t)) ++
    (r.errorMessage.toList.map fun t => labelled "Error" t))

def cut (n : Nat) (s : String) : String := String.ofList (s.toList.take n)

def columns (id taskType queue status created : String) : String :=
  "  ".intercalate [padRight 36 id, padRight 20 taskType, padRight 10 queue, status, created]

/-- A table of records. The status of a record is not filled up. -/
def many (rs : List Record) : String :=
  if rs = [] then ofLines ["No task records found."]
  else ofLines (
    [columns "ID" "TYPE" "QUEUE" (padRight 11 "STATUS") "CREATED",
      String.ofList (List.replicate 100 '-')] ++
    (rs.map fun r => columns r.id (cut 20 r.taskType) (cut 10 r.queue) r.status.name
      r.createdAt.shownToSecond) ++
    ["", Decimal.text rs.length ++ " record(s)"])

end TaskAudit.Console.Report
