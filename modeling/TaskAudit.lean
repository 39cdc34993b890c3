import TaskAudit.Broker.Backlog
import TaskAudit.Broker.Faulty
import TaskAudit.Main
import TaskAudit.Record.Json
import TaskAudit.Trail.Playback
import TaskAudit.Trail.Recorder
import TaskAudit.Proofs.Decimal
import TaskAudit.Proofs.Time.Calendar
import TaskAudit.Proofs.Time.StoredText
import TaskAudit.Proofs.Trail.Ledger
import TaskAudit.Proofs.Trail.Refinement
import TaskAudit.Proofs.Broker.Conservation
import TaskAudit.Proofs.Trail.Interleaving
import TaskAudit.Proofs.Trail.Recording
import TaskAudit.Proofs.Worker.Drained
import TaskAudit.Proofs.Broker.Budget
import TaskAudit.Proofs.Trail.Noninterference
import TaskAudit.Proofs.Worker.Shift
import TaskAudit.Proofs.Worker.Slots
import TaskAudit.Proofs.Trail.Listing
import TaskAudit.Proofs.Trail.Readable
import TaskAudit.Proofs.Broker.Receipts
import TaskAudit.Proofs.Broker.Order
import TaskAudit.Proofs.Broker.Agreement
import TaskAudit.Proofs.Trail.Chronology
import TaskAudit.Proofs.Setup.Queues
import TaskAudit.Proofs.Broker.Footprint
import TaskAudit.Proofs.Console.Serving
import TaskAudit.Proofs.Broker.Lines
import TaskAudit.Proofs.Trail.Fates
import TaskAudit.Proofs.Trail.Accounting
import TaskAudit.Proofs.Named
import TaskAudit.Proofs.Broker.Exchanges
import TaskAudit.Proofs.Json.Shape
import TaskAudit.Proofs.Json.Numbers
import TaskAudit.Proofs.Json.Strings
import TaskAudit.Proofs.Json.Values
import TaskAudit.Proofs.Json.Texts
import TaskAudit.Proofs.Broker.Envelopes
import TaskAudit.Proofs.Broker.Sending
import TaskAudit.Proofs.Broker.Blocking
import TaskAudit.Proofs.Time.StoredOrder
import TaskAudit.Proofs.Trail.Newest
import TaskAudit.Proofs.Worker.Routing
import TaskAudit.Proofs.Submission
import TaskAudit.Proofs.Worker.Polling
import TaskAudit.Proofs.Worker.Odds
import TaskAudit.Proofs.Text
import TaskAudit.Proofs.Setup.Assignments
import TaskAudit.Proofs.Trail.Following
import TaskAudit.Proofs.Time.BriefText
import TaskAudit.Proofs.Json.Records
import TaskAudit.Proofs.Broker.Losses
import TaskAudit.Proofs.Console.Submitting
import TaskAudit.Proofs.Trail.Numbering
import TaskAudit.Proofs.Trail.Queries
