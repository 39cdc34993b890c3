import TaskAudit.Collector.Endpoint
import TaskAudit.Collector.Filter
import TaskAudit.Environment
import TaskAudit.Error

/-!
# Collector

Events are printed, and exported if the endpoint of a collector is given. A
process can be told only once where its events go.
-/
namespace TaskAudit.Collector

def signals : List (String × String) :=
  [("span", "OTEL_EXPORTER_OTLP_TRACES_ENDPOINT"),
    ("metric", "OTEL_EXPORTER_OTLP_METRICS_ENDPOINT"),
    ("log", "OTEL_EXPORTER_OTLP_LOGS_ENDPOINT")]

def generalVariable : String := "OTEL_EXPORTER_OTLP_ENDPOINT"

/-- The endpoint that a signal goes to: an empty one is the one of the environment, and
without that the usual one. -/
def exportedTo (env : Environment) (endpoint source : String) : String :=
  if endpoint ≠ "" then endpoint
  else ((env source).orElse fun _ => env generalVariable).getD "http://localhost:4317"

def exporterFault (env : Environment) (endpoint : String) : Option Error :=
  signals.findSome? fun (signal, source) =>
    let e := exportedTo env endpoint source
    match Endpoint.check e with
    | .ok _ => none
    | .error fault => some (.other
        s!"failed to create OTLP {signal} exporter: invalid URI {e}. Reason {fault.message}")

/-- What is told about the filter of events before telemetry is started. The level of the
setup does not matter if there is another filter without a fault. -/
def complaints (override : Option String) (level : String) : List String :=
  match override.map Filter.strict with
  | some (.ok _) => []
  | _ => Filter.complaints level

def start (isStarted : Bool) (env : Environment) (endpoint : Option String) : Except Error Unit :=
  match endpoint.bind (exporterFault env) with
  | some e => .error e
  | none =>
    if isStarted then
      .error (.other ("failed to init tracing subscriber: " ++
        "a global default trace dispatcher has already been set"))
    else .ok ()

end TaskAudit.Collector
