import TaskAudit.Json.Error
import TaskAudit.Time.Span

/-!
# Errors

An error is its cause; `message` is its wording and `causes` the messages of what
lies behind it, from the nearest to the farthest.
-/
namespace TaskAudit

inductive DatabaseFault where
  | protocol (text : String)
  | engine (text : String)
  | closed
  | exhausted
  | settings (text : String)
  | misconfigured (fault : DatabaseFault)
  | communication (text : String)
  | encryption (text : String)
  | column (index text : String)
  | noRow
  deriving DecidableEq, Repr

namespace DatabaseFault

def message : DatabaseFault → String
  | protocol text => s!"encountered unexpected or invalid data: {text}"
  | engine text => s!"error returned from database: {text}"
  | closed => "attempted to acquire a connection on a closed pool"
  | exhausted => "pool timed out while waiting for an open connection"
  | settings text => s!"error with configuration: {text}"
  | misconfigured fault => s!"error with configuration: {fault.message}"
  | communication text => s!"error communicating with database: {text}"
  | encryption text =>
    s!"error occurred while attempting to establish a TLS connection: {text}"
  | column index text => s!"error occurred while decoding column {index}: {text}"
  | noRow => "no rows returned by a query that expected to return at least one row"

def causes : DatabaseFault → List String
  | engine text | settings text | communication text | encryption text | column _ text => [text]
  | misconfigured fault => fault.message :: fault.causes
  | protocol _ | closed | exhausted | noRow => []

def debug : DatabaseFault → String
  | protocol text => s!"Protocol({Text.quoted text})"
  | engine text => s!"Database({Text.quoted text})"
  | closed => "PoolClosed"
  | exhausted => "PoolTimedOut"
  | settings text => s!"Configuration({Text.quoted text})"
  | misconfigured fault => s!"Configuration({fault.debug})"
  | communication text => s!"Io({Text.quoted text})"
  | encryption text => s!"Tls({Text.quoted text})"
  | noRow => "RowNotFound"
  | column index text =>
    "ColumnDecode \x7b index: " ++ Text.quoted index ++ ", source: " ++ Text.quoted text ++ " \x7d"

end DatabaseFault

inductive Error where
  | notFound (id : String)
  | invalidStatus (name : String)
  | storage (fault : DatabaseFault)
  | migration (fault : DatabaseFault)
  | serialization (fault : Json.Error)
  | broker (text : String)
  | handlerNotFound (taskType : String)
  | config (text : String)
  | timeout (limit : Span)
  | other (text : String)
  deriving DecidableEq, Repr

namespace Error

def message : Error → String
  | notFound id => s!"task record not found: {id}"
  | invalidStatus name => s!"invalid task status: {name}"
  | storage fault => s!"storage error: {fault.message}"
  | migration fault => s!"migration failed: while executing migrations: {fault.message}"
  | serialization fault => s!"payload serialization failed: {fault.message}"
  | broker text => s!"broker error: {text}"
  | handlerNotFound taskType => s!"no handler registered for task type {taskType}"
  | config text => s!"config error: {text}"
  | timeout limit => s!"operation timed out after {limit.text}"
  | other text => text

def causes : Error → List String
  | storage fault => fault.message :: fault.causes
  | migration fault =>
    s!"while executing migrations: {fault.message}" :: fault.message :: fault.causes
  | serialization fault => [fault.message]
  | _ => []

def debugJson (fault : Json.Error) : String :=
  let place := fault.place.getD ⟨0, 0⟩
  let line := Decimal.text place.line
  let column := Decimal.text place.column
  s!"Error({Text.quoted fault.cause.message}, line: {line}, column: {column})"

def debug : Error → String
  | notFound id => s!"NotFound({Text.quoted id})"
  | invalidStatus name => s!"InvalidStatus({Text.quoted name})"
  | storage fault => s!"Storage({fault.debug})"
  | migration fault => s!"Migration(Execute({fault.debug}))"
  | serialization fault => s!"Serialization({debugJson fault})"
  | broker text => s!"Broker({Text.quoted text})"
  | handlerNotFound taskType => s!"HandlerNotFound({Text.quoted taskType})"
  | config text => s!"Config({Text.quoted text})"
  | timeout limit => s!"Timeout({limit.text})"
  | other text => s!"Other({Text.quoted text})"

end Error

end TaskAudit
