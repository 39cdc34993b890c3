import TaskAudit.Trail.Machine
import TaskAudit.Trail.Table

/-!
# Addresses of databases

The address of an audit trail names an embedded database or leads to a server, as its
scheme says.
-/
namespace TaskAudit

namespace Address

def serverKinds : List (String × ServerKind) :=
  [("postgres", .postgres), ("postgresql", .postgres), ("mysql", .mysql), ("mariadb", .mysql)]

/-- The address that a locator describes. An embedded database reads it as it is written. -/
def ofUrl (env : Environment) (u : Url) : Except DatabaseFault Address := do
  if u.scheme = "sqlite" then
    return .embedded (← DatabaseFile.ofAddress ("sqlite:".toList ++ u.body))
  else match serverKinds.find? (·.1 = u.scheme) with
    | some (_, kind) => return .server (← Link.ofUrl env kind u)
    | none => .error (.settings ("no driver found for URL scheme " ++ Text.quoted u.scheme))

end Address

def DatabaseFault.ofUrl (text : String) : Except DatabaseFault Url :=
  (Url.ofText text).mapError fun fault => .settings fault.message

structure AuditTable.Connection where
  settings : AuditTable.Settings
  address : Address
  deriving DecidableEq, Repr

def AuditTable.connect (m : Machine) (env : Environment) (text : String) :
    Except Error AuditTable.Connection := do
  let dialect ← Dialect.ofAddress text
  let address ← (DatabaseFault.ofUrl text >>= Address.ofUrl env).mapError .storage
  (m.connect address).mapError .storage
  return { settings := { dialect }, address }

end TaskAudit
