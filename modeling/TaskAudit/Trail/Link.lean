import TaskAudit.Decimal.Bounded
import TaskAudit.Environment
import TaskAudit.Error
import TaskAudit.Url

/-!
# Links to database servers

A locator says how a server is reached: over the net, at a host and a port, or over
a socket in the file system, and whether the connection has to be encrypted. The
fields of its query go before its other parts, and what it leaves open the environment
says. `Link.ofUrl` reads them for the two kinds of servers, `Link.establish` says what
comes of the attempt.
-/
namespace TaskAudit

inductive ServerKind where
  | postgres
  | mysql
  deriving DecidableEq, Repr

/-- How a server is reached. A host that begins with a slash is the folder of a socket. -/
structure Link where
  kind : ServerKind
  host : String := "localhost"
  port : Nat
  socket : Option String := none
  isEncrypted : Bool := false
  deriving DecidableEq, Repr

namespace Link

inductive Field where
  | encryption
  | capacity
  | host
  | address
  | port
  | socket
  | other
  deriving DecidableEq, Repr

def fieldNames : ServerKind → List (String × Field)
  | .postgres =>
    [("sslmode", .encryption), ("ssl-mode", .encryption), ("statement-cache-capacity", .capacity),
      ("host", .host), ("hostaddr", .address), ("port", .port)]
  | .mysql =>
    [("sslmode", .encryption), ("ssl-mode", .encryption), ("statement-cache-capacity", .capacity),
      ("socket", .socket)]

def field (kind : ServerKind) (name : String) : Field :=
  match (fieldNames kind).find? (·.1 = name) with
  | some (_, f) => f
  | none => .other

def encryptionModes : ServerKind → List (String × Bool)
  | .postgres =>
    [("disable", false), ("allow", false), ("prefer", false), ("require", true),
      ("verify-ca", true), ("verify-full", true)]
  | .mysql =>
    [("disabled", false), ("preferred", false), ("required", true), ("verify_ca", true),
      ("verify_identity", true)]

def insists (kind : ServerKind) (mode : String) : Except DatabaseFault Bool :=
  let name := String.ofList (mode.toList.map Char.toLower)
  match (encryptionModes kind).find? (·.1 = name) with
  | some (_, b) => .ok b
  | none => .error (.misconfigured
      (.settings ("unknown value " ++ Text.quoted mode ++ " for \x60ssl_mode\x60")))

def numberOf (bound : Nat) (value : String) : Except DatabaseFault Nat :=
  (Decimal.bounded bound value.toList).mapError fun fault => .settings fault.message

def isFolder (s : String) : Bool := s.toList.head? = some '/'

/-- A link with a host, which is the folder of a socket if it begins with a slash. -/
def withHost (l : Link) (host : String) : Link :=
  if isFolder host then { l with socket := some host } else { l with host }

def withField (l : Link) (name value : String) : Except DatabaseFault Link :=
  match field l.kind name with
  | .encryption => do return { l with isEncrypted := ← insists l.kind value }
  | .capacity => do
    let _ ← numberOf (Nat.pow 2 64) value
    return l
  | .host => .ok (l.withHost value)
  | .address =>
    if Url.isAddress4 value.toList || Url.isAddress6 value.toList then
      .ok { l with host := value }
    else .error (.settings "invalid IP address syntax")
  | .port => do return { l with port := ← numberOf 65536 value }
  | .socket => .ok { l with socket := some value }
  | .other => .ok l

def decoded (cs : List Char) : Except DatabaseFault String :=
  (Text.textOfPercent cs).mapError fun ill => .settings ill.message

def variableNames : List String := ["PGHOSTADDR", "PGHOST", "PGPORT", "PGSSLMODE"]

def usual (env : Environment) : ServerKind → Link
  | .postgres => {
      kind := .postgres
      host := ((env "PGHOSTADDR").orElse fun _ => env "PGHOST").getD "localhost"
      port := ((env "PGPORT").bind fun s => (numberOf 65536 s).toOption).getD 5432
      isEncrypted := ((env "PGSSLMODE").bind fun s => (insists .postgres s).toOption).getD false }
  | .mysql => { kind := .mysql, port := 3306 }

def withAuthority (l : Link) (a : Authority) : Except DatabaseFault Link := do
  let l := { l with port := a.number.getD l.port }
  if a.host = [] then return l
  else if l.kind = .postgres ∧ (Text.lossy (Text.ofPercent a.host)).toList.head? = some '/' then
    return { l with socket := some (← decoded a.host) }
  else return { l with host := String.ofList a.host }

/-- The link that a locator describes. Its user, its password and the name of its
database have to be texts. -/
def ofUrl (env : Environment) (kind : ServerKind) (u : Url) : Except DatabaseFault Link := do
  let a := u.authority.getD {}
  let l ← (usual env kind).withAuthority a
  let _ ← decoded a.user
  let _ ← decoded a.password
  let _ ← decoded (u.path.dropWhile (· = '/'))
  (Text.formFields (u.query.getD [])).foldlM (fun l f => l.withField f.1 f.2) l

def socketFile (l : Link) : Option String :=
  match l.kind with
  | .postgres =>
    let folder := l.socket.orElse fun _ => (some l.host).filter isFolder
    folder.map fun folder => folder ++ "/.s.PGSQL." ++ Decimal.text l.port
  | .mysql => l.socket

/-- The most bytes in the name of a socket, and one. -/
def socketLimit : Nat := 108

def socketFault (path : String) : DatabaseFault :=
  .communication
    (if path.toList.contains '\x00' then "paths must not contain interior null bytes"
    else if socketLimit ≤ path.utf8ByteSize then "path must be shorter than SUN_LEN"
    else "No such file or directory (os error 2)")

def thisMachine : String := "127.0.0.1"

def ownNames : List String := ["localhost", "0.0.0.0"]

def numberOfHost? (host : String) : Option String :=
  if Url.isAddress6 host.toList then some host
  else (Url.looseAddress4? host.toList).map fun n => String.ofList (Url.address4 n)

/-- The number of the host of a link. Only this machine has a name. -/
def hostNumber? (l : Link) : Option String :=
  let bare := String.ofList (l.host.toList.filter fun c => c ≠ '[' && c ≠ ']')
  let name := String.ofList (bare.toList.map Char.toLower)
  if ownNames.contains name then some thisMachine else numberOfHost? bare

/-- Is the number one of this machine? -/
def isHere (number : String) : Bool :=
  "127.".toList.isPrefixOf number.toList || number = "::1" || number = "::"

/-- Connects, given the hosts and ports that are listened at. No other host can be reached,
and here the time of the connections runs out if nobody listens. Connections are not
encrypted. -/
def establish (listening : List (String × Nat)) (l : Link) : Except DatabaseFault Unit :=
  match l.socketFile, l.hostNumber? with
  | some path, _ => .error (socketFault path)
  | none, none =>
    .error (.communication ("failed to lookup address information: " ++
      "Temporary failure in name resolution"))
  | none, some number =>
    if ¬ listening.contains (number, l.port) then
      if isHere number then .error .exhausted
      else .error (.communication "Network is unreachable (os error 101)")
    else if l.isEncrypted then
      .error (.encryption ("TLS upgrade required by connect options but SQLx was built " ++
        "without TLS support enabled"))
    else .ok ()

end Link

end TaskAudit
