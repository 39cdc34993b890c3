import TaskAudit.Error
import TaskAudit.Text.Percent

/-!
# Files of embedded databases

An embedded database lives in a file, in the memory, or in a file of its own that
ends with it. A name that begins with `file:` is a locator of its own kind: it may
have an authority, which can only be this machine, and fields that say how the
file is opened. `DatabaseFile.ofAddress` reads the whole address of such a database.
-/
namespace TaskAudit

/-- How a database is opened: only to be read, only if it is there, or made if it is
not. -/
inductive OpenMode where
  | reading
  | existing
  | create
  deriving DecidableEq, Repr

def OpenMode.rank : OpenMode → Nat
  | .reading => 1
  | .existing => 2
  | .create => 6

/-- Where a database lives. -/
inductive Home where
  | memory
  | temporary
  | path (name : String)
  deriving DecidableEq, Repr

structure DatabaseFile where
  home : Home
  mode : OpenMode := .existing
  isFrozen : Bool := false
  deriving DecidableEq, Repr

namespace DatabaseFile

/-- Is the database only to be read? A frozen one is, unless it lives in the memory. -/
def isReadOnly (f : DatabaseFile) : Bool :=
  f.mode = .reading || (f.isFrozen && f.home ≠ .memory)

structure Request where
  name : String
  mode : OpenMode := .existing
  inMemory : Bool := false
  isFrozen : Bool := false
  way : Option String := none
  deriving DecidableEq, Repr

def ways : List String := ["unix", "unix-dotfile", "unix-excl", "unix-none", "memdb"]

def ofRequest (r : Request) : Except DatabaseFault DatabaseFile :=
  let way := r.way.getD "unix"
  if ¬ ways.contains way then .error (.engine ("(code: 1) no such vfs: " ++ way))
  else
    let home : Home :=
      if r.inMemory ∨ r.name = ":memory:" ∨ way = "memdb" then .memory
      else if r.name = "" then .temporary
      else .path r.name
    .ok { home, mode := r.mode, isFrozen := r.isFrozen }

def modeNames : List (String × OpenMode) :=
  [("ro", .reading), ("rw", .existing), ("rwc", .create)]

/-- A request with a mode, which must not allow more than the one that it had. -/
def Request.narrowed (r : Request) (value : String) : Except DatabaseFault Request :=
  if value = "memory" then .ok { r with inMemory := true, mode := .existing }
  else match modeNames.find? (·.1 = value) with
    | none => .error (.engine ("(code: 1) no such access mode: " ++ value))
    | some (_, mode) =>
      if r.inMemory ∨ mode.rank ≤ r.mode.rank then .ok { r with mode, inMemory := false }
      else .error (.engine ("(code: 3) access mode not allowed: " ++ value))

def isYes (value : String) : Bool :=
  let digits := value.toList.takeWhile Char.isDigit
  if digits ≠ [] then Decimal.value digits % 256 ≠ 0
  else ["yes", "true", "on"].contains (String.ofList (value.toList.map Char.toLower))

/-- A request after a field of a name that is a locator. -/
def Request.withField (r : Request) (name value : String) : Except DatabaseFault Request :=
  if name = "vfs" then .ok { r with way := some value }
  else if name = "cache" then
    if value = "shared" ∨ value = "private" then .ok r
    else .error (.engine ("(code: 1) no such cache mode: " ++ value))
  else if name = "mode" then r.narrowed value
  else if name = "immutable" then .ok { r with isFrozen := isYes value }
  else .ok r

def unescaped (cs : List Char) : String :=
  String.ofList ((Text.lossy (Text.ofPercent cs)).toList.takeWhile (· ≠ '\x00'))

/-- A request for a name that is a locator, without its scheme. -/
def Request.located (r : Request) (cs : List Char) : Except DatabaseFault Request := do
  let slashes := "//".toList
  let host := if slashes.isPrefixOf cs then (cs.drop 2).takeWhile (· ≠ '/') else []
  if host ≠ [] ∧ host ≠ "localhost".toList then
    throw (.engine ("(code: 1) invalid uri authority: " ++ String.ofList host))
  let body := if slashes.isPrefixOf cs then cs.drop (2 + host.length) else cs
  let (name, query) := Text.cut '?' (body.takeWhile (· ≠ '#'))
  let fields := (Text.split '&' (query.getD [])).map fun part =>
    let (name, value) := Text.cut '=' part
    (unescaped name, unescaped (value.getD []))
  (fields.filter (·.1 ≠ "")).foldlM (fun r f => r.withField f.1 f.2)
    { r with name := unescaped name }

/-- Opens what is asked for. A request of a special kind is passed on as a locator, in
which a zero byte ends the name; otherwise no zero byte may stand in it. -/
def Request.resolve (r : Request) : Except DatabaseFault DatabaseFile := do
  let cs := r.name.toList
  if r.isFrozen ∨ r.way.isSome then
    ofRequest { r with name := String.ofList (cs.takeWhile (· ≠ '\x00')) }
  else if cs.contains '\x00' then
    .error (.communication "filename passed to SQLite must not contain nul bytes")
  else if "file:".toList.isPrefixOf cs then ofRequest (← r.located (cs.drop 5))
  else ofRequest r

def noValue (name value : String) : DatabaseFault :=
  .settings ("unknown value " ++ Text.quoted value ++ " for \x60" ++ name ++ "\x60")

/-- The value of an option for a way to the disk: a blank in it becomes a plus sign, and
a zero byte ends it. -/
def wayOf (value : String) : String :=
  String.ofList ((value.toList.takeWhile (· ≠ '\x00')).map fun c => if c = ' ' then '+' else c)

def Request.withOption (r : Request) (name value : String) : Except DatabaseFault Request :=
  if name = "mode" then
    if value = "ro" then .ok { r with mode := .reading }
    else if value = "rw" then .ok r
    else if value = "rwc" then
      .ok { r with mode := if r.mode = .reading then .reading else .create }
    else if value = "memory" then .ok { r with inMemory := true }
    else .error (noValue name value)
  else if name = "cache" then
    if value = "private" ∨ value = "shared" then .ok r else .error (noValue name value)
  else if name = "immutable" then
    if value = "true" ∨ value = "1" then .ok { r with isFrozen := true }
    else if value = "false" ∨ value = "0" then .ok { r with isFrozen := false }
    else .error (noValue name value)
  else if name = "vfs" then .ok { r with way := some (wayOf value) }
  else .error (.settings
    ("unknown query parameter \x60" ++ name ++ "\x60 while parsing connection URL"))

/-- A text without the occurrences of another one before it. -/
def withoutStart (start : List Char) (cs : List Char) : List Char :=
  if _h : start ≠ [] ∧ start.isPrefixOf cs then withoutStart start (cs.drop start.length) else cs
termination_by cs.length
decreasing_by
  have hle := (List.isPrefixOf_iff_prefix.mp _h.2).length_le
  have hpos : 0 < start.length := List.length_pos_iff.mpr _h.1
  simp only [List.length_drop]
  omega

/-- What the address of an embedded database asks for; its scheme may be repeated. -/
def request (address : List Char) : Except DatabaseFault Request := do
  let (name, query) :=
    Text.cut '?' (withoutStart "sqlite:".toList (withoutStart "sqlite://".toList address))
  let r : Request ←
    if name = ":memory:".toList then pure { name := "", inMemory := true }
    else do
      let name ← (Text.textOfPercent name).mapError fun ill => .settings ill.message
      pure { name }
  (Text.formFields (query.getD [])).foldlM (fun r f => r.withOption f.1 f.2) r

def ofAddress (address : List Char) : Except DatabaseFault DatabaseFile := do
  (← request address).resolve

end DatabaseFile

end TaskAudit
