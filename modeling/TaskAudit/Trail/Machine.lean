import TaskAudit.Trail.File
import TaskAudit.Trail.Link

/-!
# Machines

Whether a connection comes about depends on the machine: its files and folders, and the
servers that listen. A file or a folder is given by its path from the root, a list of
names; a process works in one of the folders.
-/
namespace TaskAudit

inductive Address where
  | embedded (file : DatabaseFile)
  | server (link : Link)
  deriving DecidableEq, Repr

/-- The folder that a process works in, the files and folders, and the hosts and ports
that are listened at. The folders above a folder are there too. -/
structure Machine where
  workingFolder : List String := []
  files : List (List String) := []
  folders : List (List String) := []
  servers : List (String × Nat) := []
  deriving DecidableEq, Repr

namespace Machine

def descend (path : List String) (name : String) : List String :=
  if name = "" ∨ name = "." then path
  else if name = ".." then path.dropLast
  else path ++ [name]

/-- The path that a name of a file stands for. -/
def locate (m : Machine) (name : String) : List String :=
  let start := if name.toList.head? = some '/' then [] else m.workingFolder
  ((Text.split '/' name.toList).map String.ofList).foldl descend start

/-- The path of the file that a database lives in, if there is one to be found again. -/
def pathOf (m : Machine) (f : DatabaseFile) : Option (List String) :=
  match f.home with
  | .memory | .temporary => none
  | .path name => some (m.locate name)

def isFolder (m : Machine) (path : List String) : Bool :=
  (m.workingFolder :: m.folders).any path.isPrefixOf

def nameLimit : Nat × Nat := (255, 509)

def canName (path : List String) : Bool :=
  path ≠ [] && path.all (fun name => name.utf8ByteSize ≤ nameLimit.1) &&
    (path.map fun name => name.utf8ByteSize + 1).foldr (· + ·) 0 ≤ nameLimit.2

def openFile (m : Machine) (f : DatabaseFile) : Except DatabaseFault Unit :=
  match m.pathOf f with
  | none => .ok ()
  | some path =>
    let canMake := f.mode = .create ∧ m.isFolder path.dropLast ∧ ¬ m.isFolder path
    if canName path ∧ (m.files.contains path ∨ canMake) then .ok ()
    else .error (.engine "(code: 14) unable to open database file")

def connect (m : Machine) : Address → Except DatabaseFault Unit
  | .embedded file => m.openFile file
  | .server link => link.establish m.servers

end Machine

end TaskAudit
