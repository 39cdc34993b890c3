/-!
# Random ids

An id of a task is written as 32 hexadecimal digits in five groups. It is made of
sixteen random bytes, in two of which some bits say that it is a random one.
-/
namespace TaskAudit.TaskId

def groups : List Nat := [4, 2, 2, 2, 6]

def hex (b : UInt8) : List Char :=
  [Nat.digitChar (b.toNat / 16), Nat.digitChar (b.toNat % 16)]

/-- Random bytes with the marks of a random id. -/
def marked (bytes : List UInt8) : List UInt8 :=
  (bytes.modify 6 fun b => (b &&& 0x0F) ||| 0x40).modify 8 fun b => (b &&& 0x3F) ||| 0x80

def grouped : List Nat → List UInt8 → List (List UInt8)
  | [], _ => []
  | n :: ns, bytes => bytes.take n :: grouped ns (bytes.drop n)

def ofBytes (bytes : List UInt8) : String :=
  "-".intercalate ((grouped groups (marked bytes)).map fun part =>
    String.ofList (part.flatMap hex))

end TaskAudit.TaskId
