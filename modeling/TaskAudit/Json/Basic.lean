import TaskAudit.Named

/-!
# JSON values

A number is an integer or a double, because both kinds are written differently
and only integers are accepted where a count is wanted. The members of an object
are listed in the order of their names; of two members of one name the last counts.
-/
namespace TaskAudit

inductive Json where
  | null
  | bool (b : Bool)
  | int (n : Int)
  | float (x : Float)
  | str (s : String)
  | arr (items : List Json)
  | obj (members : List (String × Json))
  deriving Inhabited

namespace Json

/-- The object with the given members; of two of one name the last counts. -/
def ofMembers (members : List (String × Json)) : Json := .obj (Named.ofList members)

end Json

end TaskAudit
