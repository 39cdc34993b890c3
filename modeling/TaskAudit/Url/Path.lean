import TaskAudit.Text.Parts

/-!
# Paths in locators

A path is a list of segments, each after a slash. A segment of one dot stands for
nothing, one of two dots takes the segment before it away; a dot may be percent
encoded there.
-/
namespace TaskAudit.Url

open Text

def dotted : List Char → List Char
  | '%' :: '2' :: 'e' :: rest | '%' :: '2' :: 'E' :: rest => '.' :: dotted rest
  | c :: rest => c :: dotted rest
  | [] => []

def isHere (segment : List Char) : Bool := dotted segment = ['.']

def isUp (segment : List Char) : Bool := dotted segment = ['.', '.']

/-- Some segments, and after them others, without the dots. The segments before are
given from the last one on. -/
def settled : List (List Char) → List (List Char) → List (List Char)
  | before, [] => before.reverse
  | before, [last] =>
    if isUp last then (before.drop 1).reverse ++ [[]]
    else if isHere last then before.reverse ++ [[]]
    else before.reverse ++ [last]
  | before, s :: rest =>
    if isUp s then settled (before.drop 1) rest
    else if isHere s then settled before rest
    else settled (s :: before) rest

/-- A path without dots, given with its first slash. -/
def withoutDots (cs : List Char) : List Char :=
  '/' :: join '/' (settled [] (split '/' (cs.drop 1)))

end TaskAudit.Url
