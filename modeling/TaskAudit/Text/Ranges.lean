/-!
# Ranges of characters

A large set of characters is a list of ranges of their numbers, each given by its
first and its last.
-/
namespace TaskAudit.Text

def inRanges (ranges : List (Nat × Nat)) (n : Nat) : Bool :=
  ranges.any fun r => r.1 ≤ n && n ≤ r.2

end TaskAudit.Text
