import TaskAudit.Trail.Table

/-!
# A database that plays back answers

Each query gets the next of some prepared answers, whatever it asks; a query
without one changes one row and finds none. The queries are kept in their order.
-/
namespace TaskAudit

/-- A prepared answer: the number of changed rows and the rows found, or a fault. -/
abbrev Prepared := Except DatabaseFault (Nat × List Row)

/-- The answers ahead and the queries so far. -/
structure Playback where
  ahead : List Prepared := []
  asked : List Query := []

namespace Playback

def next (q : Query) (s : Playback) : Prepared × Playback :=
  let s' := { ahead := s.ahead.drop 1, asked := s.asked ++ [q] }
  (s.ahead.head?.getD (.ok (1, [])), s')

def database : Database Playback where
  execute q s :=
    let (answer, s) := s.next q
    (.answered (answer.map Prod.fst), s)
  select q s :=
    let (answer, s) := s.next q
    (.answered (answer.map Prod.snd), s)

end Playback

end TaskAudit
