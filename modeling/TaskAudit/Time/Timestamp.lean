import TaskAudit.Time.Civil

/-!
# Points in time

A timestamp counts seconds from the start of 1970 in universal time and
nanoseconds within the second. A leap second is the second before it with a
second more of nanoseconds. Any second can be followed by one, but a clock shows
one only at the end of a minute, and no other one is ever read from a text.
Timestamps lie in the years from -262143 to 262142.
-/
namespace TaskAudit.Time

def nanosPerSecond : Nat := 1000000000

def earliest : Int := -8334601228800

def latest : Int := 8210266876799

/-- Can these be the seconds and nanoseconds of a timestamp? -/
def IsMoment (seconds : Int) (nanos : Nat) : Prop :=
  earliest ≤ seconds ∧ seconds ≤ latest ∧ nanos < 2 * nanosPerSecond

instance (seconds : Int) (nanos : Nat) : Decidable (IsMoment seconds nanos) := by
  unfold IsMoment; infer_instance

end TaskAudit.Time

namespace TaskAudit

/-- A point in universal time. -/
structure Timestamp where
  seconds : Int
  nanos : Nat
  valid : Time.IsMoment seconds nanos
  deriving DecidableEq, Repr

namespace Timestamp

open Time

def epoch : Timestamp := ⟨0, 0, by decide⟩

instance : Inhabited Timestamp := ⟨epoch⟩

/-- A regular timestamp has a leap second only at the end of a minute. -/
def IsRegular (t : Timestamp) : Prop := t.nanos < nanosPerSecond ∨ t.seconds % 60 = 59

instance : DecidablePred IsRegular := fun _ => inferInstanceAs (Decidable (_ ∨ _))

/-- The regular timestamp with these parts, if there is one. -/
def ofParts? (seconds : Int) (nanos : Nat) : Option Timestamp :=
  if h : IsMoment seconds nanos then
    let t : Timestamp := ⟨seconds, nanos, h⟩
    if t.IsRegular then some t else none
  else none

/-- Timestamps are ordered by second, then by nanosecond. -/
instance : LT Timestamp where
  lt a b := a.seconds < b.seconds ∨ a.seconds = b.seconds ∧ a.nanos < b.nanos

instance (a b : Timestamp) : Decidable (a < b) :=
  inferInstanceAs (Decidable (a.seconds < b.seconds ∨ a.seconds = b.seconds ∧ a.nanos < b.nanos))

instance : LE Timestamp where
  le a b := ¬ b < a

instance (a b : Timestamp) : Decidable (a ≤ b) := inferInstanceAs (Decidable (¬ b < a))

def date (t : Timestamp) : Date := Date.ofDays (t.seconds / 86400)

def secondOfDay (t : Timestamp) : Nat := (t.seconds % 86400).toNat

/-- Is this a leap second? -/
def isLeap (t : Timestamp) : Bool := nanosPerSecond ≤ t.nanos

def hour (t : Timestamp) : Nat := t.secondOfDay / 3600

def minute (t : Timestamp) : Nat := t.secondOfDay / 60 % 60

/-- The second as it is numbered: a leap second comes after the one before it. -/
def second (t : Timestamp) : Nat := t.secondOfDay % 60 + t.nanos / nanosPerSecond

/-- The nanoseconds within the second that `second` names. -/
def fraction (t : Timestamp) : Nat := t.nanos % nanosPerSecond

/-- The timestamp of a local date and time of day, given how far the local time
is ahead of universal time. -/
def ofLocal? (d : Date) (secondOfDay nanos : Nat) (ahead : Int) : Option Timestamp :=
  ofParts? (d.toDays * 86400 + secondOfDay - ahead) nanos

/-- The whole milliseconds from one timestamp to a later one, negative if it is
earlier; a part of a millisecond is dropped. A leap second counts when it lies
earlier in the day than the other end. -/
def millisecondsTo (start finish : Timestamp) : Int :=
  let leap : Int :=
    if start.secondOfDay < finish.secondOfDay ∧ start.isLeap then 1
    else if finish.secondOfDay < start.secondOfDay ∧ finish.isLeap then -1
    else 0
  let nanos := (finish.seconds - start.seconds + leap) * nanosPerSecond +
    (finish.nanos : Int) - start.nanos
  Int.tdiv nanos 1000000

end Timestamp

end TaskAudit
