/-!
# The civil calendar

Days are counted from 1970-01-01 in the proleptic Gregorian calendar. Years are
counted from March here, so that the day that some years lack comes last: a
cycle of 400 such years falls into centuries, each into stretches of four years,
each into years, and only the last part of each may be a day longer.
-/
namespace TaskAudit.Time

structure Date where
  year : Int
  month : Nat
  day : Nat
  deriving DecidableEq, Repr

def isLeapYear (year : Int) : Bool :=
  year % 4 = 0 && (year % 100 ≠ 0 || year % 400 = 0)

def daysInMonth (year : Int) (month : Nat) : Nat :=
  if month = 2 then (if isLeapYear year then 29 else 28)
  else if month = 4 ∨ month = 6 ∨ month = 9 ∨ month = 11 then 30
  else 31

namespace Date

def Valid (d : Date) : Prop :=
  1 ≤ d.month ∧ d.month ≤ 12 ∧ 1 ≤ d.day ∧ d.day ≤ daysInMonth d.year d.month

instance (d : Date) : Decidable d.Valid := by unfold Valid; infer_instance

def marchOffset : Int := 719468

def toDays (d : Date) : Int :=
  let year := if d.month ≤ 2 then d.year - 1 else d.year
  let inCycle := (year % 400).toNat
  let fromMarch := (d.month + 9) % 12
  let dayOfYear := (153 * fromMarch + 2) / 5 + d.day - 1
  let dayOfCycle := inCycle * 365 + inCycle / 4 - inCycle / 100 + dayOfYear
  year / 400 * 146097 + dayOfCycle - marchOffset

def ofDays (n : Int) : Date :=
  let fromMarchZero := n + marchOffset
  let dayOfCycle := (fromMarchZero % 146097).toNat
  let century := min (dayOfCycle / 36524) 3
  let dayOfCentury := dayOfCycle - century * 36524
  let four := dayOfCentury / 1461
  let dayOfFour := dayOfCentury % 1461
  let yearOfFour := min (dayOfFour / 365) 3
  let dayOfYear := dayOfFour - yearOfFour * 365
  let fromMarch := (5 * dayOfYear + 2) / 153
  let month := if fromMarch < 10 then fromMarch + 3 else fromMarch - 9
  let marchYear := fromMarchZero / 146097 * 400 + (century * 100 + four * 4 + yearOfFour : Nat)
  { year := if month ≤ 2 then marchYear + 1 else marchYear
    month
    day := dayOfYear - (153 * fromMarch + 2) / 5 + 1 }

end Date

end TaskAudit.Time
