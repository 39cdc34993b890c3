import TaskAudit.Decimal.Digits
import TaskAudit.Time.Timestamp

/-!
# Timestamps as text

The written forms of a timestamp, all in universal time. `stored` always has
nine decimals, so that for years of four digits the order of the texts is the
order of the times; `brief` drops groups of three zeros. A year outside 0 to 9999
has a sign.
-/
namespace TaskAudit.Timestamp

open Decimal

/-- A year in four digits, or with a sign and at least four. -/
def yearText (year : Int) : List Char :=
  if 0 ≤ year ∧ year ≤ 9999 then fixed 4 year.toNat
  else (if year < 0 then '-' else '+') :: atLeast 4 year.natAbs

def dateText (t : Timestamp) : List Char :=
  let d := t.date
  yearText d.year ++ '-' :: fixed 2 d.month ++ '-' :: fixed 2 d.day

def clockText (t : Timestamp) : List Char :=
  fixed 2 t.hour ++ ':' :: fixed 2 t.minute ++ ':' :: fixed 2 t.second

/-- The decimals of the second in as many groups of three as they need. -/
def fractionText (t : Timestamp) : List Char :=
  let n := t.fraction
  if n = 0 then []
  else if n % 1000000 = 0 then '.' :: fixed 3 (n / 1000000)
  else if n % 1000 = 0 then '.' :: fixed 6 (n / 1000)
  else '.' :: fixed 9 n

def stored (t : Timestamp) : String :=
  String.ofList (t.dateText ++ 'T' :: t.clockText ++ '.' :: fixed 9 t.fraction ++ ['Z'])

def brief (t : Timestamp) : String :=
  String.ofList (t.dateText ++ 'T' :: t.clockText ++ t.fractionText ++ ['Z'])

def shown (t : Timestamp) : String :=
  String.ofList (t.dateText ++ ' ' :: t.clockText ++ t.fractionText ++ " UTC".toList)

/-- The text that a reader is shown in a column, to the second. -/
def shownToSecond (t : Timestamp) : String :=
  String.ofList (t.dateText ++ ' ' :: t.clockText)

end TaskAudit.Timestamp
