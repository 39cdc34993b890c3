import TaskAudit.Decimal.Digits
import TaskAudit.Error

/-!
# Dialects of SQL

A statement is written once, with a question mark for every value. A database
that wants numbered values gets them numbered from one; the others get the text
as it is. Which kind a database is follows from the scheme of its address.
-/
namespace TaskAudit

/-- How a database wants the values of a statement to be marked. -/
inductive Dialect where
  | positional
  | numbered
  deriving DecidableEq, Repr

namespace Dialect

def name : Dialect → String
  | positional => "Positional"
  | numbered => "Numbered"

/-- The scheme of an address: what stands before the first colon, in lower case. -/
def scheme (address : String) : String :=
  String.ofList ((address.toList.takeWhile (· ≠ ':')).map Char.toLower)

def ofAddress (address : String) : Except Error Dialect :=
  let s := scheme address
  if s = "postgres" ∨ s = "postgresql" then .ok .numbered
  else if s = "sqlite" ∨ s = "mysql" ∨ s = "mariadb" then .ok .positional
  else .error (.config s!"unsupported database scheme {Text.quoted s} in connection url")

/-- A text whose question marks are numbered from `n + 1` on. It is meant for fewer than `2 ^ 31`
of them, as many as a counter of 32 bits with a sign can number. -/
def number : Nat → List Char → List Char
  | _, [] => []
  | n, c :: cs =>
    if c = '?' then '$' :: Decimal.digits (n + 1) ++ number (n + 1) cs
    else c :: number n cs

def express (d : Dialect) (template : String) : String :=
  match d with
  | positional => template
  | numbered => String.ofList (number 0 template.toList)

def now : Dialect → String
  | positional => "CURRENT_TIMESTAMP"
  | numbered => "CAST(NOW() AS TEXT)"

end Dialect

end TaskAudit
