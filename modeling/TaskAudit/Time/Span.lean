import TaskAudit.Decimal.Digits

/-!
# Lengths of time

A length of time in nanoseconds, and its text: the largest unit of which there
is at least one, with as many decimals as the rest needs.
-/
namespace TaskAudit

structure Span where
  nanos : Nat
  deriving DecidableEq, Repr

namespace Span

def seconds (n : Nat) : Span := ⟨n * 1000000000⟩

def milliseconds (n : Nat) : Span := ⟨n * 1000000⟩

def zero : Span := ⟨0⟩

/-- The decimals of `rest / 10 ^ places`, without zeros at their end. -/
def decimals (places rest : Nat) : List Char :=
  let ds := ((Decimal.fixed places rest).reverse.dropWhile (· = '0')).reverse
  if ds = [] then [] else '.' :: ds

def text (d : Span) : String :=
  let parts (places : Nat) (unit : String) : String :=
    String.ofList (Decimal.digits (d.nanos / Nat.pow 10 places) ++
      decimals places (d.nanos % Nat.pow 10 places) ++ unit.toList)
  if 1000000000 ≤ d.nanos then parts 9 "s"
  else if 1000000 ≤ d.nanos then parts 6 "ms"
  else if 1000 ≤ d.nanos then parts 3 "µs"
  else parts 0 "ns"

end Span

end TaskAudit
