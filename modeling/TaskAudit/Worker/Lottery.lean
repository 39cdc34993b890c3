import TaskAudit.Weights

/-!
# The order of polling

Before each poll the queues are put in a random order: every place is drawn from
the queues that are left, with a probability proportional to weight. The sampler,
which picks a number below a bound, is a parameter; `drawBelow` picks it from a
stream of 64-bit words by rejecting the words that would favour small numbers.
-/
namespace TaskAudit.Worker

def total (queues : Weights) : UInt64 := (queues.map fun q => q.2.toUInt64).foldr (· + ·) 0

/-- The place of the queue that a number below the sum of the weights picks. -/
def choose (pick : UInt64) : Weights → Option Nat
  | [] => none
  | q :: qs =>
    if pick < q.2.toUInt64 then some 0
    else (choose (pick - q.2.toUInt64) qs).map (· + 1)

/-- The names of `n` queues in the order in which a sampler draws them. -/
def arrange {σ : Type} (sample : UInt64 → σ → UInt64 × σ) :
    Nat → Weights → σ → List String × σ
  | 0, _, s => ([], s)
  | n + 1, queues, s =>
    let (pick, s) := sample (total queues) s
    let place := (choose pick queues).getD (queues.length - 1)
    match queues[place]? with
    | none => ([], s)
    | some q =>
      let (names, s) := arrange sample n (queues.eraseIdx place) s
      (q.1 :: names, s)

/-- A stream of 64-bit words, zero after its end, and how many were taken. -/
structure Words where
  ahead : List UInt64
  taken : Nat
  deriving DecidableEq, Repr

/-- Multiplies a word by a bound: the number that it picks, if it is fair. -/
def fair? (bound word : UInt64) : Option UInt64 :=
  let product := word.toNat * bound.toNat
  let zone := bound.toNat * Nat.pow 2 (63 - bound.toNat.log2) - 1
  let words := Nat.pow 2 64
  if product % words ≤ zone then some (UInt64.ofNat (product / words)) else none

/-- The first number below a bound that the words pick. -/
def drawFrom (bound : UInt64) (taken : Nat) : List UInt64 → UInt64 × Words
  | [] => (0, ⟨[], taken + 1⟩)
  | word :: rest =>
    match fair? bound word with
    | some pick => (pick, ⟨rest, taken + 1⟩)
    | none => drawFrom bound (taken + 1) rest

/-- Draws a number below a bound from a stream of words. -/
def drawBelow (bound : UInt64) (w : Words) : UInt64 × Words := drawFrom bound w.taken w.ahead

/-- The names of the queues in weighted random order, and the words left. -/
def pollingOrder (queues : Weights) (w : Words) : List String × Words :=
  arrange drawBelow queues.length queues w

end TaskAudit.Worker
