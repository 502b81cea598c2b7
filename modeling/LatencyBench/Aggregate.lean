/-
The running aggregate over completed measurements: how many there are, the
least, the greatest and the mean.

Recording a sample is written once, over any numbers that have the few
operations it needs, so the same definition runs on doubles and can be read
over exact rationals.
-/

namespace LatencyBench

class Sample (α : Type) extends Add α, Sub α, Div α where
  zero : α
  ofCount : Nat → α
  lesser : α → α → α
  greater : α → α → α

/-- Doubles.  A sample that is not a number never becomes the lesser or the
greater of two unless both are; of two equal numbers the second is kept, so a
zero takes the sign of the last one. -/
instance : Sample Float where
  zero := 0.0
  ofCount count := count.toUInt64.toFloat
  lesser first second :=
    if second.isNaN then first
    else if first < second then first else second
  greater first second :=
    if second.isNaN then first
    else if second < first then first else second

/-- Count, least, greatest and mean of the samples recorded so far.  The count
is a natural number where the program counts in 64 bits, so it stands for the
program below `2 ^ 64` samples. -/
structure Aggregate (α : Type) where
  samples : Nat
  least : α
  greatest : α
  mean : α
deriving Repr, DecidableEq

namespace Aggregate

variable {α : Type} [Sample α]

def empty : Aggregate α :=
  { samples := 0
    least := Sample.zero
    greatest := Sample.zero
    mean := Sample.zero }

/-- Folds one sample in.  The first sample is least, greatest and mean at
once; a later one moves the mean by its distance divided by the new count. -/
def record (stats : Aggregate α) (sample : α) : Aggregate α :=
  let count := stats.samples + 1
  if count = 1 then
    { samples := count
      least := sample
      greatest := sample
      mean := sample }
  else
    { samples := count
      least := Sample.lesser stats.least sample
      greatest := Sample.greater stats.greatest sample
      mean := stats.mean + (sample - stats.mean) / Sample.ofCount count }

def recordAll (stats : Aggregate α) (samples : List α) : Aggregate α :=
  samples.foldl record stats

def history (stats : Aggregate α) : List α → List (Aggregate α)
  | [] => []
  | sample :: rest =>
      let next := stats.record sample
      next :: next.history rest

end Aggregate

end LatencyBench
