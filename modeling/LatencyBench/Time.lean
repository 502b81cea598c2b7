/-
Moments and the time between them.
-/

namespace LatencyBench

/-- A moment, in nanoseconds after an arbitrary start. -/
abbrev Instant := Nat

/-- A span of time in nanoseconds. -/
abbrev Duration := Nat

def nanosPerSecond : Nat := 1000000000

def nanosPerMillisecond : Nat := 1000000

/-- The time from one moment to a later one; nothing if it is not later. -/
def elapsed (earlier later : Instant) : Duration := later - earlier

/-- A span in seconds: the whole seconds and the fraction are each rounded to
a double before they are added. -/
def seconds (span : Duration) : Float :=
  (span / nanosPerSecond).toUInt64.toFloat +
    (span % nanosPerSecond).toUInt64.toFloat / 1000000000.0

def milliseconds (span : Duration) : Float :=
  seconds span * 1000.0

/-- The milliseconds from a command to what answers it; never negative. -/
def roundTrip (issuedAt receivedAt : Instant) : Float :=
  milliseconds (elapsed issuedAt receivedAt)

end LatencyBench
