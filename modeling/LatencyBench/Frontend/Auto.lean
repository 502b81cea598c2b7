/-
The headless front-end: it presses the send control on a timer, reports every
sample, and asks to close once enough samples are in.
-/

import LatencyBench.Frontend.Basic

namespace LatencyBench

/-- The state of the headless front-end.  `logged` is the number of samples
reported so far. -/
structure Auto where
  interval : Duration
  limit : Option Nat
  lastPress : Option Instant
  logged : Nat
  done : Bool
deriving Repr

namespace Auto

def start (interval : Duration) (limit : Option Nat) : Auto :=
  { interval := interval
    limit := limit
    lastPress := none
    logged := 0
    done := false }

def due (auto : Auto) (now : Instant) : Bool :=
  match auto.lastPress with
  | none => true
  | some last => decide (auto.interval ≤ elapsed last now)

def sampleRecord (sample : Nat) (milliseconds : Float) : LogRecord :=
  { source := .headless
    level := .info
    message := "round trip"
    fields :=
      [("sample", .text (toString sample)),
       ("round_trip_ms", .number milliseconds)] }

def limitReached (auto : Auto) (samples : Nat) : Bool :=
  auto.limit.any fun limit => decide (limit ≤ samples)

/-- Reports a new sample, then stops at the limit or presses when it is
time. -/
def render (auto : Auto) (snapshot : Snapshot) (now : Instant) :
    Rendering Auto :=
  let logged := max auto.logged snapshot.stats.samples
  let log :=
    if auto.logged < snapshot.stats.samples then
      [sampleRecord logged snapshot.lastRoundTrip]
    else []
  if auto.limitReached logged then
    { state := { auto with logged := logged, done := true }
      log := log }
  else if snapshot.canSend && auto.due now then
    { state := { auto with logged := logged, lastPress := some now }
      intents := [.sendCommand]
      log := log }
  else
    { state := { auto with logged := logged }
      log := log }

def frontend : Frontend Auto :=
  { closeRequested := Auto.done
    render := render }

end Auto

end LatencyBench
