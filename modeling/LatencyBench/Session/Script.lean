/-
Scripts: what can be done, one step after the other, to a session that is
tried out.

Some steps go through the engine and need one; the others are taken beside it,
and with input and output beside the frames everything comes to rest after
them.
-/

import LatencyBench.Frontend.Scripted
import LatencyBench.Session

namespace LatencyBench

inductive ScriptStep where
  | ticks (count : Nat)
  | settle
  | run (frames : Nat)
  | release
  | press (count : Nat)
  | plan (press : ScriptedPress)
  | requestStop
  | closeWindow
  | look
deriving DecidableEq, Repr

def ScriptStep.needsEngine : ScriptStep → Bool
  | .ticks _ => true
  | .settle => true
  | .run _ => true
  | .release => true
  | _ => false

namespace Session

/-- Forgets what has been shown and logged, and all outcomes but the last, so
that a long script takes no more room than a short one. -/
def forget (session : Session Scripted) : Session Scripted :=
  { session with
    shown := []
    outcomes := session.lastOutcome.toList
    log := [] }

def tickOn (session : Session Scripted) : Session Scripted :=
  (session.tick Scripted.frontend).forget

def tickTimes : Nat → Session Scripted → Session Scripted
  | 0, session => session
  | count + 1, session => tickTimes count session.tickOn

def tickUntilStop : Nat → Session Scripted → Session Scripted
  | 0, session => session
  | limit + 1, session =>
      let ticked := session.tickOn
      match ticked.lastOutcome with
      | some (.stop _) => ticked
      | _ => tickUntilStop limit ticked

def settleLimit : Nat := 64

def settled (session : Session Scripted) : Session Scripted :=
  session.settle Scripted.frontend settleLimit

def onScript (session : Session Scripted) (change : Scripted → Scripted) :
    Session Scripted :=
  { session with frontend := change session.frontend }

def runFor (session : Session Scripted) (frames : Nat) : Session Scripted :=
  (session.onScript fun script => script.closeAfter frames).tickUntilStop
    (frames + 2)

def perform (session : Session Scripted) : ScriptStep → Session Scripted
  | .ticks count => session.tickTimes count
  | .settle => session.settled
  | .run frames => session.runFor frames
  | .release => session.step Scripted.frontend .release
  | .press count =>
      let intents := List.replicate count .sendCommand
      (session.step Scripted.frontend (.press intents)).afterStep
  | .plan press => (session.onScript fun script => script.plan press).afterStep
  | .requestStop => (session.step Scripted.frontend .requestStop).afterStep
  | .closeWindow => (session.onScript Scripted.close).afterStep
  | .look => session.afterStep

/-- Why a session has ended; one that has not counts as stopped. -/
def reason (session : Session Scripted) : Termination :=
  match session.lastOutcome with
  | some (.stop reason) => reason
  | _ => .stopped

end Session

end LatencyBench
