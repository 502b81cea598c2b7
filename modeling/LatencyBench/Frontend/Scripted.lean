/-
A front-end that follows a script, for sessions that are tried out.

It holds presses of the send control for the next frame, or for the next one
at which the control is enabled, and asks to close at once or after a number
of frames.
-/

import LatencyBench.Frontend.Basic

namespace LatencyBench

structure ScriptedPress where
  count : Nat
  whenEnabled : Bool
deriving DecidableEq, Repr

/-- The state of a scripted front-end.  `closed` says whether it asks to close,
`framesLeft` is the number of frames until it will, and `renders` how often it
was rendered. -/
structure Scripted where
  presses : List ScriptedPress
  closed : Bool
  framesLeft : Option Nat
  renders : Nat
deriving DecidableEq, Repr

namespace Scripted

def start : Scripted :=
  { presses := []
    closed := false
    framesLeft := none
    renders := 0 }

def plan (script : Scripted) (press : ScriptedPress) : Scripted :=
  { script with presses := script.presses ++ [press] }

def close (script : Scripted) : Scripted :=
  { script with closed := true }

/-- Asks to close after some more frames.  The count is looked at when a frame
is rendered, so none at all means the next one. -/
def closeAfter (script : Scripted) (frames : Nat) : Scripted :=
  { script with framesLeft := some frames }

def render (script : Scripted) (snapshot : Snapshot) : Rendering Scripted :=
  let (due, later) :=
    script.presses.partition fun press =>
      !press.whenEnabled || snapshot.canSend
  let framesLeft := script.framesLeft.map fun left => left - 1
  { state :=
      { script with
        presses := later
        closed := script.closed || framesLeft == some 0
        framesLeft := framesLeft
        renders := script.renders + 1 }
    intents :=
      due.flatMap fun press => List.replicate press.count .sendCommand }

def frontend : Frontend Scripted :=
  { closeRequested := closed
    render := fun script snapshot _ => script.render snapshot }

end Scripted

end LatencyBench
