/-
The console front-end: the status panel on a screen, and a few keys.

Keys that were pressed since the last frame wait for the next one.  Rendering
consumes all of them in order, then draws the panel if it differs from the one
that was drawn last.  A quit key closes the console, and so does a panel that
cannot be drawn.
-/

import LatencyBench.Frontend.Basic
import LatencyBench.Frontend.Key
import LatencyBench.Net.IoError
import LatencyBench.Panel

namespace LatencyBench

open Net

/-! ### Screens -/

/-- The rows of a screen from the top; all rows below them are blank. -/
structure Screen where
  rows : List String
deriving DecidableEq, Repr

namespace Screen

def blank : Screen :=
  { rows := [] }

def row (screen : Screen) (index : Nat) : String :=
  screen.rows.getD index ""

def writeRow (screen : Screen) (index : Nat) (text : String) : Screen :=
  let missing := index + 1 - screen.rows.length
  { rows := (screen.rows ++ List.replicate missing "").set index text }

def writeFrom (screen : Screen) (index : Nat) : List String → Screen
  | [] => screen
  | line :: rest => (screen.writeRow index line).writeFrom (index + 1) rest

end Screen

/-- What comes of drawing a panel: all of it reaches the screen, or an error
keeps all but the first rows from it. -/
inductive Drawing where
  | complete
  | broken (rows : Nat) (error : IoError)
deriving DecidableEq, Repr

/-! ### The console -/

/-- The state of the console.  `waiting` are the keys not consumed yet, `shown`
is the panel that was drawn last, and `drawing` is what will come of drawing
the next one. -/
structure Console where
  listen : SocketAddress
  waiting : List ConsoleKey
  drawing : Drawing
  screen : Screen
  shown : List String
  closed : Bool
deriving Repr

namespace Console

def start (listen : SocketAddress) : Console :=
  { listen := listen
    waiting := []
    drawing := .complete
    screen := .blank
    shown := []
    closed := false }

def press (console : Console) (keys : List ConsoleKey) : Console :=
  { console with waiting := console.waiting ++ keys }

/-- The intents that keys raise: one for each press of the send control, as
long as it is enabled. -/
def intentsOf (enabled : Bool) (keys : List ConsoleKey) : List Intent :=
  (keys.filter fun key => key == .send && enabled).map fun _ => .sendCommand

def brokenRecord (error : IoError) : LogRecord :=
  { source := .console
    level := .warn
    message := "console draw failed"
    fields := [("error", .text error.text)] }

/-- Draws a panel.  What was shown last is forgotten only for a panel that is
drawn completely. -/
def draw (console : Console) (lines : List String) :
    Console × List LogRecord :=
  match console.drawing with
  | .complete =>
      ({ console with
         screen := console.screen.writeFrom 0 lines
         shown := lines }, [])
  | .broken rows error =>
      ({ console with
         screen := console.screen.writeFrom 0 (lines.take rows)
         closed := true }, [brokenRecord error])

def takeKeys (console : Console) : Console :=
  { console with
    waiting := []
    closed := console.closed || console.waiting.contains .quit }

def refresh (console : Console) (lines : List String) :
    Console × List LogRecord :=
  if lines = console.shown then (console, []) else console.draw lines

def render (console : Console) (snapshot : Snapshot) : Rendering Console :=
  let (refreshed, log) :=
    console.takeKeys.refresh (Panel.rows snapshot console.listen)
  { state := refreshed
    intents := intentsOf snapshot.canSend console.waiting
    log := log }

def frontend : Frontend Console :=
  { closeRequested := Console.closed
    render := fun console snapshot _ => console.render snapshot }

/-! ### Histories -/

structure Frame where
  keys : List ConsoleKey
  snapshot : Snapshot
  drawing : Drawing
deriving Repr

def frame (console : Console) (frame : Frame) : Rendering Console :=
  { console.press frame.keys with drawing := frame.drawing }.render
    frame.snapshot

def frames (console : Console) (all : List Frame) : Console :=
  all.foldl (fun console next => (console.frame next).state) console

end Console

end LatencyBench
