/-
Taking over a terminal for the console, and giving it back.

A terminal has three modes that the console changes: raw input, the alternate
screen and the hidden cursor.  Taking over is done in three steps, each of
which may fail, and a failure ends it where it stands.  Giving back shows the
cursor, leaves the alternate screen and ends raw input; it belongs to a
console that was set up, and comes behind the wait for the thread that reads
its keys.
-/

import LatencyBench.Frontend.Console
import LatencyBench.Frontend.KeyThread

namespace LatencyBench

open Net

structure TerminalModes where
  raw : Bool
  alternate : Bool
  cursorHidden : Bool
deriving DecidableEq, Repr

inductive ScreenCommand where
  | enterAlternate
  | leaveAlternate
  | hideCursor
  | showCursor
  | clear
deriving DecidableEq, Repr

def ScreenCommand.sequence : ScreenCommand → String
  | .enterAlternate => "\x1b[?1049h"
  | .leaveAlternate => "\x1b[?1049l"
  | .hideCursor => "\x1b[?25l"
  | .showCursor => "\x1b[?25h"
  | .clear => "\x1b[2J"

def rowSequence (index : Nat) (text : String) : String :=
  "\x1b[" ++ toString (index + 1) ++ ";1H\x1b[2K" ++ text

namespace TerminalModes

def ordinary : TerminalModes :=
  { raw := false
    alternate := false
    cursorHidden := false }

def obey (modes : TerminalModes) : ScreenCommand → TerminalModes
  | .enterAlternate => { modes with alternate := true }
  | .leaveAlternate => { modes with alternate := false }
  | .hideCursor => { modes with cursorHidden := true }
  | .showCursor => { modes with cursorHidden := false }
  | .clear => modes

def obeyAll (modes : TerminalModes) (commands : List ScreenCommand) :
    TerminalModes :=
  commands.foldl obey modes

end TerminalModes

/-- How taking over a terminal can fail.  Of the commands for the screen the
first few may have reached the terminal. -/
inductive TakeoverFault where
  | rawMode (error : IoError)
  | screen (reached : Nat) (error : IoError)
  | keyThread (error : IoError)
deriving DecidableEq, Repr

def TakeoverFault.error : TakeoverFault → IoError
  | .rawMode error => error
  | .screen _ error => error
  | .keyThread error => error

namespace Terminal

def openingCommands : List ScreenCommand :=
  [.enterAlternate, .hideCursor, .clear]
def closingCommands : List ScreenCommand :=
  [.showCursor, .leaveAlternate]

def takeOver (modes : TerminalModes) :
    Option TakeoverFault → TerminalModes
  | none => { modes with raw := true }.obeyAll openingCommands
  | some (.rawMode _) => modes
  | some (.screen reached _) =>
      { modes with raw := true }.obeyAll (openingCommands.take reached)
  | some (.keyThread _) => { modes with raw := true }.obeyAll openingCommands

def giveBack (modes : TerminalModes) : TerminalModes :=
  { modes.obeyAll closingCommands with raw := false }

end Terminal

/-! ### A console in its terminal -/

structure Tenancy where
  modes : TerminalModes
  console : Console
  line : KeyLine
deriving Repr

inductive TenancyStep where
  | look
  | hear (news : TerminalNews)
  | deliver
  | render (snapshot : Snapshot) (drawing : Drawing)
  | close
  | join
deriving Repr

def TenancyStep.onLine : TenancyStep → KeyLineStep
  | .look => .look
  | .hear news => .hear news
  | .deliver => .deliver
  | .render _ _ => .render
  | .close => .close
  | .join => .join

namespace Tenancy

def start (listen : SocketAddress) (modes : TerminalModes) : Tenancy :=
  { modes := Terminal.takeOver modes none
    console := .start listen
    line := .start }

def consoleAfter (tenancy : Tenancy) : TenancyStep → Console
  | .render snapshot drawing =>
      let frame : Console.Frame :=
        { keys := tenancy.line.waiting
          snapshot := snapshot
          drawing := drawing }
      (tenancy.console.frame frame).state
  | _ => tenancy.console

/-- The modes after a step: the end of the wait for the thread gives the
terminal back.  Drawing moves the cursor and replaces rows, and changes no
mode. -/
def modesAfter (tenancy : Tenancy) : TenancyStep → TerminalModes
  | .join => Terminal.giveBack tenancy.modes
  | _ => tenancy.modes

def step? (tenancy : Tenancy) (step : TenancyStep) : Option Tenancy :=
  (tenancy.line.step? step.onLine).map fun line =>
    { modes := tenancy.modesAfter step
      console := tenancy.consoleAfter step
      line := line }

def steps? (tenancy : Tenancy) : List TenancyStep → Option Tenancy
  | [] => some tenancy
  | step :: rest => (tenancy.step? step).bind fun next => next.steps? rest

end Tenancy

inductive ConsoleLife where
  | refused (fault : TakeoverFault)
  | held (listen : SocketAddress) (steps : List TenancyStep)
deriving Repr

/-- The modes of a terminal after the life of a console, if all of its steps
are possible. -/
def ConsoleLife.modesAfter? (modes : TerminalModes) :
    ConsoleLife → Option TerminalModes
  | .refused fault => some (Terminal.takeOver modes (some fault))
  | .held listen steps =>
      ((Tenancy.start listen modes).steps? steps).map Tenancy.modes

end LatencyBench
