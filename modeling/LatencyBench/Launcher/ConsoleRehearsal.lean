/-
Rehearsing a launch in a terminal: somebody types at the console of a session
on a simulated network.

Keys that are typed at once wait for room in the line of keys, which is full
again before each frame.  After everything that is done the frames go on for
long enough that all keys are consumed and the end comes that they ask for.
The panel of a session that has ended is the last one that was drawn.  A
program whose session ends while keys still wait for room does not end: it
waits for the thread that has them.
-/

import LatencyBench.Frontend.Console
import LatencyBench.Frontend.KeyReader
import LatencyBench.Frontend.KeyThread
import LatencyBench.Launcher.Rehearsal

namespace LatencyBench.Launcher

/-- A launch in a terminal; its session has a reason once it is over.  The
keys in `backlog` have been typed and wait for room in the line. -/
structure ConsoleRehearsal where
  session : Session Console
  reader : KeyReader
  backlog : List ConsoleKey
  reason : Option Termination

namespace ConsoleRehearsal

/-- How many frames follow anything that is done: in the first one keys are
consumed, and in the second one the console closes. -/
def framesBetween : Nat := 3

def fillLine (rehearsal : ConsoleRehearsal) : ConsoleRehearsal :=
  let console := rehearsal.session.frontend
  let room := KeyLine.capacity - console.waiting.length
  let filled := console.press (rehearsal.backlog.take room)
  { rehearsal with
    session := { rehearsal.session with frontend := filled }
    backlog := rehearsal.backlog.drop room }

def goOnFor : Nat → ConsoleRehearsal → ConsoleRehearsal
  | 0, rehearsal => rehearsal
  | limit + 1, rehearsal =>
      match rehearsal.reason with
      | some _ => rehearsal
      | none =>
          let filled := rehearsal.fillLine
          let (session, reason) :=
            framesUntilStop Console.frontend 1 filled.session
          goOnFor limit
            { filled with
              session := session
              reason := reason }

def goOn (rehearsal : ConsoleRehearsal) : ConsoleRehearsal :=
  let further := rehearsal.backlog.length / KeyLine.capacity
  goOnFor (framesBetween + further) rehearsal

def start (tree : FileTree) (network : Net.Network) (words : List String) :
    Except Printed ConsoleRehearsal :=
  let console (arguments : Arguments) : Console :=
    .start arguments.config.listenAddress
  (startWith tree network console words).map fun (_, session) =>
    goOn
      { session := session
        reader := .start true
        backlog := []
        reason := none }

/-- Whether the program waits forever: its session has ended, and more keys
are left than the line holds. -/
def isStuck (rehearsal : ConsoleRehearsal) : Bool :=
  let console := rehearsal.session.frontend
  let left := console.waiting.length + rehearsal.backlog.length
  rehearsal.reason.isSome && decide (KeyLine.capacity < left)

def isRunning (rehearsal : ConsoleRehearsal) : Bool :=
  rehearsal.reason.isNone || rehearsal.isStuck

def type (rehearsal : ConsoleRehearsal) (bytes : List UInt8) :
    ConsoleRehearsal :=
  let (reader, presses) := rehearsal.reader.feedAll bytes
  let keys := presses.filterMap ConsoleKey.ofPress?
  if rehearsal.isRunning then
    goOn
      { rehearsal with
        reader := reader
        backlog := rehearsal.backlog ++ keys }
  else rehearsal

def interrupt (rehearsal : ConsoleRehearsal) : ConsoleRehearsal :=
  goOn
    { rehearsal with
      session := rehearsal.session.step Console.frontend .requestStop }

def panel (rehearsal : ConsoleRehearsal) : List String :=
  rehearsal.session.frontend.screen.rows

/-- What is printed at the end, which the key for quitting brings about if
nothing else has, and if the end comes. -/
def printed? (rehearsal : ConsoleRehearsal) : Option Printed :=
  let ended := rehearsal.type (Utf8.encode "q")
  if ended.isStuck then none
  else
    some
      (.ofEnd (ended.reason.getD ended.session.engine.termination)
        ended.session)

end ConsoleRehearsal

end LatencyBench.Launcher
