/-
Rehearsing a launch: the whole course of the program on a simulated network,
without a terminal.

A visitor comes once the session listens.  The clock moves by the length of a
frame before each tick, so presses on a timer fall due.
-/

import LatencyBench.Frontend.Auto
import LatencyBench.Launcher.Report
import LatencyBench.Log.File
import LatencyBench.Log.Filter
import LatencyBench.Log.Line

namespace LatencyBench.Launcher

open Net

/-- Who comes to a session that listens: nobody, the simulated peer, someone
who leaves at once, someone who does not speak the protocol, or an
interruption from the keyboard. -/
inductive Visitor where
  | nobody
  | simulatedPeer (choices : PeerChoices)
  | leaver
  | stranger (words : List UInt8)
  | interruption

/-- What came of a launch: what was printed, what the simulated peer reports,
and the lines in the log file before anyone came. -/
structure Rehearsed where
  printed : Printed
  peer : Option (Except PeerError PeerReport) := none
  logged : List String := []

namespace Visitor

def firstSteps : Visitor → List (RunStep WireStep)
  | .nobody => []
  | .simulatedPeer choices => [.beside (.peerJoins choices)]
  | .leaver =>
      [.beside (.endpoint (.connect true)), .beside (.endpoint .hangUp)]
  | .stranger words =>
      [.beside (.endpoint (.connect true)),
       .beside (.endpoint (.arrive words))]
  | .interruption => [.requestStop]

end Visitor

def framesUntilStop {φ : Type} (view : Frontend φ) :
    Nat → Session φ → Session φ × Option Termination
  | 0, session => (session, none)
  | limit + 1, session =>
      let span := session.engine.config.frameDuration
      let passed := session.step view (.beside (.pass span))
      let ticked := passed.tick view
      match ticked.lastOutcome with
      | some (.stop reason) => (ticked, some reason)
      | _ => framesUntilStop view limit ticked

def rehearsedFrames : Nat := 20000

def writtenLines (arguments : Arguments) (set : Option String)
    (records : List LogRecord) : List String :=
  let filter := chosenFilter arguments.logLevel set
  let written :=
    if arguments.logFile.isSome then records.filter filter.admits else []
  written.map fun record => record.undated (.ofLevel arguments.logLevel)

def rehearseSession (arguments : Arguments) (set : Option String)
    (visitor : Visitor) (session : Session Auto) : Rehearsed :=
  let config := session.engine.config
  let visited := visitor.firstSteps.foldl (Session.step Auto.frontend) session
  let (ended, reason) :=
    framesUntilStop Auto.frontend rehearsedFrames visited
  let printed := Printed.ofEnd (reason.getD ended.engine.termination) ended
  { printed :=
      { printed with
        output :=
          listeningLine config.transport config.listenAddress ::
            printed.output }
    peer := ended.world.exchange.peer.map Peer.report
    logged := writtenLines arguments set session.log }

/-- Starts a session with the front-end that the words on a command line ask
for.  What is printed instead may be a refusal. -/
def startWith {φ : Type} (tree : FileTree) (network : Network)
    (frontend : Arguments → φ) (words : List String) :
    Except Printed (Arguments × Session φ) :=
  match Arguments.read words with
  | .error instead => .error instead.print
  | .ok arguments =>
      match openLog tree arguments.logFile with
      | .error error => .error (.refusal (complaint error.message))
      | .ok () =>
          match Session.start network arguments.config
              (frontend arguments) with
          | .error error => .error (.refusal (complaint error.message))
          | .ok session => .ok (arguments, session)

def Arguments.autoFrontend (arguments : Arguments) : Auto :=
  .start (arguments.auto.getD 0 * nanosPerMillisecond) arguments.samples

/-- Rehearses a launch with the given words on its command line and without a
terminal; `set` is the filter that the environment holds. -/
def rehearse (tree : FileTree) (network : Network) (set : Option String)
    (visitor : Visitor) (words : List String) : Rehearsed :=
  match startWith tree network Arguments.autoFrontend words with
  | .error printed => { printed := printed }
  | .ok (arguments, session) =>
      if arguments.isHeadless then
        rehearseSession arguments set visitor session
      else { printed := .refusal (terminalComplaint (.ofOs 6)) }

end LatencyBench.Launcher
