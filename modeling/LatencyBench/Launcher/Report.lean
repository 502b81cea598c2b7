/-
What the launcher prints around a session, and how it ends.
-/

import LatencyBench.Aggregate
import LatencyBench.Host
import LatencyBench.Launcher.Arguments
import LatencyBench.Launcher.Help
import LatencyBench.Phase

namespace LatencyBench.Launcher

open Net

def versionLine : String := Panel.title ++ " " ++ version

def listeningLine (transport : Transport) (address : SocketAddress) :
    String :=
  "listening for " ++ transport.name ++ " on " ++ address.text

def complaint (text : String) : String := Panel.title ++ ": " ++ text

def terminalComplaint (error : IoError) : String :=
  complaint ("terminal setup failed: " ++ error.text)

def measuredLine (stats : Aggregate Float) (last : Float) : String :=
  if stats.samples = 0 then "no round trips measured"
  else
    toString stats.samples ++ " round trips: " ++
      ", ".intercalate
        [Panel.named "last" last, Panel.named "min" stats.least,
         Panel.named "mean" stats.mean, Panel.named "max" stats.greatest]

def summary (reason : Termination) (stats : Aggregate Float)
    (last : Float) : List String :=
  ["session ended: " ++ reason.message, measuredLine stats last]

inductive Exit where
  | success
  | failure
  | usage
deriving DecidableEq, Repr

def Exit.code : Exit → Nat
  | .success => 0
  | .failure => 1
  | .usage => 2

def Exit.ofTermination (reason : Termination) : Exit :=
  if reason.isFault then .failure else .success

structure Printed where
  output : List String := []
  errors : List String := []
  exit : Exit
deriving DecidableEq, Repr

def Instead.print : Instead → Printed
  | .refuse error =>
      { errors := error.report
        exit := .usage }
  | .showHelp full =>
      { output := helpLines full
        exit := .success }
  | .showVersion =>
      { output := [versionLine]
        exit := .success }

def Printed.refusal (line : String) : Printed :=
  { errors := [line]
    exit := .failure }

def Printed.ofEnd {φ : Type} (reason : Termination) (session : Session φ) :
    Printed :=
  let machine := session.engine.machine
  { output := summary reason machine.stats machine.measurement.lastRoundTrip
    exit := .ofTermination reason }

end LatencyBench.Launcher
