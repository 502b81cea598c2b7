/-
The command line.

The arguments are read, the log is opened, a session runs on the sockets of
the machine until it ends, and what it measured is printed.  Without a console
an automatic front-end presses the send control.  The console reads its keys
from the standard input, which hands them over in whole lines, so the program
leaves after the line that follows the end of a session.
-/

import LatencyBench.Frontend.Auto
import LatencyBench.Frontend.KeyReader
import LatencyBench.Frontend.Terminal
import LatencyBench.Launcher.Attachment
import LatencyBench.Launcher.Report
import LatencyBench.Log.File
import LatencyBench.Log.Filter
import LatencyBench.Log.Line
import Std.Internal.UV.Signal
import Std.Time

namespace LatencyBench.Launcher

open Net Std.Internal.UV

/-! ### The log -/

/-- Where records are written, if anywhere, which of them, and how. -/
structure LogSink where
  filter : Filter
  style : LineStyle
  stream : Option IO.FS.Stream

def writtenMoment : IO String := do
  let now ← Std.Time.Timestamp.now
  let moment := Std.Time.DateTime.ofTimestampWithZone now Std.Time.TimeZone.UTC
  return moment.format "uuuu-MM-dd'T'HH:mm:ss.SSSSSS'Z'"

def LogSink.write (sink : LogSink) (records : List LogRecord) :
    IO Unit := do
  let some stream := sink.stream
    | return
  for record in records do
    if sink.filter.admits record then
      stream.putStrLn (record.line sink.style (← writtenMoment))
  stream.flush

/-- Opens the log: a file if one is named, and else the standard error, which
the console keeps for itself. -/
def openSink (arguments : Arguments) : IO (Except LogError LogSink) := do
  let set ← IO.getEnv filterVariable
  let filter := chosenFilter arguments.logLevel set
  let style := LineStyle.ofLevel arguments.logLevel
  match arguments.logFile with
  | none =>
      let stream ← IO.getStderr
      let used := if arguments.isHeadless then some stream else none
      return .ok
        { filter := filter
          style := style
          stream := used }
  | some path =>
      try
        let handle ← IO.FS.Handle.mk path .append
        return .ok
          { filter := filter
            style := style
            stream := some (.ofHandle handle) }
      catch error =>
        return .error (.file path (ofSystemError error))

/-! ### Frames -/

/-- A front-end with what is done around its ticks: what comes in before, and
what goes out after. -/
structure Stage (φ : Type) where
  view : Frontend φ
  before : φ → IO φ
  after : φ → φ → IO φ

structure Running where
  begun : Nat
  sink : LogSink
  interrupt : IO.Promise Int

def flushLog {φ : Type} (running : Running) (session : Session φ) :
    IO (Session φ) := do
  running.sink.write session.log
  return { session with
    shown := []
    outcomes := []
    log := [] }

partial def idle {φ : Type} (stage : Stage φ) (running : Running)
    (deadline : Nat) (attachment : Attachment) (session : Session φ) :
    IO (Attachment × Session φ) := do
  let (attachment, session) ←
    attachment.pump stage.view running.begun session
  let now ← IO.monoNanosNow
  if deadline ≤ now then
    return (attachment, session)
  if nanosPerMillisecond < deadline - now then
    IO.sleep 1
  idle stage running deadline attachment session

def stagedTick {φ : Type} (stage : Stage φ) (running : Running)
    (session : Session φ) : IO (Session φ) := do
  let session :=
    if ← IO.hasFinished running.interrupt.result? then
      session.step stage.view .requestStop
    else session
  let ready ← stage.before session.frontend
  let readied : Session φ := { session with frontend := ready }
  let ticked := readied.step stage.view (.tick [])
  let shown ← stage.after ready ticked.frontend
  return { ticked with frontend := shown }

partial def frames {φ : Type} (stage : Stage φ) (running : Running)
    (attachment : Attachment) (session : Session φ) :
    IO (Termination × Session φ) := do
  let started ← IO.monoNanosNow
  let ticked ← stagedTick stage running session
  match ticked.lastOutcome with
  | some (.stop reason) =>
      let (_, last) ← attachment.carryOut ticked
      return (reason, ← flushLog running last)
  | _ =>
      let session ← flushLog running ticked
      let deadline := started + session.engine.config.frameDuration
      let (attachment, session) ←
        idle stage running deadline attachment session
      frames stage running attachment session

/-! ### The console -/

partial def readKeys (input : IO.FS.Stream) (reader : KeyReader)
    (mailbox : IO.Ref (List ConsoleKey)) : IO Unit := do
  let bytes ← input.read 1
  if bytes.isEmpty then
    mailbox.modify fun keys => keys ++ [.quit]
  else
    let (next, presses) := reader.feedAll bytes.toList
    let found := presses.filterMap ConsoleKey.ofPress?
    mailbox.modify fun keys => keys ++ found
    if !found.contains .quit then readKeys input next mailbox

def writeRows (output : IO.FS.Stream) (before after : Console) :
    IO Unit := do
  let rows := List.range after.screen.rows.length
  for index in rows do
    if before.shown ≠ after.shown then
      output.putStr (rowSequence index (after.screen.row index))
  output.flush

/-- Brings the screen up to date; a screen that cannot be written to closes
the console. -/
def updateScreen (output : IO.FS.Stream) (before after : Console) :
    IO Console := do
  try
    writeRows output before after
    return after
  catch _ =>
    return { after with closed := true }

def command (output : IO.FS.Stream) (commands : List ScreenCommand) :
    IO Unit := do
  for given in commands do
    output.putStr given.sequence
  output.flush

def consoleStage (output : IO.FS.Stream)
    (mailbox : IO.Ref (List ConsoleKey)) : Stage Console :=
  { view := Console.frontend
    before := fun console => do
      let keys ← mailbox.modifyGet fun keys => (keys, [])
      return console.press keys
    after := updateScreen output }

def autoStage : Stage Auto :=
  { view := Auto.frontend
    before := pure
    after := fun _ auto => pure auto }

/-! ### Sessions -/

def print (printed : Printed) : IO UInt32 := do
  for line in printed.output do
    IO.println line
  for line in printed.errors do
    IO.eprintln line
  return printed.exit.code.toUInt32

def freshSession {φ : Type} (config : Config) (listen : SocketAddress)
    (frontend : φ) : Session φ :=
  { Run.start config (Wire.start config.transport) frontend with
    log := Engine.startLog config listen }

def runHeadless (arguments : Arguments) (interval : Nat) (running : Running)
    (attachment : Attachment) (listen : SocketAddress) : IO UInt32 := do
  let config := arguments.config
  IO.println (listeningLine config.transport listen)
  let auto := Auto.start (interval * nanosPerMillisecond) arguments.samples
  let (reason, session) ←
    frames autoStage running attachment (freshSession config listen auto)
  print (.ofEnd reason session)

def runConsole (arguments : Arguments) (running : Running)
    (attachment : Attachment) (listen : SocketAddress) : IO UInt32 := do
  let input ← IO.getStdin
  let output ← IO.getStdout
  if !(← input.isTty) then
    return ← print (.refusal (terminalComplaint (.ofOs 6)))
  command output Terminal.openingCommands
  let mailbox ← IO.mkRef ([] : List ConsoleKey)
  discard <| IO.asTask (readKeys input (.start false) mailbox) .dedicated
  let console := Console.start listen
  let (reason, session) ←
    frames (consoleStage output mailbox) running attachment
      (freshSession arguments.config listen console)
  command output Terminal.closingCommands
  print (.ofEnd reason session)

def interruptSignal : Int32 := 2

def launch (arguments : Arguments) : IO UInt32 := do
  let sink ←
    match ← openSink arguments with
    | .error error => return ← print (.refusal (complaint error.message))
    | .ok sink => pure sink
  match ← Attachment.openListener arguments.config with
  | .error error => print (.refusal (complaint error.message))
  | .ok (attachment, listen) =>
      let signal ← Signal.mk interruptSignal false
      let running : Running :=
        { begun := ← IO.monoNanosNow
          sink := sink
          interrupt := ← signal.next }
      match arguments.auto with
      | some interval =>
          runHeadless arguments interval running attachment listen
      | none => runConsole arguments running attachment listen

end LatencyBench.Launcher

def main (words : List String) : IO UInt32 := do
  match LatencyBench.Launcher.Arguments.read words with
  | .ok arguments => LatencyBench.Launcher.launch arguments
  | .error instead => LatencyBench.Launcher.print instead.print
