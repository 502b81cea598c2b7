/-
The flags of the command line: their names, the values they take, and the
words that explain them.
-/

import LatencyBench.Log.Level
import LatencyBench.Net.Address
import LatencyBench.Transport

namespace LatencyBench.Launcher

inductive Flag where
  | transport
  | bind
  | port
  | fps
  | backgroundIo
  | auto
  | samples
  | logLevel
  | logFile
  | help
  | version
deriving DecidableEq, Repr

/-- One of the values that a flag admits, and what it stands for. -/
structure Choice where
  name : String
  meaning : String
deriving DecidableEq, Repr

/-! ### Choices -/

def transportChoice : Transport → Choice
  | .webSocket =>
      { name := "websocket"
        meaning := "WebSocket frames (default port 9002)" }
  | .rawTcp =>
      { name := "raw-tcp"
        meaning := "Raw TCP bytes (default port 9003)" }

def transports : List Transport := [.webSocket, .rawTcp]

/-- The transport of a name; raw TCP has a second one. -/
def transportOfName? (name : String) : Option Transport :=
  if name = "custom-tcp" then some .rawTcp
  else
    transports.find? fun transport => (transportChoice transport).name == name

def levelMeaning : Level → String
  | .error => "Errors only"
  | .warn => "Warnings and errors"
  | .info => "Session milestones and samples"
  | .debug => "State machine decisions"
  | .trace => "Every event"

def levelChoice (level : Level) : Choice :=
  { name := level.name
    meaning := levelMeaning level }

namespace Flag

def all : List Flag :=
  [.transport, .bind, .port, .fps, .backgroundIo, .auto, .samples, .logLevel,
   .logFile, .help, .version]

def name : Flag → String
  | .transport => "transport"
  | .bind => "bind"
  | .port => "port"
  | .fps => "fps"
  | .backgroundIo => "background-io"
  | .auto => "auto"
  | .samples => "samples"
  | .logLevel => "log-level"
  | .logFile => "log-file"
  | .help => "help"
  | .version => "version"

def letter? : Flag → Option Char
  | .help => some 'h'
  | .version => some 'V'
  | _ => none

def valueName? : Flag → Option String
  | .transport => some "TRANSPORT"
  | .bind => some "BIND"
  | .port => some "PORT"
  | .fps => some "FPS"
  | .auto => some "MS"
  | .samples => some "SAMPLES"
  | .logLevel => some "LOG_LEVEL"
  | .logFile => some "LOG_FILE"
  | .backgroundIo => none
  | .help => none
  | .version => none

def standardValue? : Flag → Option String
  | .transport => some (transportChoice .webSocket).name
  | .bind => some Net.IpAddress.unspecified.text
  | .fps => some "60"
  | .logLevel => some Level.standard.name
  | _ => none

def choices : Flag → List Choice
  | .transport => transports.map transportChoice
  | .logLevel => Level.all.map levelChoice
  | _ => []

def purpose : Flag → String
  | .transport => "Transport the peer connects with"
  | .bind => "Address to listen on"
  | .port =>
      "Port to listen on (defaults to the transport's well-known port)"
  | .fps => "Frame rate of the UI loop"
  | .backgroundIo =>
      "Run socket I/O on a dedicated thread instead of between frames"
  | .auto =>
      "Headless: press send every MS milliseconds instead of opening the " ++
        "console"
  | .samples => "Headless: stop after this many samples"
  | .logLevel => "Log verbosity"
  | .logFile =>
      "Append logs to this file. The console front-end only logs to a file"
  | .help => "Print help"
  | .version => "Print version"

def usage (flag : Flag) : String :=
  match flag.valueName? with
  | none => "--" ++ flag.name
  | some value => "--" ++ flag.name ++ " <" ++ value ++ ">"

def ofName? (name : String) : Option Flag :=
  all.find? fun flag => flag.name == name

def ofLetter? (letter : Char) : Option Flag :=
  all.find? fun flag => flag.letter? == some letter

end Flag

end LatencyBench.Launcher
