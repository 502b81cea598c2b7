/-
Levels of verbosity, from errors alone to every event.
-/

namespace LatencyBench

inductive Level where
  | error
  | warn
  | info
  | debug
  | trace
deriving DecidableEq, Repr

namespace Level

def all : List Level := [.error, .warn, .info, .debug, .trace]

def standard : Level := .warn

def name : Level → String
  | .error => "error"
  | .warn => "warn"
  | .info => "info"
  | .debug => "debug"
  | .trace => "trace"

def label : Level → String
  | .error => "ERROR"
  | .warn => "WARN"
  | .info => "INFO"
  | .debug => "DEBUG"
  | .trace => "TRACE"

def verbosity : Level → Nat
  | .error => 0
  | .warn => 1
  | .info => 2
  | .debug => 3
  | .trace => 4

def compareTo (level other : Level) : Ordering :=
  compare level.verbosity other.verbosity

def smallLetters (text : String) : String :=
  text.map Char.toLower

/-- The level of a name; capitals count as small letters only on request. -/
def ofName? (ignoreCase : Bool) (text : String) : Option Level :=
  let wanted := if ignoreCase then smallLetters text else text
  all.find? fun level => level.name == wanted

def unknownName (text : String) : String :=
  "invalid variant: " ++ text

end Level

end LatencyBench
