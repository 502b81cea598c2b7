/-
Reading the command line.

Words are taken from left to right.  The value of a flag follows it, either
after an equals sign or as the next word, unless that is a flag itself.  A
value is read when the next flag or the end of the line is reached, so of two
faults the one further left is reported, except that a word that cannot be
anything is reported at once.  Two hyphens on their own end the flags, and
there is nothing else to be given.
-/

import LatencyBench.Config
import LatencyBench.Decimal.Whole
import LatencyBench.Launcher.UsageError

namespace LatencyBench.Launcher

open Decimal Net

structure Arguments where
  transport : Transport := .webSocket
  bind : IpAddress := .unspecified
  port : Option UInt16 := none
  fps : UInt32 := 60
  backgroundIo : Bool := false
  auto : Option Nat := none
  samples : Option Nat := none
  logLevel : Level := .standard
  logFile : Option String := none
deriving DecidableEq, Repr

/-- What is done in place of a session: a line is refused, or the help or the
version is shown. -/
inductive Instead where
  | refuse (error : UsageError)
  | showHelp (full : Bool)
  | showVersion
deriving DecidableEq, Repr

namespace Arguments

def config (arguments : Arguments) : Config :=
  let kind := arguments.transport
  let execution : Execution :=
    if arguments.backgroundIo then .background else .cooperative
  ((((Config.forTransport kind).withBindAddress arguments.bind).withPort
    (arguments.port.getD kind.defaultPort)).withTargetFps
      arguments.fps).withExecution execution

def isHeadless (arguments : Arguments) : Bool := arguments.auto.isSome

end Arguments

/-! ### Values -/

def outsideRange (value : Int) (greatest : Nat) : String :=
  toString value ++ " is not in 0..=" ++ toString greatest

def numberUpTo (greatest : Nat) (text : String) : Except String Nat :=
  match readSigned64 text with
  | .error error => .error error.message
  | .ok value =>
      if 0 ≤ value ∧ value ≤ greatest then .ok value.toNat
      else .error (outsideRange value greatest)

def count (text : String) : Except String Nat :=
  (readUnsigned64 text).mapError WholeError.message

def address (text : String) : Except String IpAddress :=
  match IpAddress.parse? text with
  | some found => .ok found
  | none => .error "invalid IP address syntax"

def asUsageError {α : Type} (flag : Flag) (value : String) :
    Except String α → Except UsageError α :=
  Except.mapError (.unreadable flag value)

def chosen {α : Type} (flag : Flag) (value : String) :
    Option α → Except UsageError α
  | some found => .ok found
  | none =>
      .error
        (if value.isEmpty then .missingValue flag
         else .unknownChoice flag value)

def Arguments.assign (arguments : Arguments) (flag : Flag) (value : String) :
    Except UsageError Arguments :=
  match flag with
  | .transport =>
      (chosen flag value (transportOfName? value)).map fun transport =>
        { arguments with transport := transport }
  | .bind =>
      (asUsageError flag value (address value)).map fun address =>
        { arguments with bind := address }
  | .port =>
      (asUsageError flag value (numberUpTo 65535 value)).map fun port =>
        { arguments with port := some port.toUInt16 }
  | .fps =>
      (asUsageError flag value (numberUpTo 4294967295 value)).map fun fps =>
        { arguments with fps := fps.toUInt32 }
  | .auto =>
      (asUsageError flag value (count value)).map fun interval =>
        { arguments with auto := some interval }
  | .samples =>
      (asUsageError flag value (count value)).map fun samples =>
        { arguments with samples := some samples }
  | .logLevel =>
      (chosen flag value (Level.ofName? false value)).map fun level =>
        { arguments with logLevel := level }
  | .logFile =>
      if value.isEmpty then .error (.missingValue flag)
      else .ok { arguments with logFile := some value }
  | .backgroundIo => .ok { arguments with backgroundIo := true }
  | .help => .ok arguments
  | .version => .ok arguments

/-! ### Words -/

/-- A command line that has been read in part.  `pending` is a flag that takes
a value, with the value if it has been met. -/
structure Draft where
  arguments : Arguments
  given : List Flag
  pending : Option (Flag × Option String)
  flagsEnded : Bool
deriving Repr

namespace Draft

def empty : Draft :=
  { arguments := { }
    given := []
    pending := none
    flagsEnded := false }

def refuse {α : Type} (error : UsageError) : Except Instead α :=
  .error (.refuse error)

/-- A flag is given with a value; it must not have been given before. -/
def give (draft : Draft) (flag : Flag) (value : String) :
    Except Instead Draft :=
  if draft.given.contains flag then refuse (.repeated flag)
  else
    match draft.arguments.assign flag value with
    | .error error => refuse error
    | .ok arguments =>
        .ok
          { draft with
            arguments := arguments
            given := draft.given ++ [flag]
            pending := none }

def settle (draft : Draft) : Except Instead Draft :=
  match draft.pending with
  | none => .ok draft
  | some (flag, none) => refuse (.missingValue flag)
  | some (flag, some value) => draft.give flag value

def plainFlag (draft : Draft) (flag : Flag) (full : Bool) :
    Except Instead Draft :=
  match draft.settle with
  | .error instead => .error instead
  | .ok settled =>
      match flag with
      | .help => .error (.showHelp full)
      | .version => .error .showVersion
      | .backgroundIo => settled.give .backgroundIo ""
      | _ => .ok { settled with pending := some (flag, none) }

def flagWithValue (draft : Draft) (flag : Flag) (value : String) :
    Except Instead Draft :=
  match flag.valueName? with
  | none => refuse (.unexpectedValue flag value)
  | some _ =>
      match draft.settle with
      | .error instead => .error instead
      | .ok settled => settled.give flag value

def longWord (draft : Draft) (word : List Char) : Except Instead Draft :=
  let name := String.ofList (word.takeWhile fun character => character != '=')
  match Flag.ofName? name, word.dropWhile fun character => character != '=' with
  | none, _ => refuse (.unexpected ("--" ++ name))
  | some flag, [] => draft.plainFlag flag true
  | some flag, _ :: value => draft.flagWithValue flag (String.ofList value)

def letters (draft : Draft) : List Char → Except Instead Draft
  | [] => .ok draft
  | letter :: rest =>
      match Flag.ofLetter? letter with
      | none => refuse (.unexpected ("-" ++ String.ofList [letter]))
      | some flag =>
          match draft.plainFlag flag false with
          | .error instead => .error instead
          | .ok next => next.letters rest

def plainWord (draft : Draft) (word : String) : Except Instead Draft :=
  match draft.pending with
  | some (flag, none) => .ok { draft with pending := some (flag, some word) }
  | _ => refuse (.unexpected word)

def take (draft : Draft) (word : String) : Except Instead Draft :=
  if draft.flagsEnded then refuse (.unexpected word)
  else
    match word.toList with
    | ['-', '-'] => .ok { draft with flagsEnded := true }
    | '-' :: '-' :: long => draft.longWord long
    | '-' :: letter :: rest => draft.letters (letter :: rest)
    | _ => draft.plainWord word

def takeAll (draft : Draft) : List String → Except Instead Draft
  | [] => .ok draft
  | word :: rest =>
      match draft.take word with
      | .error instead => .error instead
      | .ok next => next.takeAll rest

/-- The end of the line.  A number of samples needs an interval. -/
def finish (draft : Draft) : Except Instead Arguments :=
  match draft.settle with
  | .error instead => .error instead
  | .ok settled =>
      if settled.given.contains .samples && !settled.given.contains .auto then
        refuse (.lacking .auto .samples)
      else .ok settled.arguments

end Draft

def Arguments.read (words : List String) : Except Instead Arguments :=
  match Draft.empty.takeAll words with
  | .error instead => .error instead
  | .ok draft => draft.finish

end LatencyBench.Launcher
