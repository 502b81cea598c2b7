/-
What can be wrong with a command line, and the texts that report it.
-/

import LatencyBench.Launcher.Flag
import LatencyBench.Panel
import LatencyBench.Text.Plain

namespace LatencyBench.Launcher

inductive UsageError where
  | unexpected (argument : String)
  | unexpectedValue (flag : Flag) (value : String)
  | missingValue (flag : Flag)
  | unknownChoice (flag : Flag) (value : String)
  | unreadable (flag : Flag) (value cause : String)
  | repeated (flag : Flag)
  | lacking (needed given : Flag)
deriving DecidableEq, Repr

def usageLine (flags : String) : String :=
  "Usage: " ++ Panel.title ++ " " ++ flags

def generalUsage : String := usageLine "[OPTIONS]"

def Flag.choiceList (flag : Flag) : String :=
  "[possible values: " ++
    ", ".intercalate (flag.choices.map Choice.name) ++ "]"

namespace UsageError

def marked (words : String) : String :=
  "'" ++ Plain.ofText words ++ "'"

def headline : UsageError → String
  | .unexpected argument => "unexpected argument " ++ marked argument ++ " found"
  | .unexpectedValue flag value =>
      "unexpected value " ++ marked value ++ " for '" ++ flag.usage ++
        "' found; no more were expected"
  | .missingValue flag =>
      "a value is required for '" ++ flag.usage ++ "' but none was supplied"
  | .unknownChoice flag value =>
      "invalid value " ++ marked value ++ " for '" ++ flag.usage ++ "'"
  | .unreadable flag value cause =>
      "invalid value " ++ marked value ++ " for '" ++ flag.usage ++ "': " ++
        cause
  | .repeated flag =>
      "the argument '" ++ flag.usage ++ "' cannot be used multiple times"
  | .lacking _ _ => "the following required arguments were not provided:"

def details : UsageError → List String
  | .missingValue flag =>
      if flag.choices.isEmpty then [] else ["  " ++ flag.choiceList]
  | .unknownChoice flag _ => ["  " ++ flag.choiceList]
  | .lacking needed _ => ["  " ++ needed.usage]
  | _ => []

def advice? : UsageError → Option String
  | .unexpected _ => some generalUsage
  | .unexpectedValue flag _ => some (usageLine flag.usage)
  | .repeated _ => some generalUsage
  | .lacking needed given =>
      some (usageLine (needed.usage ++ " " ++ given.usage))
  | _ => none

/-- The report of an error, line by line; words of the command line may break
lines. -/
def report (error : UsageError) : List String :=
  let advice :=
    match error.advice? with
    | none => []
    | some line => ["", line]
  ("error: " ++ error.headline).splitOn "\n" ++ error.details ++ advice ++
    ["", "For more information, try '--help'."]

end UsageError

end LatencyBench.Launcher
