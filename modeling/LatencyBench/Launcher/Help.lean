/-
The help that the launcher shows, in a short and a full form.

The short form has one line per flag, with the explanations in a column.  The
full form has a paragraph per flag, and says what each admitted value stands
for.
-/

import LatencyBench.Launcher.UsageError

namespace LatencyBench.Launcher

def programPurpose : String :=
  "Round-trip command latency bench for a single embedded peer over " ++
    "WebSocket or raw TCP"

def blanks (number : Nat) : String :=
  String.ofList (List.replicate number ' ')

def filled (width : Nat) (text : String) : String :=
  text ++ blanks (width - text.length)

namespace Flag

def standardNote? (flag : Flag) : Option String :=
  flag.standardValue?.map fun value => "[default: " ++ value ++ "]"

def column (flag : Flag) : String :=
  match flag.letter? with
  | none => "      " ++ flag.usage
  | some letter => "  -" ++ String.ofList [letter] ++ ", " ++ flag.usage

def columnWidth : Nat :=
  (all.map fun flag => flag.column.length).foldl max 0

/-- What the help flag says in each form about the other. -/
def seeAlso (full : Bool) : Flag → String
  | .help =>
      if full then " (see a summary with '-h')"
      else " (see more with '--help')"
  | _ => ""

def shortLine (flag : Flag) : String :=
  let notes :=
    flag.standardNote?.toList ++
      (if flag.choices.isEmpty then [] else [flag.choiceList])
  filled columnWidth flag.column ++ "  " ++
    " ".intercalate ((flag.purpose ++ flag.seeAlso false) :: notes)

def margin : String := blanks 10

def choiceWidth (flag : Flag) : Nat :=
  (flag.choices.map fun choice => choice.name.length + 1).foldl max 0

def choiceLines (flag : Flag) : List String :=
  if flag.choices.isEmpty then []
  else
    ["", margin ++ "Possible values:"] ++
      flag.choices.map fun choice =>
        margin ++ "- " ++ filled flag.choiceWidth (choice.name ++ ":") ++
          " " ++ choice.meaning

def standardLines (flag : Flag) : List String :=
  match flag.standardNote? with
  | none => []
  | some note => [margin, margin ++ note]

def paragraph (flag : Flag) : List String :=
  [flag.column, margin ++ flag.purpose ++ flag.seeAlso true] ++
    flag.choiceLines ++ flag.standardLines

end Flag

def helpHead : List String :=
  [programPurpose, "", generalUsage, "", "Options:"]

def helpLines (full : Bool) : List String :=
  if full then
    helpHead ++
      [""].intercalate (Flag.all.map Flag.paragraph)
  else helpHead ++ Flag.all.map Flag.shortLine

end LatencyBench.Launcher
