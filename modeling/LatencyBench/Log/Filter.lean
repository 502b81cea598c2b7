/-
Filters: which records are logged.

A filter is a list of directives between commas.  A directive is a level; or
it names the start of a target, or in brackets a span or a field, and after an
equals sign a level.  Of the directives that apply to a record the closest one
decides; where none applies, nothing is logged.

    directive = level
              | target [bracket] [ending]
              | bracket [ending]
    bracket   = "[" [span] ["{" field ["=" value] "}"] "]"
    ending    = "=" [level]
-/

import LatencyBench.Decimal.Whole
import LatencyBench.Log.Record

namespace LatencyBench

/-- One directive.  An empty target stands for every target.  A directive for
spans alone speaks of the inside of a span, and this program opens none.
Without a level it lets nothing through. -/
structure Directive where
  target : String := ""
  field : Option String := none
  spansAlone : Bool := false
  level : Option Level := some .trace
deriving DecidableEq, Repr

abbrev Filter := List Directive

namespace Directive

/-! ### Reading -/

/-- The level that a number stands for; nought lets nothing through. -/
def levelOfNumber? : Nat → Option (Option Level)
  | 0 => some none
  | 1 => some (some .error)
  | 2 => some (some .warn)
  | 3 => some (some .info)
  | 4 => some (some .debug)
  | 5 => some (some .trace)
  | _ => none

def levelOfWord? (word : String) : Option (Option Level) :=
  match Decimal.readUnsigned64 word with
  | .ok number => levelOfNumber? number
  | .error _ =>
      if Level.smallLetters word = "off" then some none
      else (Level.ofName? true word).map some

/-- Gives a directive the level at its end.  Nothing after the equals sign
stands for the most verbose level, and so does an end without one. -/
def withEnding? (directive : Directive) : List Char → Option Directive
  | ['='] => some directive
  | '=' :: word =>
      (levelOfWord? (String.ofList word)).map fun level =>
        { directive with level := level }
  | blanks => if blanks.all Char.isWhitespace then some directive else none

/-- Reads what follows an opening bracket.  A value is looked for in spans
alone. -/
def readBracket? (target : String) (inside : List Char) :
    Option Directive :=
  let opens (character : Char) : Bool := character == ']' || character == '\x7b'
  let span := inside.takeWhile fun character => !opens character
  match inside.dropWhile fun character => !opens character with
  | ']' :: rest =>
      withEnding?
        { target := target
          spansAlone := true } rest
  | _ :: more =>
      let field := more.takeWhile fun character => character != '\x7d'
      let name := field.takeWhile fun character => character != '='
      match more.dropWhile fun character => character != '\x7d' with
      | _ :: ']' :: rest =>
          if field.isEmpty then none
          else
            withEnding?
              { target := target
                field := some (String.ofList name)
                spansAlone := !span.isEmpty || name.length < field.length }
              rest
      | _ => none
  | [] => none

def opensTarget (character : Char) : Bool :=
  character.isAlphanum || ['-', ':', '_'].contains character

/-- Reads one directive.  A single word is a level if it can be one, and else
a target. -/
def read? (text : String) : Option Directive :=
  let inTarget (character : Char) : Bool := character != '=' && character != '['
  let target := text.toList.takeWhile inTarget
  let word := String.ofList target
  match text.toList.dropWhile inTarget with
  | '[' :: inside =>
      if target.isEmpty || target.head?.any opensTarget then
        readBracket? word inside
      else none
  | rest =>
      if !target.head?.any opensTarget then none
      else
        match rest, levelOfWord? word with
        | [], some level => some { level := level }
        | ending, _ => withEnding? { target := word } ending

/-! ### Applying -/

/-- Whether a directive applies to a record.  The message counts as a field
that every record has. -/
def appliesTo (directive : Directive) (record : LogRecord) : Bool :=
  !directive.spansAlone &&
    record.source.target.startsWith directive.target &&
    directive.field.all fun name =>
      ("message" :: record.fields.map Prod.fst).contains name

def admits (directive : Directive) (level : Level) : Bool :=
  directive.level.any fun most =>
    decide (level.verbosity ≤ most.verbosity)

/-- The closer one of two directives: the one with the longer target; of
equals the one with a field, or with the field whose name comes later; and of
equals the second. -/
def closer (first second : Directive) : Directive :=
  if second.target.length < first.target.length then first
  else if first.target.length < second.target.length then second
  else
    match first.field, second.field with
    | some _, none => first
    | some name, some other => if other < name then first else second
    | none, _ => second

end Directive

namespace Filter

/-- Reads a filter.  What cannot be read is left out, and if nothing is left
errors are logged. -/
def read (text : String) : Filter :=
  match (text.splitOn ",").filterMap Directive.read? with
  | [] => [{ level := some .error }]
  | directives => directives

def deciding? (filter : Filter) (record : LogRecord) : Option Directive :=
  match filter.filter fun directive => directive.appliesTo record with
  | [] => none
  | first :: rest => some (rest.foldl Directive.closer first)

def admits (filter : Filter) (record : LogRecord) : Bool :=
  (filter.deciding? record).any fun directive =>
    directive.admits record.level

end Filter

def filterVariable : String := "TELEOP_LOG_FILTER"

/-- Targets that stay at `info` under a more verbose level. -/
def noisyTargets : List String := ["tokio_tungstenite", "tungstenite", "mio"]

def Level.filterText (level : Level) : String :=
  let caps :=
    if level.verbosity ≤ Level.info.verbosity then []
    else noisyTargets.map fun target => target ++ "=" ++ Level.info.name
  ",".intercalate (level.name :: caps)

/-- The filter that is used: the one that is set, or that of the level. -/
def chosenFilter (level : Level) (set : Option String) : Filter :=
  .read (set.getD level.filterText)

end LatencyBench
