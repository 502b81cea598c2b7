/-
How a log record is written as one line.
-/

import LatencyBench.Decimal.Shortest
import LatencyBench.Log.Record

namespace LatencyBench

/-- The value of a field as it is written; numbers have the fewest digits that
tell them from any other. -/
def FieldValue.written : FieldValue → String
  | .text content => content
  | .number value => Decimal.shortest value

/-- How much is written about where a record comes from. -/
structure LineStyle where
  origin : Bool
deriving DecidableEq, Repr

/-- The origin of records is of interest from the debugging level on. -/
def LineStyle.ofLevel (level : Level) : LineStyle :=
  { origin := decide (Level.debug.verbosity ≤ level.verbosity) }

namespace LogRecord

def levelColumn (level : Level) : String :=
  String.ofList (List.replicate (5 - level.label.length) ' ') ++ level.label

def body (record : LogRecord) : String :=
  " ".intercalate
    (record.message ::
      record.fields.map fun field => field.1 ++ "=" ++ field.2.written)

/-- The thread and the target that a record comes from; all records come from
the thread of the frames. -/
def origin (style : LineStyle) (record : LogRecord) : String :=
  if style.origin then "main " ++ record.source.target ++ ": " else ""

def undated (style : LineStyle) (record : LogRecord) : String :=
  levelColumn record.level ++ " " ++ record.origin style ++ record.body

def line (style : LineStyle) (moment : String) (record : LogRecord) :
    String :=
  moment ++ " " ++ record.undated style

end LogRecord

end LatencyBench
