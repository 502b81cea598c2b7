/-
The head of an HTTP message, read one byte at a time: the line it starts with
and the header fields, up to the empty line that ends it.

A reader either needs more bytes, or has found the head, or refuses it at the
first byte that cannot belong to one.  Lines may end with a line feed alone,
and empty lines before the head are skipped.
-/

import LatencyBench.Text.Utf8

namespace LatencyBench.Http

inductive HeadError where
  | newLine
  | token
  | version
  | status
  | fieldName
  | fieldValue
  | tooManyFields
deriving DecidableEq, Repr

def HeadError.message : HeadError → String
  | .newLine => "invalid new line"
  | .token => "invalid token"
  | .version => "invalid HTTP version"
  | .status => "invalid response status"
  | .fieldName => "invalid header name"
  | .fieldValue => "invalid header value"
  | .tooManyFields => "too many headers"

structure Field where
  name : List UInt8
  value : List UInt8
deriving DecidableEq, Repr

/-- What one more byte leads to in a reader with states `σ` that looks for an
`α`. -/
inductive Reading (σ α : Type) where
  | going (state : σ)
  | found (value : α)
  | refused (error : HeadError)
deriving DecidableEq, Repr

/-! ### Bytes -/

def space : UInt8 := 0x20
def tab : UInt8 := 0x09
def lineFeed : UInt8 := 0x0A
def carriageReturn : UInt8 := 0x0D
def colon : UInt8 := 0x3A

def isDigit (byte : UInt8) : Bool := 0x30 ≤ byte && byte ≤ 0x39

def isLetter (byte : UInt8) : Bool :=
  (0x41 ≤ byte && byte ≤ 0x5A) || (0x61 ≤ byte && byte ≤ 0x7A)

def tokenMarks : List UInt8 := Utf8.encode "!#$%&'*+-.^_`|~"

def isToken (byte : UInt8) : Bool :=
  isDigit byte || isLetter byte || tokenMarks.contains byte

def isTarget (byte : UInt8) : Bool :=
  0x20 < byte && byte != 0x7F

def isValue (byte : UInt8) : Bool :=
  byte = tab || (0x20 ≤ byte && byte != 0x7F)

def isBlank (byte : UInt8) : Bool := byte = space || byte = tab

def smallByte (byte : UInt8) : UInt8 :=
  if 0x41 ≤ byte && byte ≤ 0x5A then byte + 0x20 else byte

/-- Whether two texts are the same but for Latin capitals. -/
def sameLetters (left right : List UInt8) : Bool :=
  left.map smallByte == right.map smallByte

def trimmedEnd (value : List UInt8) : List UInt8 :=
  (value.reverse.dropWhile isBlank).reverse

/-! ### Header fields -/

/-- The most fields that a head may have. -/
def maxFields : Nat := 124

inductive FieldPlace where
  | lineStart
  | lastReturn
  | inName (seen : List UInt8)
  | beforeValue (name : List UInt8)
  | inValue (name seen : List UInt8)
  | valueReturn (name seen : List UInt8)
deriving DecidableEq, Repr

structure FieldReader where
  fields : List Field
  place : FieldPlace
deriving DecidableEq, Repr

namespace FieldReader

def start : FieldReader :=
  { fields := []
    place := .lineStart }

def moveTo (reader : FieldReader) (place : FieldPlace) :
    Reading FieldReader (List Field) :=
  .going { reader with place := place }

def keep (reader : FieldReader) (name value : List UInt8) :
    Reading FieldReader (List Field) :=
  .going
    { fields :=
        reader.fields ++
          [{ name := name
             value := trimmedEnd value }]
      place := .lineStart }

def stepLineStart (reader : FieldReader) (byte : UInt8) :
    Reading FieldReader (List Field) :=
  if byte = carriageReturn then reader.moveTo .lastReturn
  else if byte = lineFeed then .found reader.fields
  else if maxFields ≤ reader.fields.length then .refused .tooManyFields
  else if isToken byte then reader.moveTo (.inName [byte])
  else .refused .fieldName

def stepValue (reader : FieldReader) (name seen : List UInt8)
    (byte : UInt8) : Reading FieldReader (List Field) :=
  if byte = carriageReturn then reader.moveTo (.valueReturn name seen)
  else if byte = lineFeed then reader.keep name seen
  else if isValue byte then reader.moveTo (.inValue name (seen ++ [byte]))
  else .refused .fieldValue

def step (reader : FieldReader) (byte : UInt8) :
    Reading FieldReader (List Field) :=
  match reader.place with
  | .lineStart => reader.stepLineStart byte
  | .lastReturn =>
      if byte = lineFeed then .found reader.fields else .refused .newLine
  | .inName seen =>
      if byte = colon then reader.moveTo (.beforeValue seen)
      else if isToken byte then reader.moveTo (.inName (seen ++ [byte]))
      else .refused .fieldName
  | .beforeValue name =>
      if isBlank byte then reader.moveTo (.beforeValue name)
      else reader.stepValue name [] byte
  | .inValue name seen => reader.stepValue name seen byte
  | .valueReturn name seen =>
      if byte = lineFeed then reader.keep name seen
      else .refused .fieldValue

end FieldReader

def fieldValue? (fields : List Field) (name : String) :
    Option (List UInt8) :=
  (fields.find? fun field => sameLetters field.name (Utf8.encode name)).map
    Field.value

def visible? (value : List UInt8) : Option (List UInt8) :=
  if value.all fun byte => byte = tab || (0x20 ≤ byte && byte < 0x7F) then
    some value
  else none

/-! ### Requests -/

/-- The head of a request.  `minorVersion` is what stands behind `HTTP/1.` in
its first line. -/
structure RequestHead where
  method : List UInt8
  target : List UInt8
  minorVersion : Nat
  fields : List Field
deriving DecidableEq, Repr

def versionStem : List UInt8 := Utf8.encode "HTTP/1."

/-- What a reader of a version makes of one more byte: the minor version, or
the bytes seen so far. -/
def versionStep (seen : List UInt8) (byte : UInt8) :
    Reading (List UInt8) Nat :=
  if seen.length < versionStem.length then
    if versionStem[seen.length]? = some byte then .going (seen ++ [byte])
    else .refused .version
  else if byte = 0x30 then .found 0
  else if byte = 0x31 then .found 1
  else .refused .version

inductive RequestReader where
  | beforeLine
  | beforeLineReturn
  | inMethod (seen : List UInt8)
  | inTarget (method seen : List UInt8)
  | inVersion (method target seen : List UInt8)
  | afterVersion (method target : List UInt8) (minorVersion : Nat)
  | lineReturn (method target : List UInt8) (minorVersion : Nat)
  | inFields (method target : List UInt8) (minorVersion : Nat)
      (reader : FieldReader)
deriving DecidableEq, Repr

namespace RequestReader

def step : RequestReader → UInt8 → Reading RequestReader RequestHead
  | .beforeLine, byte =>
      if byte = carriageReturn then .going .beforeLineReturn
      else if byte = lineFeed then .going .beforeLine
      else if isToken byte then .going (.inMethod [byte])
      else .refused .token
  | .beforeLineReturn, byte =>
      if byte = lineFeed then .going .beforeLine else .refused .newLine
  | .inMethod seen, byte =>
      if byte = space then .going (.inTarget seen [])
      else if isToken byte then .going (.inMethod (seen ++ [byte]))
      else .refused .token
  | .inTarget method seen, byte =>
      if byte = space && !seen.isEmpty then .going (.inVersion method seen [])
      else if isTarget byte then .going (.inTarget method (seen ++ [byte]))
      else .refused .token
  | .inVersion method target seen, byte =>
      match versionStep seen byte with
      | .going seen => .going (.inVersion method target seen)
      | .found minor => .going (.afterVersion method target minor)
      | .refused error => .refused error
  | .afterVersion method target minor, byte =>
      if byte = carriageReturn then .going (.lineReturn method target minor)
      else if byte = lineFeed then
        .going (.inFields method target minor .start)
      else .refused .newLine
  | .lineReturn method target minor, byte =>
      if byte = lineFeed then .going (.inFields method target minor .start)
      else .refused .newLine
  | .inFields method target minor reader, byte =>
      match reader.step byte with
      | .going reader => .going (.inFields method target minor reader)
      | .found fields =>
          .found
            { method := method
              target := target
              minorVersion := minor
              fields := fields }
      | .refused error => .refused error

end RequestReader

/-! ### Responses -/

structure ResponseHead where
  minorVersion : Nat
  status : Nat
  fields : List Field
deriving DecidableEq, Repr

inductive ResponseReader where
  | beforeLine
  | beforeLineReturn
  | inVersion (seen : List UInt8)
  | afterVersion (minorVersion : Nat)
  | inStatus (minorVersion : Nat) (digits : List UInt8)
  | afterStatus (minorVersion status : Nat)
  | inReason (minorVersion status : Nat)
  | lineReturn (minorVersion status : Nat)
  | inFields (minorVersion status : Nat) (reader : FieldReader)
deriving DecidableEq, Repr

def numberOfDigits (digits : List UInt8) : Nat :=
  digits.foldl (fun number digit => number * 10 + (digit.toNat - 48)) 0

namespace ResponseReader

def stepLineEnd (minor status : Nat) (byte : UInt8)
    (otherwise : Reading ResponseReader ResponseHead) :
    Reading ResponseReader ResponseHead :=
  if byte = carriageReturn then .going (.lineReturn minor status)
  else if byte = lineFeed then .going (.inFields minor status .start)
  else otherwise

def step : ResponseReader → UInt8 → Reading ResponseReader ResponseHead
  | .beforeLine, byte =>
      if byte = carriageReturn then .going .beforeLineReturn
      else if byte = lineFeed then .going .beforeLine
      else
        match versionStep [] byte with
        | .going seen => .going (.inVersion seen)
        | .found minor => .going (.afterVersion minor)
        | .refused error => .refused error
  | .beforeLineReturn, byte =>
      if byte = lineFeed then .going .beforeLine else .refused .newLine
  | .inVersion seen, byte =>
      match versionStep seen byte with
      | .going seen => .going (.inVersion seen)
      | .found minor => .going (.afterVersion minor)
      | .refused error => .refused error
  | .afterVersion minor, byte =>
      if byte = space then .going (.inStatus minor []) else .refused .version
  | .inStatus minor digits, byte =>
      if isDigit byte then
        let digits := digits ++ [byte]
        if digits.length < 3 then .going (.inStatus minor digits)
        else .going (.afterStatus minor (numberOfDigits digits))
      else .refused .status
  | .afterStatus minor status, byte =>
      stepLineEnd minor status byte
        (if byte = space then .going (.inReason minor status)
         else .refused .status)
  | .inReason minor status, byte =>
      stepLineEnd minor status byte
        (if isValue byte then .going (.inReason minor status)
         else .refused .status)
  | .lineReturn minor status, byte =>
      if byte = lineFeed then .going (.inFields minor status .start)
      else .refused .status
  | .inFields minor status reader, byte =>
      match reader.step byte with
      | .going reader => .going (.inFields minor status reader)
      | .found fields =>
          .found
            { minorVersion := minor
              status := status
              fields := fields }
      | .refused error => .refused error

end ResponseReader

/-! ### Reading a list of bytes -/

inductive Scanned (σ α : Type) where
  | going (state : σ)
  | found (value : α) (rest : List UInt8)
  | refused (error : HeadError)
deriving DecidableEq, Repr

/-- Reads bytes until a head is found or refused. -/
def scan {σ α : Type} (step : σ → UInt8 → Reading σ α) (state : σ) :
    List UInt8 → Scanned σ α
  | [] => .going state
  | byte :: rest =>
      match step state byte with
      | .going next => scan step next rest
      | .found value => .found value rest
      | .refused error => .refused error

/-- The bytes of a head with the empty line that ends it, and those behind
it; `seen` are the bytes before, in reverse. -/
def splitHeadAfter (seen : List UInt8) :
    List UInt8 → Option (List UInt8 × List UInt8)
  | [] => none
  | byte :: rest =>
      let seen := byte :: seen
      if seen.take 4 == [lineFeed, carriageReturn, lineFeed, carriageReturn]
      then some (seen.reverse, rest)
      else splitHeadAfter seen rest

/-- A whole head and what follows it, if the empty line has been met. -/
def splitHead : List UInt8 → Option (List UInt8 × List UInt8) :=
  splitHeadAfter []

end LatencyBench.Http
