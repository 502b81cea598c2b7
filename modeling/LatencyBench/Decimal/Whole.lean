/-
Reading whole numbers within bounds.

A text is a sign, if the bounds leave room for numbers below zero or the sign
is a plus, and then digits.  It is read from the left, and the first thing
that is wrong with it is the one that is reported.
-/

namespace LatencyBench.Decimal

inductive WholeError where
  | empty
  | invalidDigit
  | tooLarge
  | tooSmall
deriving DecidableEq, Repr

def WholeError.message : WholeError → String
  | .empty => "cannot parse integer from empty string"
  | .invalidDigit => "invalid digit found in string"
  | .tooLarge => "number too large to fit in target type"
  | .tooSmall => "number too small to fit in target type"

def digit? (character : Char) : Option Nat :=
  if character.isDigit then some (character.toNat - '0'.toNat) else none

/-- Reads digits after a number read so far, up to the greatest magnitude. -/
def readMagnitude (greatest : Nat) (beyond : WholeError) (value : Nat) :
    List Char → Except WholeError Nat
  | [] => .ok value
  | character :: rest =>
      match digit? character with
      | none => .error .invalidDigit
      | some digit =>
          let next := value * 10 + digit
          if greatest < next then .error beyond
          else readMagnitude greatest beyond next rest

def readUnsigned (greatest : Nat) (beyond : WholeError)
    (digits : List Char) : Except WholeError Nat :=
  if digits.isEmpty then .error .invalidDigit
  else readMagnitude greatest beyond 0 digits

/-- Reads a whole number of at most the given magnitudes above and below
zero. -/
def readWhole (greatestBelow greatest : Nat) (text : String) :
    Except WholeError Int :=
  match text.toList with
  | [] => .error .empty
  | '+' :: digits =>
      (readUnsigned greatest .tooLarge digits).map Int.ofNat
  | '-' :: digits =>
      if greatestBelow = 0 then .error .invalidDigit
      else
        (readUnsigned greatestBelow .tooSmall digits).map fun value =>
          -Int.ofNat value
  | digits => (readUnsigned greatest .tooLarge digits).map Int.ofNat

def readSigned64 : String → Except WholeError Int :=
  readWhole 9223372036854775808 9223372036854775807

def readUnsigned64 (text : String) : Except WholeError Nat :=
  (readWhole 0 18446744073709551615 text).map Int.toNat

end LatencyBench.Decimal
