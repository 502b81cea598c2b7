/-
Fixed-point decimal text of binary floating-point numbers.

A double is read as the exact number it denotes: every finite double is a
whole multiple of the smallest positive one, so a natural number of such
units says its magnitude.  The text with a given number of places is then
integer arithmetic: scale, round to the nearest whole number with an exact
half going to the even neighbour, and set the point.  No exponent is ever
written.
-/

namespace LatencyBench.Decimal

/-- What the sixty-four bits of a double say.  A finite double is `units`
times `2 ^ -1074`, with the sign kept apart so that the two zeros differ. -/
inductive Reading where
  | nan
  | infinite (negative : Bool)
  | finite (negative : Bool) (units : Nat)
deriving DecidableEq, Repr

def twoTo (exponent : Nat) : Nat := Nat.pow 2 exponent

def tenTo (exponent : Nat) : Nat := Nat.pow 10 exponent

def unitsPerOne : Nat := twoTo 1074

/-- Reads a sign bit, eleven exponent bits and fifty-two fraction bits.  A
zero exponent field is a subnormal, whose units are the fraction itself; the
largest field is an infinity or not a number. -/
def Reading.ofBits (bits : Nat) : Reading :=
  let negative := bits / twoTo 63 % 2 == 1
  let field := bits / twoTo 52 % twoTo 11
  let fraction := bits % twoTo 52
  if field = 2047 then
    if fraction = 0 then .infinite negative else .nan
  else if field = 0 then
    .finite negative fraction
  else
    .finite negative ((twoTo 52 + fraction) * twoTo (field - 1))

def Reading.ofFloat (x : Float) : Reading :=
  .ofBits x.toBits.toNat

/-- A quotient rounded to the nearest natural number; an exact half goes to
the even neighbour. -/
def roundHalfEven (numerator denominator : Nat) : Nat :=
  let quotient := numerator / denominator
  let remainder := numerator % denominator
  if 2 * remainder < denominator then quotient
  else if denominator < 2 * remainder then quotient + 1
  else if quotient % 2 = 0 then quotient else quotient + 1

def paddedDigits (width value : Nat) : List Char :=
  let digits := Nat.toDigits 10 value
  List.replicate (width - digits.length) '0' ++ digits

/-- The digits of `value / 10 ^ places`, with the point before the last
`places` of them and at least one digit in front of it. -/
def pointed (places value : Nat) : List Char :=
  Nat.toDigits 10 (value / tenTo places) ++
    '.' :: paddedDigits places (value % tenTo places)

def sign (negative : Bool) : List Char :=
  if negative then ['-'] else []

def Reading.fixedChars (places : Nat) : Reading → List Char
  | .nan => ['N', 'a', 'N']
  | .infinite negative => sign negative ++ ['i', 'n', 'f']
  | .finite negative units =>
      sign negative ++
        pointed places (roundHalfEven (units * tenTo places) unitsPerOne)

def fixed (places : Nat) (x : Float) : String :=
  String.ofList ((Reading.ofFloat x).fixedChars places)

def latencyPlaces : Nat := 3

def latency (milliseconds : Float) : String :=
  fixed latencyPlaces milliseconds

end LatencyBench.Decimal
