/-
The shortest decimal text that reads back as the same double.

A double stands for every real number that rounds to it.  Those numbers form
an interval, which holds its own ends just when the fraction of the double is
even.  Of the decimal grids, powers of ten apart, the coarsest that meets the
interval gives the fewest digits, and of its points in the interval the
nearest is taken, an exact tie going to the even one.
-/

import LatencyBench.Decimal.Fixed

namespace LatencyBench.Decimal

/-- The numbers that round to one double.  All three are counted in quarters
of the smallest positive double. -/
structure Rounding where
  low : Nat
  centre : Nat
  high : Nat
  closed : Bool
deriving DecidableEq, Repr

/-- The numbers that round to a positive double with given exponent and
fraction bits.  Below a power of two the doubles lie twice as close. -/
def Rounding.ofParts (field fraction : Nat) : Rounding :=
  let gap := twoTo (field - 1)
  let units := if field = 0 then fraction else (twoTo 52 + fraction) * gap
  let below := if fraction = 0 ∧ 1 < field then gap else 2 * gap
  { low := 4 * units - below
    centre := 4 * units
    high := 4 * units + 2 * gap
    closed := fraction % 2 == 0 }

def quartersPerOne : Nat := 4 * unitsPerOne

/-- A grid of decimal numbers: the multiples of `step / parts` quarters. -/
structure Grid where
  step : Nat
  parts : Nat

def Grid.ofExponent (exponent : Int) : Grid :=
  { step := quartersPerOne * tenTo exponent.toNat
    parts := tenTo (-exponent).toNat }

namespace Rounding

def holds (rounding : Rounding) (grid : Grid) (multiple : Nat) : Bool :=
  let point := multiple * grid.step
  let low := rounding.low * grid.parts
  let high := rounding.high * grid.parts
  if rounding.closed then low ≤ point && point ≤ high
  else low < point && point < high

/-- The multiple of a grid's step that is nearest to the double, of the two
around it, if it rounds to the double. -/
def nearest? (rounding : Rounding) (grid : Grid) : Option Nat :=
  let centre := rounding.centre * grid.parts
  let below := centre / grid.step
  let rest := centre % grid.step
  let above := below + 1
  let preferAbove :=
    grid.step < 2 * rest || (2 * rest == grid.step && below % 2 == 1)
  let first := if preferAbove then above else below
  let second := if preferAbove then below else above
  if first ≠ 0 ∧ rounding.holds grid first then some first
  else if second ≠ 0 ∧ rounding.holds grid second then some second
  else none

/-- The coarsest grid that meets the numbers around a double, among those from
an exponent downwards, and the point on it. -/
def coarsest (rounding : Rounding) (exponent : Int) : Nat → Nat × Int
  | 0 => (0, exponent)
  | grids + 1 =>
      match rounding.nearest? (.ofExponent exponent) with
      | some multiple => (multiple, exponent)
      | none => rounding.coarsest (exponent - 1) grids

end Rounding

/-- The exponent of the coarsest grid that a double can lie on, and how many
grids there are down to the finest. -/
def coarsestExponent : Int := 309
def gridCount : Nat := 640

/-- Digits with the point after the first `whole` of them; zeros fill the
places that no digit stands for. -/
def pointedAfter (whole : Int) (digits : List Char) : List Char :=
  if whole ≤ 0 then
    ['0', '.'] ++ List.replicate (-whole).toNat '0' ++ digits
  else
    let count := whole.toNat
    let front := digits.take count
    let back := digits.drop count
    front ++ List.replicate (count - front.length) '0' ++
      '.' :: (if back.isEmpty then ['0'] else back)

def withExponent (exponent : Int) (digits : List Char) : List Char :=
  let back := digits.drop 1
  digits.take 1 ++ (if back.isEmpty then [] else '.' :: back) ++
    'e' :: (toString exponent).toList

/-- The text of a magnitude: positional from a ten-thousandth up to ten to the
sixteenth, and with an exponent outside. -/
def magnitudeText (multiple : Nat) (exponent : Int) : List Char :=
  let digits := Nat.toDigits 10 multiple
  let whole := digits.length + exponent
  if -4 < whole ∧ whole ≤ 16 then pointedAfter whole digits
  else withExponent (whole - 1) digits

def shortest (x : Float) : String :=
  match Reading.ofFloat x with
  | .nan => "NaN"
  | .infinite negative => String.ofList (sign negative ++ ['i', 'n', 'f'])
  | .finite negative 0 => String.ofList (sign negative ++ ['0', '.', '0'])
  | .finite negative _ =>
      let bits := x.toBits.toNat
      let rounding :=
        Rounding.ofParts (bits / twoTo 52 % twoTo 11) (bits % twoTo 52)
      let (multiple, exponent) :=
        rounding.coarsest coarsestExponent gridCount
      String.ofList (sign negative ++ magnitudeText multiple exponent)

end LatencyBench.Decimal
