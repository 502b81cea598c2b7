/-
What doubles stand for.

A finite double is a whole number, with a sign, times a power of two.  Two such
products are compared by their exponents first and their whole numbers only
then, which tells the order of the numbers because a double uses all the places
it has: its whole number starts with its highest place, unless the exponent is
the least one already.  Counted in the smallest positive double, each of them is
a whole number of units, and these units are what the decimal text is made from.
-/

import LatencyBench.Decimal.Fixed
import Mathlib

namespace LatencyBench.Decimal

open Float.Model
open Float.Model.UnpackedFloat (Sign unpackMantissa unpackExponent unpackSign)

def numberOf : UnpackedFloat → ℚ
  | .finite sign mantissa exponent _ => sign.apply mantissa * 2 ^ exponent
  | _ => 0

/-- The exact value of a finite double. -/
def exactValue (x : Float) : ℚ := numberOf x.toModel.unpack

/-! ### The fields of a double -/

section Fields

variable (bits : BitVec 64)

def fractionField : ℕ := bits.toNat % twoTo 52

def exponentField : ℕ := bits.toNat / twoTo 52 % twoTo 11

def signField : Sign :=
  if bits.toNat.testBit 63 then .negative else .positive

theorem fractionField_lt : fractionField bits < 2 ^ 52 :=
  Nat.mod_lt _ (Nat.two_pow_pos 52)

theorem exponentField_lt : exponentField bits < 2048 :=
  Nat.mod_lt _ (Nat.two_pow_pos 11)

theorem toNat_unpackMantissa :
    (@unpackMantissa .binary64 bits).toNat = fractionField bits := by
  rw [UnpackedFloat.unpackMantissa_def, BitVec.extractLsb'_toNat,
    Nat.shiftRight_zero]
  rfl

theorem toNat_unpackExponent :
    (@unpackExponent .binary64 bits).toNat = exponentField bits := by
  rw [UnpackedFloat.unpackExponent_def, BitVec.extractLsb'_toNat,
    Nat.shiftRight_eq_div_pow]
  rfl

theorem toNat_implicitMantissa :
    (1#1 ++ @unpackMantissa .binary64 bits).toNat =
      twoTo 52 + fractionField bits := by
  rw [BitVec.toNat_append, ← toNat_unpackMantissa,
    ← Nat.shiftLeft_add_eq_or_of_lt (BitVec.isLt _)]
  rfl

theorem ofBitVec_unpackSign :
    Sign.ofBitVec (@unpackSign .binary64 bits) = signField bits := by
  have value : (@unpackSign .binary64 bits).toNat =
      bits.toNat / 2 ^ 63 % 2 := by
    rw [UnpackedFloat.unpackSign_def, BitVec.extractLsb'_toNat,
      Nat.shiftRight_eq_div_pow]
    rfl
  rw [signField, Nat.testBit_eq_decide_div_mod_eq, ← value]
  rcases BitVec.eq_zero_or_eq_one (@unpackSign .binary64 bits) with
    clear | set
  · rw [clear]
    rfl
  · rw [set]
    rfl

def unitsOf : ℕ :=
  if exponentField bits = 0 then fractionField bits
  else (twoTo 52 + fractionField bits) * twoTo (exponentField bits - 1)

end Fields

/-- The three ways in which the fields of a finite double are read. -/
inductive Unpacks (bits : BitVec 64) : UnpackedFloat → Prop
  | zero (least : exponentField bits = 0) (none : fractionField bits = 0) :
      Unpacks bits (.zero (signField bits))
  | subnormal {mantissa : ℕ} {exponent : ℤ} {some : 0 < mantissa}
      (least : exponentField bits = 0)
      (mantissa_eq : mantissa = fractionField bits)
      (exponent_eq : exponent = -1074) :
      Unpacks bits (.finite (signField bits) mantissa exponent some)
  | normal {mantissa : ℕ} {exponent : ℤ} {some : 0 < mantissa}
      (above : 0 < exponentField bits) (below : exponentField bits < 2047)
      (mantissa_eq : mantissa = twoTo 52 + fractionField bits)
      (exponent_eq : exponent = exponentField bits - 1075) :
      Unpacks bits (.finite (signField bits) mantissa exponent some)

variable {bits : BitVec 64} {number : UnpackedFloat}

theorem unpack_unpacks
    (finite : (UnpackedFloat.unpack .binary64 bits).isFinite = true) :
    Unpacks bits (UnpackedFloat.unpack .binary64 bits) := by
  have exponent := toNat_unpackExponent bits
  have bounded := exponentField_lt bits
  rw [UnpackedFloat.unpack] at finite ⊢
  simp only [ofBitVec_unpackSign] at finite ⊢
  split
  case isTrue extreme =>
    rw [if_pos extreme] at finite
    split at finite <;> cases finite
  case isFalse notExtreme =>
    have below : exponentField bits ≠ 2047 := by
      rw [← exponent]
      exact fun same => notExtreme (BitVec.eq_of_toNat_eq same)
    split
    case isTrue least =>
      have zero : exponentField bits = 0 := by
        rw [← exponent, least]
        rfl
      split
      case isTrue none =>
        refine .zero zero ?_
        rw [← toNat_unpackMantissa, none]
        rfl
      case isFalse =>
        refine .subnormal zero (toNat_unpackMantissa bits) ?_
        rw [exponent, zero]
        rfl
    case isFalse notLeast =>
      have above : exponentField bits ≠ 0 := by
        rw [← exponent]
        exact fun same => notLeast (BitVec.eq_of_toNat_eq same)
      refine .normal (by omega) (by omega) (toNat_implicitMantissa bits) ?_
      rw [exponent]
      rfl

theorem unpacks_of_isFinite {x : Float} (finite : x.isFinite = true) :
    Unpacks x.toBits.toBitVec x.toModel.unpack :=
  unpack_unpacks finite

/-! ### Order -/

/-- A mantissa that uses its places: the highest one, unless the exponent is
the least. -/
structure Normalized (mantissa : ℕ) (exponent : ℤ) : Prop where
  bounded : mantissa < 2 ^ 53
  least_le : -1074 ≤ exponent
  filled : -1074 < exponent → 2 ^ 52 ≤ mantissa

section Magnitudes

variable {mantissa mantissa' : ℕ} {exponent exponent' : ℤ}

theorem magnitude_pos (exponent : ℤ) (some : 0 < mantissa) :
    (0 : ℚ) < mantissa * 2 ^ exponent := by
  positivity

theorem Normalized.lt_of_exponent_lt (first : Normalized mantissa exponent)
    (second : Normalized mantissa' exponent') (lower : exponent < exponent') :
    (mantissa : ℚ) * 2 ^ exponent < mantissa' * 2 ^ exponent' := by
  have bounded : (mantissa : ℚ) < 2 ^ 53 := by exact_mod_cast first.bounded
  have filled : (2 : ℚ) ^ 52 ≤ mantissa' := by
    exact_mod_cast second.filled (first.least_le.trans_lt lower)
  calc (mantissa : ℚ) * 2 ^ exponent
      < 2 ^ 53 * 2 ^ exponent := by gcongr
    _ = 2 ^ 52 * 2 ^ (exponent + 1) := by
        rw [zpow_add_one₀ two_ne_zero]
        ring
    _ ≤ 2 ^ 52 * 2 ^ exponent' := by
        gcongr
        · norm_num
        · omega
    _ ≤ mantissa' * 2 ^ exponent' := by gcongr

theorem Normalized.compare_eq (first : Normalized mantissa exponent)
    (second : Normalized mantissa' exponent') :
    (compare exponent exponent').then (compare mantissa mantissa') =
      compare ((mantissa : ℚ) * 2 ^ exponent) (mantissa' * 2 ^ exponent') := by
  rcases lt_trichotomy exponent exponent' with lower | rfl | higher
  · rw [compare_lt_iff_lt.mpr lower,
      compare_lt_iff_lt.mpr (first.lt_of_exponent_lt second lower)]
    rfl
  · rw [compare_eq_iff_eq.mpr rfl, Ordering.then]
    rcases lt_trichotomy mantissa mantissa' with less | rfl | more
    · rw [compare_lt_iff_lt.mpr less, eq_comm, compare_lt_iff_lt]
      gcongr
    · rw [compare_eq_iff_eq.mpr rfl, compare_eq_iff_eq.mpr rfl]
    · rw [compare_gt_iff_gt.mpr more, eq_comm, compare_gt_iff_gt]
      gcongr
  · rw [compare_gt_iff_gt.mpr higher,
      compare_gt_iff_gt.mpr (second.lt_of_exponent_lt first higher)]
    rfl

end Magnitudes

/-- A finite double as it is compared, and its number. -/
inductive Counts : UnpackedFloat → ℚ → Prop
  | zero (sign : Sign) : Counts (.zero sign) 0
  | positive {mantissa : ℕ} {exponent : ℤ} (some : 0 < mantissa)
      (normalized : Normalized mantissa exponent) :
      Counts (.finite .positive mantissa exponent some)
        (mantissa * 2 ^ exponent)
  | negative {mantissa : ℕ} {exponent : ℤ} (some : 0 < mantissa)
      (normalized : Normalized mantissa exponent) :
      Counts (.finite .negative mantissa exponent some)
        (-(mantissa * 2 ^ exponent))

theorem Counts.ofNormalized {mantissa : ℕ} {exponent : ℤ} (sign : Sign)
    (some : 0 < mantissa) (normalized : Normalized mantissa exponent) :
    Counts (.finite sign mantissa exponent some)
      (numberOf (.finite sign mantissa exponent some)) := by
  cases sign with
  | positive =>
      rw [numberOf, Sign.apply, Int.cast_natCast]
      exact .positive some normalized
  | negative =>
      rw [numberOf, Sign.apply, Int.cast_neg, Int.cast_natCast, neg_mul]
      exact .negative some normalized

theorem Unpacks.counts (unpacks : Unpacks bits number) :
    Counts number (numberOf number) := by
  have room := fractionField_lt bits
  have implicit : twoTo 52 = 2 ^ 52 := rfl
  cases unpacks with
  | zero => exact .zero _
  | subnormal least mantissa_eq exponent_eq =>
      exact .ofNormalized _ _
        { bounded := by omega
          least_le := by omega
          filled := by omega }
  | normal above below mantissa_eq exponent_eq =>
      exact .ofNormalized _ _
        { bounded := by omega
          least_le := by omega
          filled := by omega }

theorem compare_neg_neg (first second : ℚ) :
    compare (-first) (-second) = (compare first second).swap := by
  rw [← Std.OrientedCmp.eq_swap]
  rcases lt_trichotomy first second with less | rfl | more
  · rw [compare_gt_iff_gt.mpr less, compare_gt_iff_gt]
    exact neg_lt_neg less
  · rw [compare_eq_iff_eq.mpr rfl, compare_eq_iff_eq.mpr rfl]
  · rw [compare_lt_iff_lt.mpr more, compare_lt_iff_lt]
    exact neg_lt_neg more

theorem Counts.compare_eq {first second : UnpackedFloat} {value value' : ℚ}
    (one : Counts first value) (other : Counts second value') :
    first.compare second = some (compare value value') := by
  cases one with
  | zero =>
      cases other with
      | zero => rfl
      | @positive _ exponent some =>
          have above := magnitude_pos exponent some
          exact congrArg _ (compare_lt_iff_lt.mpr above).symm
      | @negative _ exponent some =>
          have below := neg_neg_of_pos (magnitude_pos exponent some)
          exact congrArg _ (compare_gt_iff_gt.mpr below).symm
  | @positive _ exponent some normalized =>
      have above := magnitude_pos exponent some
      cases other with
      | zero => exact congrArg _ (compare_gt_iff_gt.mpr above).symm
      | positive _ normalized' =>
          exact congrArg _ (normalized.compare_eq normalized')
      | @negative _ exponent' some' =>
          have below := neg_neg_of_pos (magnitude_pos exponent' some')
          exact congrArg _ (compare_gt_iff_gt.mpr (below.trans above)).symm
  | @negative _ exponent some normalized =>
      have below := neg_neg_of_pos (magnitude_pos exponent some)
      cases other with
      | zero => exact congrArg _ (compare_lt_iff_lt.mpr below).symm
      | @positive _ exponent' some' =>
          have above := magnitude_pos exponent' some'
          exact congrArg _ (compare_lt_iff_lt.mpr (below.trans above)).symm
      | negative _ normalized' =>
          rw [compare_neg_neg, ← normalized.compare_eq normalized']
          rfl

theorem le_iff_exactValue_le {x y : Float} (first : x.isFinite = true)
    (second : y.isFinite = true) : x ≤ y ↔ exactValue x ≤ exactValue y := by
  have compared : x.toModel.unpack.compare y.toModel.unpack =
      some (compare (exactValue x) (exactValue y)) :=
    (unpacks_of_isFinite first).counts.compare_eq
      (unpacks_of_isFinite second).counts
  have order : x ≤ y ↔
      (x.toModel.unpack.compare y.toModel.unpack).any (·.isLE) = true :=
    decide_eq_true_iff
  rw [order, compared, Option.any_some, Ordering.isLE_iff_ne_gt]
  exact compare_le_iff_le

/-! ### Units -/

def signed (negative : Bool) (magnitude : ℕ) : ℤ :=
  if negative then -magnitude else magnitude

theorem signed_mul (negative : Bool) (magnitude factor : ℕ) :
    signed negative (magnitude * factor) =
      signed negative magnitude * factor := by
  cases negative with
  | false => exact Nat.cast_mul magnitude factor
  | true =>
      rw [signed, signed, if_pos rfl, if_pos rfl, Nat.cast_mul, neg_mul]

theorem even_signed_iff (negative : Bool) (magnitude : ℕ) :
    Even (signed negative magnitude) ↔ Even magnitude := by
  cases negative with
  | false => exact Int.even_coe_nat magnitude
  | true => exact even_neg.trans (Int.even_coe_nat magnitude)

theorem signed_right_inj {negative : Bool} {magnitude magnitude' : ℕ} :
    signed negative magnitude = signed negative magnitude' ↔
      magnitude = magnitude' := by
  cases negative with
  | false => exact Nat.cast_inj
  | true => exact neg_inj.trans Nat.cast_inj

theorem apply_signField (bits : BitVec 64) (magnitude : ℕ) :
    (signField bits).apply magnitude =
      signed (bits.toNat.testBit 63) magnitude := by
  rw [signField]
  cases bits.toNat.testBit 63 <;> rfl

theorem cast_twoTo (exponent : ℕ) : (twoTo exponent : ℚ) = 2 ^ exponent := by
  rw [twoTo, Nat.pow_eq, Nat.cast_pow, Nat.cast_ofNat]

theorem cast_unitsPerOne : (unitsPerOne : ℚ) = 2 ^ 1074 := cast_twoTo 1074

theorem twoTo_pos (exponent : ℕ) : 0 < twoTo exponent :=
  Nat.two_pow_pos exponent

theorem unitsPerOne_pos : 0 < unitsPerOne := twoTo_pos 1074

/-- The power of two that a normal double is scaled by. -/
theorem zpow_exponent {exponent : ℕ} (above : 0 < exponent) :
    (2 : ℚ) ^ ((exponent : ℤ) - 1075) =
      twoTo (exponent - 1) / unitsPerOne := by
  have apart : (exponent : ℤ) - 1075 =
      ((exponent - 1 : ℕ) : ℤ) - (1074 : ℕ) := by omega
  rw [apart, zpow_sub₀ two_ne_zero, zpow_natCast, zpow_natCast,
    cast_unitsPerOne, cast_twoTo]

theorem Unpacks.numberOf_eq (unpacks : Unpacks bits number) :
    numberOf number =
      signed (bits.toNat.testBit 63) (unitsOf bits) / unitsPerOne := by
  cases unpacks with
  | zero least none =>
      have nothing : signed (bits.toNat.testBit 63) 0 = 0 := by
        cases bits.toNat.testBit 63 <;> rfl
      rw [unitsOf, if_pos least, none, nothing, Int.cast_zero, zero_div]
      rfl
  | subnormal least mantissa_eq exponent_eq =>
      have unit : (2 : ℚ) ^ (-1074 : ℤ) = (unitsPerOne : ℚ)⁻¹ := by
        rw [cast_unitsPerOne, zpow_neg]
        rfl
      rw [unitsOf, if_pos least, numberOf, mantissa_eq, exponent_eq,
        apply_signField, unit, div_eq_mul_inv]
  | normal above below mantissa_eq exponent_eq =>
      rw [unitsOf, if_neg above.ne', numberOf, mantissa_eq, exponent_eq,
        apply_signField, zpow_exponent above, signed_mul, Int.cast_mul,
        Int.cast_natCast (twoTo _), mul_div_assoc]

theorem exactValue_eq {x : Float} (finite : x.isFinite = true) :
    exactValue x =
      signed (x.toBits.toNat.testBit 63) (unitsOf x.toBits.toBitVec) /
        unitsPerOne :=
  (unpacks_of_isFinite finite).numberOf_eq

theorem Unpacks.exponentField_ne (unpacks : Unpacks bits number) :
    exponentField bits ≠ 2047 := by
  cases unpacks <;> omega

theorem ofFloat_eq {x : Float} (finite : x.isFinite = true) :
    Reading.ofFloat x =
      .finite (x.toBits.toNat.testBit 63) (unitsOf x.toBits.toBitVec) := by
  generalize bits_eq : x.toBits.toBitVec = bits
  have extreme : exponentField bits ≠ 2047 :=
    bits_eq ▸ (unpacks_of_isFinite finite).exponentField_ne
  have same : x.toBits.toNat = bits.toNat := congrArg BitVec.toNat bits_eq
  have sign : (bits.toNat / twoTo 63 % 2 == 1) = bits.toNat.testBit 63 :=
    (Nat.testBit_eq_decide_div_mod_eq).symm
  rw [Reading.ofFloat, Reading.ofBits, same, sign]
  change
    (if exponentField bits = 2047 then _
      else if exponentField bits = 0 then
        Reading.finite _ (fractionField bits)
      else
        Reading.finite _
          ((twoTo 52 + fractionField bits) *
            twoTo (exponentField bits - 1))) = _
  rw [if_neg extreme, unitsOf, apply_ite (Reading.finite _)]

end LatencyBench.Decimal
