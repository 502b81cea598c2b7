/-
Numbers in fixed-point notation.

A numeral is what such a text consists of: a sign or none, the digits in front
of the point, without zeros that could be left out, and a fixed number of digits
behind it.  Its text tells the numeral, and so do its sign and the number of
steps of the last place that it counts.  A numeral renders a double if it is the
nearest one, an even last digit deciding between two, and shows the sign of the
double; there is one such numeral for each finite double, and it is the one that
the text of the double is made of.
-/

import LatencyBench.Proofs.Decimal.Doubles
import LatencyBench.Proofs.Decimal.Rounding
import Mathlib.Data.List.Induction

namespace LatencyBench.Decimal

/-! ### Digits -/

section Digits

variable {digits : List Char}

def valueOf (digits : List Char) : ℕ := Nat.ofDigitChars 10 digits 0

theorem valueOf_append (front back : List Char) :
    valueOf (front ++ back) =
      10 ^ back.length * valueOf front + valueOf back := by
  rw [valueOf, Nat.ofDigitChars_append, Nat.ofDigitChars_eq_ofDigitChars_zero]
  rfl

@[simp] theorem valueOf_toDigits (value : ℕ) :
    valueOf (Nat.toDigits 10 value) = value :=
  Nat.ofDigitChars_ten_toDigits

theorem valueOf_concat (front : List Char) (last : Char) :
    valueOf (front ++ [last]) =
      10 * valueOf front + (last.toNat - '0'.toNat) := by
  rw [valueOf, Nat.ofDigitChars_append, Nat.ofDigitChars_cons,
    Nat.ofDigitChars_nil]
  rfl

theorem digitChar_toNat {char : Char} (digit : char.isDigit = true) :
    char.toNat - '0'.toNat < 10 ∧
      Nat.digitChar (char.toNat - '0'.toNat) = char := by
  obtain ⟨least, greatest⟩ := Char.isDigit_iff_toNat.mp digit
  have zero : '0'.toNat = 48 := rfl
  have nine : '9'.toNat = 57 := rfl
  refine ⟨by omega, Char.toNat_inj.mp ?_⟩
  rw [Nat.toNat_digitChar_of_lt_ten (by omega)]
  omega

theorem valueOf_lt (all : ∀ char ∈ digits, char.isDigit = true) :
    valueOf digits < 10 ^ digits.length := by
  induction digits using List.reverseRecOn with
  | nil => exact Nat.one_pos
  | append_singleton front last inductionHypothesis =>
      have earlier := inductionHypothesis fun char member =>
        all char (List.mem_append_left _ member)
      have small := (digitChar_toNat (all last (by simp))).1
      rw [valueOf_concat, List.length_append, List.length_singleton, pow_succ]
      omega

/-- Digits behind those of a positive number continue it. -/
theorem toDigits_append (all : ∀ char ∈ digits, char.isDigit = true)
    {value : ℕ} (positive : 0 < value) :
    Nat.toDigits 10 value ++ digits =
      Nat.toDigits 10 (10 ^ digits.length * value + valueOf digits) := by
  induction digits using List.reverseRecOn with
  | nil => simp [valueOf]
  | append_singleton front last inductionHypothesis =>
      have earlier := inductionHypothesis fun char member =>
        all char (List.mem_append_left _ member)
      obtain ⟨small, char_eq⟩ := digitChar_toNat (all last (by simp))
      have begun : 0 < 10 ^ front.length * value + valueOf front := by
        positivity
      have continued := Nat.toDigits_append_toDigits (by decide) begun small
      rw [Nat.toDigits_of_lt_base small, char_eq] at continued
      rw [← List.append_assoc, earlier, continued, valueOf_concat,
        List.length_append, List.length_singleton]
      congr 1
      ring

theorem head?_toDigits {value : ℕ} (positive : 0 < value) :
    (Nat.toDigits 10 value).head? ≠ some '0' := by
  induction value using Nat.strongRecOn with
  | ind value inductionHypothesis =>
      by_cases small : value < 10
      · rw [Nat.toDigits_of_lt_base small, List.head?_cons, ne_eq,
          Option.some.injEq, Nat.digitChar_eq_zero]
        exact positive.ne'
      · rw [Nat.toDigits_of_base_le (by decide) (by omega),
          List.head?_append_of_ne_nil _ Nat.toDigits_ne_nil]
        exact inductionHypothesis (value / 10) (by omega) (by omega)

/-- Digits without a zero that could be left out in front are the digits of the
number that they are read as. -/
theorem toDigits_valueOf (all : ∀ char ∈ digits, char.isDigit = true)
    (some : digits ≠ [])
    (noLeadingZero : digits.head? = Option.some '0' → digits = ['0']) :
    Nat.toDigits 10 (valueOf digits) = digits := by
  cases digits with
  | nil => exact absurd rfl some
  | cons first rest =>
      by_cases zero : first = '0'
      · rw [noLeadingZero (congrArg _ zero)]
        rfl
      · obtain ⟨small, char_eq⟩ := digitChar_toNat (all first List.mem_cons_self)
        have positive : 0 < first.toNat - '0'.toNat := by
          refine Nat.pos_of_ne_zero fun none => zero ?_
          rw [← char_eq, none]
          rfl
        have begun := valueOf_append [first] rest
        have single : valueOf [first] = first.toNat - '0'.toNat := by
          rw [← List.nil_append [first], valueOf_concat]
          exact Nat.zero_add _
        rw [List.singleton_append, single] at begun
        rw [begun, ← toDigits_append
          (fun char member => all char (List.mem_cons_of_mem _ member)) positive,
          Nat.toDigits_of_lt_base small, char_eq]
        rfl

theorem eq_of_valueOf_eq {others : List Char}
    (all : ∀ char ∈ digits, char.isDigit = true)
    (all' : ∀ char ∈ others, char.isDigit = true)
    (length_eq : digits.length = others.length)
    (value_eq : valueOf digits = valueOf others) : digits = others := by
  -- Zeros in front count as well, so both continue a digit that is not zero.
  have same := toDigits_append all Nat.one_pos
  rw [length_eq, value_eq, ← toDigits_append all' Nat.one_pos] at same
  exact List.append_cancel_left same

end Digits

/-! ### Numerals -/

/-- A number in fixed-point notation: its sign, the digits in front of the
point, and as many behind it as there are places. -/
@[ext] structure Numeral (places : ℕ) where
  negative : Bool
  whole : List Char
  fraction : List Char
  digits : ∀ char ∈ whole ++ fraction, char.isDigit = true
  whole_ne_nil : whole ≠ []
  noLeadingZero : whole.head? = some '0' → whole = ['0']
  length_fraction : fraction.length = places

namespace Numeral

variable {places : ℕ} (numeral : Numeral places)

def chars : List Char :=
  (if numeral.negative then ['-'] else []) ++
    numeral.whole ++ '.' :: numeral.fraction

def text : String := String.ofList numeral.chars

def count : ℕ := valueOf (numeral.whole ++ numeral.fraction)

def multiple : ℤ := signed numeral.negative numeral.count

def value : ℚ := numeral.multiple * (1 / 10 ^ places)

def lastDigit : ℕ :=
  ((numeral.whole ++ numeral.fraction).getLast
    (List.append_ne_nil_of_left_ne_nil numeral.whole_ne_nil _)).toNat -
      '0'.toNat

variable {numeral} {other : Numeral places}

theorem whole_digits : ∀ char ∈ numeral.whole, char.isDigit = true :=
  fun char member => numeral.digits char (List.mem_append_left _ member)

theorem fraction_digits : ∀ char ∈ numeral.fraction, char.isDigit = true :=
  fun char member => numeral.digits char (List.mem_append_right _ member)

theorem count_eq : numeral.count =
    10 ^ places * valueOf numeral.whole + valueOf numeral.fraction := by
  rw [count, valueOf_append, numeral.length_fraction]

theorem valueOf_fraction_lt (numeral : Numeral places) :
    valueOf numeral.fraction < 10 ^ places := by
  have bound := valueOf_lt numeral.fraction_digits
  rwa [numeral.length_fraction] at bound

/-- The digits follow from what they count: the point and the rule about zeros
in front leave no choice. -/
theorem ext_count (sign_eq : numeral.negative = other.negative)
    (same : numeral.count = other.count) : numeral = other := by
  rw [count_eq, count_eq] at same
  have fraction_value : valueOf numeral.fraction = valueOf other.fraction := by
    have rests := congrArg (· % 10 ^ places) same
    simpa [Nat.mod_eq_of_lt (valueOf_fraction_lt _)] using rests
  have whole_value : valueOf numeral.whole = valueOf other.whole := by
    rw [fraction_value, Nat.add_right_cancel_iff] at same
    exact Nat.eq_of_mul_eq_mul_left (by positivity) same
  have whole_eq : numeral.whole = other.whole := by
    rw [← toDigits_valueOf numeral.whole_digits numeral.whole_ne_nil
      numeral.noLeadingZero, whole_value,
      toDigits_valueOf other.whole_digits other.whole_ne_nil
        other.noLeadingZero]
  have fraction_eq : numeral.fraction = other.fraction :=
    eq_of_valueOf_eq numeral.fraction_digits other.fraction_digits
      (numeral.length_fraction.trans other.length_fraction.symm)
      fraction_value
  exact Numeral.ext sign_eq whole_eq fraction_eq

/-! ### Rendering -/

/-- A numeral renders a double if no multiple of its last place is nearer, if
its last digit is even where another multiple is as near, and if its sign is the
sign bit. -/
structure Renders (numeral : Numeral places) (x : Float) : Prop where
  closest : ∀ multiple : ℤ, |numeral.value - exactValue x| ≤
    |multiple * (1 / 10 ^ places) - exactValue x|
  even : ∀ multiple : ℤ, multiple * (1 / 10 ^ places) ≠ numeral.value →
    |numeral.value - exactValue x| =
      |multiple * (1 / 10 ^ places) - exactValue x| →
    Even numeral.lastDigit
  sign : numeral.negative = x.toBits.toNat.testBit 63

variable {x y : Float}

theorem even_multiple_iff : Even numeral.multiple ↔ Even numeral.lastDigit := by
  have some : numeral.whole ++ numeral.fraction ≠ [] :=
    List.append_ne_nil_of_left_ne_nil numeral.whole_ne_nil _
  have last : numeral.count =
      10 * valueOf (numeral.whole ++ numeral.fraction).dropLast +
        numeral.lastDigit := by
    rw [count, lastDigit, ← valueOf_concat, List.dropLast_append_getLast]
  have tens : Even (10 * valueOf (numeral.whole ++ numeral.fraction).dropLast) :=
    Even.mul_right (by decide) _
  rw [multiple, even_signed_iff, last, Nat.even_add, iff_true_left tens]

theorem renders_iff : numeral.Renders x ↔
    IsNearest (1 / 10 ^ places) numeral.multiple (exactValue x) ∧
      numeral.negative = x.toBits.toNat.testBit 63 := by
  have step : (1 / 10 ^ places : ℚ) ≠ 0 := by positivity
  constructor
  · intro renders
    refine ⟨⟨renders.closest, fun other differ same => ?_⟩, renders.sign⟩
    refine even_multiple_iff.mpr (renders.even other (fun equal => ?_) same)
    exact differ (Int.cast_injective (mul_right_cancel₀ step equal))
  · rintro ⟨nearest, sign⟩
    refine ⟨nearest.closest, fun other differ same => ?_, sign⟩
    refine even_multiple_iff.mp (nearest.even other (fun equal => ?_) same)
    exact differ (congrArg (fun steps : ℤ => (steps : ℚ) * _) equal)

theorem Renders.within (renders : numeral.Renders x) :
    |numeral.value - exactValue x| ≤ 1 / 10 ^ places / 2 :=
  (renders_iff.mp renders).1.within (by positivity)

theorem Renders.mono (renders : numeral.Renders x)
    (renders' : other.Renders y) (le : exactValue x ≤ exactValue y) :
    numeral.value ≤ other.value := by
  have multiple_le : numeral.multiple ≤ other.multiple :=
    (renders_iff.mp renders).1.mono (by positivity)
      (renders_iff.mp renders').1 le
  rw [value, value]
  gcongr

theorem Renders.unique (renders : numeral.Renders x)
    (renders' : other.Renders x) : numeral = other := by
  obtain ⟨nearest, sign⟩ := renders_iff.mp renders
  obtain ⟨nearest', sign'⟩ := renders_iff.mp renders'
  have sign_eq := sign.trans sign'.symm
  have multiple_eq := nearest.unique (by positivity) nearest'
  rw [multiple, multiple, sign_eq, signed_right_inj] at multiple_eq
  exact ext_count sign_eq multiple_eq

/-! ### Texts -/

theorem negative_iff :
    numeral.negative = true ↔ numeral.chars.head? = some '-' := by
  rw [chars]
  cases numeral.negative with
  | true => exact iff_of_true rfl rfl
  | false =>
      refine iff_of_false Bool.false_ne_true fun starts => ?_
      rw [if_neg Bool.false_ne_true, List.nil_append,
        List.head?_append_of_ne_nil _ numeral.whole_ne_nil] at starts
      have digit := numeral.whole_digits '-' (List.mem_of_head? starts)
      exact absurd digit (by decide)

theorem takeWhile_whole (numeral : Numeral places) :
    (numeral.whole ++ '.' :: numeral.fraction).takeWhile Char.isDigit =
      numeral.whole := by
  rw [List.takeWhile_append_of_pos numeral.whole_digits,
    List.takeWhile_cons_of_neg (by decide), List.append_nil]

/-- A text is that of one numeral only. -/
theorem text_injective (same : numeral.text = other.text) :
    numeral = other := by
  have chars_eq : numeral.chars = other.chars := String.ofList_injective same
  have sign_eq : numeral.negative = other.negative := by
    rw [Bool.eq_iff_iff, negative_iff, negative_iff, chars_eq]
  rw [chars, chars, sign_eq, List.append_assoc, List.append_assoc] at chars_eq
  have unsigned_eq := List.append_cancel_left chars_eq
  have whole_eq : numeral.whole = other.whole := by
    rw [← takeWhile_whole, unsigned_eq, takeWhile_whole]
  rw [whole_eq] at unsigned_eq
  have fraction_eq := List.append_cancel_left unsigned_eq
  exact Numeral.ext sign_eq whole_eq (List.cons.inj fraction_eq).2

end Numeral

end LatencyBench.Decimal
