/-
What is printed for a latency.

The text of a finite double is the numeral that renders it, so it is determined
by what it has to be: fixed-point notation, nearest to the exact value, with the
sign of the double.  That it is off by no more than half a step of the last
place, and that greater doubles are never printed as lesser numbers, follows
from this alone.  The panel and the line after a session print every latency in
this way.
-/

import LatencyBench.Launcher.Report
import LatencyBench.Panel
import LatencyBench.Proofs.Decimal.Numerals

namespace LatencyBench

namespace Decimal

variable {places value : ℕ} {x y : Float}

/-! ### The digits of a text -/

theorem tenTo_eq (places : ℕ) : tenTo places = 10 ^ places := Nat.pow_eq

theorem tenTo_pos (places : ℕ) : 0 < tenTo places :=
  tenTo_eq places ▸ Nat.pow_pos (by decide)

theorem toDigits_isDigit (value : ℕ) :
    ∀ char ∈ Nat.toDigits 10 value, char.isDigit = true :=
  fun _ => Nat.isDigit_of_mem_toDigits (by decide) (by decide)

theorem paddedDigits_isDigit (places value : ℕ) :
    ∀ char ∈ paddedDigits places value, char.isDigit = true := by
  intro char member
  rcases List.mem_append.mp member with zero | digit
  · rw [List.eq_of_mem_replicate zero]
    rfl
  · exact toDigits_isDigit value char digit

theorem length_paddedDigits (positive : 0 < places)
    (bounded : value < tenTo places) :
    (paddedDigits places value).length = places := by
  rw [tenTo_eq] at bounded
  have short := (Nat.length_toDigits_le_iff (by decide) positive).mpr bounded
  rw [paddedDigits, List.length_append, List.length_replicate]
  omega

@[simp] theorem valueOf_paddedDigits (places value : ℕ) :
    valueOf (paddedDigits places value) = value := by
  rw [paddedDigits, valueOf_append, valueOf_toDigits, valueOf,
    Nat.ofDigitChars_replicate_zero, Nat.mul_zero, Nat.mul_zero, Nat.zero_add]

theorem toDigits_noLeadingZero (value : ℕ)
    (starts : (Nat.toDigits 10 value).head? = some '0') :
    Nat.toDigits 10 value = ['0'] := by
  rcases Nat.eq_zero_or_pos value with rfl | positive
  · rfl
  · exact absurd starts (head?_toDigits positive)

namespace Numeral

/-- The numeral that counts some steps of its last place. -/
def ofCount (positive : 0 < places) (negative : Bool) (count : ℕ) :
    Numeral places where
  negative := negative
  whole := Nat.toDigits 10 (count / tenTo places)
  fraction := paddedDigits places (count % tenTo places)
  digits := by
    intro char member
    rcases List.mem_append.mp member with front | back
    · exact toDigits_isDigit _ char front
    · exact paddedDigits_isDigit _ _ char back
  whole_ne_nil := Nat.toDigits_ne_nil
  noLeadingZero := toDigits_noLeadingZero _
  length_fraction :=
    length_paddedDigits positive (Nat.mod_lt _ (tenTo_pos places))

variable (positive : 0 < places) (negative : Bool) (steps : ℕ)

theorem text_ofCount : (ofCount positive negative steps).text =
    String.ofList (sign negative ++ pointed places steps) := by
  rw [text, chars, List.append_assoc]
  rfl

@[simp] theorem count_ofCount : (ofCount positive negative steps).count = steps := by
  rw [count_eq, ofCount, valueOf_toDigits, valueOf_paddedDigits, ← tenTo_eq]
  exact Nat.div_add_mod _ _

end Numeral

/-! ### The text of a double -/

def printed (positive : 0 < places) (x : Float) : Numeral places :=
  .ofCount positive (x.toBits.toNat.testBit 63)
    (roundHalfEven (unitsOf x.toBits.toBitVec * tenTo places) unitsPerOne)

theorem text_printed (positive : 0 < places) (finite : x.isFinite = true) :
    (printed positive x).text = fixed places x := by
  rw [printed, Numeral.text_ofCount, fixed, ofFloat_eq finite]
  rfl

theorem IsNearest.signed {step : ℚ} {count units divisor : ℕ}
    (nearest : IsNearest step count (units / divisor)) (negative : Bool) :
    IsNearest step (signed negative count)
      (signed negative units / divisor) := by
  cases negative with
  | false => exact nearest
  | true =>
      have mirrored := nearest.neg
      rwa [← neg_div, ← Int.cast_natCast (R := ℚ) units, ← Int.cast_neg]
        at mirrored

theorem printed_renders (positive : 0 < places) (finite : x.isFinite = true) :
    (printed positive x).Renders x := by
  have power : (0 : ℚ) < 10 ^ places := by positivity
  have rounded := (roundHalfEven_isNearest
    (unitsOf x.toBits.toBitVec * tenTo places) unitsPerOne_pos).scale
      (one_div_pos.mpr power)
  have unscaled :
      ((unitsOf x.toBits.toBitVec * tenTo places : ℕ) : ℚ) / unitsPerOne *
        (1 / 10 ^ places) = unitsOf x.toBits.toBitVec / unitsPerOne := by
    rw [tenTo_eq, Nat.cast_mul, Nat.cast_pow, Nat.cast_ofNat, mul_div_right_comm,
      mul_assoc, mul_one_div_cancel power.ne', mul_one]
  rw [one_mul] at rounded
  refine Numeral.renders_iff.mpr ⟨?_, rfl⟩
  rw [exactValue_eq finite, Numeral.multiple, printed, Numeral.count_ofCount]
  refine IsNearest.signed ?_ _
  rw [← unscaled]
  exact rounded

theorem fixed_eq_iff (positive : 0 < places) (finite : x.isFinite = true)
    (text : String) :
    fixed places x = text ↔
      ∃ numeral : Numeral places, numeral.text = text ∧ numeral.Renders x := by
  rw [← text_printed positive finite]
  constructor
  · intro same
    exact ⟨printed positive x, same, printed_renders positive finite⟩
  · rintro ⟨numeral, rfl, renders⟩
    rw [(printed_renders positive finite).unique renders]

theorem Numeral.Renders.of_fixed (positive : 0 < places)
    (finite : x.isFinite = true) {numeral : Numeral places}
    (same : fixed places x = numeral.text) : numeral.Renders x := by
  obtain ⟨other, text_eq, renders⟩ := (fixed_eq_iff positive finite _).mp same
  rwa [← Numeral.text_injective text_eq]

/-- What it is to print doubles to the nearest thousandth.  The rest follows
from the first: texts are that near, and in the order of the doubles. -/
structure PrintsThousandths (print : Float → String) : Prop where
  renders : ∀ (x : Float) (text : String), x.isFinite = true →
    (print x = text ↔
      ∃ numeral : Numeral 3, numeral.text = text ∧ numeral.Renders x)
  within : ∀ (x : Float) (numeral : Numeral 3), x.isFinite = true →
    print x = numeral.text → |numeral.value - exactValue x| ≤ 1 / 2000
  mono : ∀ (x y : Float) (lower upper : Numeral 3),
    x.isFinite = true → y.isFinite = true → x ≤ y →
    print x = lower.text → print y = upper.text → lower.value ≤ upper.value

theorem latency_printsThousandths : PrintsThousandths latency where
  renders _ text finite := fixed_eq_iff (by decide) finite text
  within x numeral finite same := by
    have renders : numeral.Renders x := .of_fixed (by decide) finite same
    have half := renders.within
    norm_num at half ⊢
    exact half
  mono x y lower upper finite finite' le same same' := by
    have renders : lower.Renders x := .of_fixed (by decide) finite same
    have renders' : upper.Renders y := .of_fixed (by decide) finite' same'
    exact renders.mono renders' ((le_iff_exactValue_le finite finite').mp le)

end Decimal

/-! ### Panels and summaries -/

open Decimal Net

/-- What the rows of a panel and the line after a session tell of latencies,
with a text for each. -/
structure TellsLatencies (print : Float → String) (snapshot : Snapshot)
    (rows : List String) (summary : String) : Prop where
  lastRoundTrip : rows[5]? =
    some ("last round trip: " ++ print snapshot.lastRoundTrip ++ " ms")
  unmeasured : snapshot.stats.samples = 0 →
    rows[6]? = some "samples: 0" ∧ summary = "no round trips measured"
  aggregate : 0 < snapshot.stats.samples → rows[6]? =
    some ("samples: " ++ toString snapshot.stats.samples ++
      "  min " ++ print snapshot.stats.least ++
      " ms  mean " ++ print snapshot.stats.mean ++
      " ms  max " ++ print snapshot.stats.greatest ++ " ms")
  measured : 0 < snapshot.stats.samples → summary =
    toString snapshot.stats.samples ++
      " round trips: last " ++ print snapshot.lastRoundTrip ++
      " ms, min " ++ print snapshot.stats.least ++
      " ms, mean " ++ print snapshot.stats.mean ++
      " ms, max " ++ print snapshot.stats.greatest ++ " ms"

theorem panel_tellsLatencies (snapshot : Snapshot) (listen : SocketAddress) :
    TellsLatencies latency snapshot (Panel.rows snapshot listen)
      (Launcher.measuredLine snapshot.stats snapshot.lastRoundTrip) where
  lastRoundTrip := by
    have spaced : "last round trip: " = "last round trip:" ++ " " := by decide
    rw [spaced]
    rfl
  unmeasured zero := ⟨congrArg some (if_pos zero), if_pos zero⟩
  aggregate positive := by
    have least : "  min " = "  " ++ "min" ++ " " := by decide
    have mean : " ms  mean " = " ms" ++ "  " ++ "mean" ++ " " := by decide
    have greatest : " ms  max " = " ms" ++ "  " ++ "max" ++ " " := by decide
    refine (congrArg some (if_neg positive.ne')).trans ?_
    rw [least, mean, greatest]
    simp only [Panel.named, String.append_assoc]
  measured positive := by
    have last : " round trips: last " = " round trips: " ++ "last" ++ " " := by
      decide
    have least : " ms, min " = " ms" ++ ", " ++ "min" ++ " " := by decide
    have mean : " ms, mean " = " ms" ++ ", " ++ "mean" ++ " " := by decide
    have greatest : " ms, max " = " ms" ++ ", " ++ "max" ++ " " := by decide
    refine (if_neg positive.ne').trans ?_
    rw [last, least, mean, greatest]
    simp only [Panel.named, String.append_assoc, String.intercalate_cons_cons,
      String.intercalate_singleton]

/-- The latencies of a snapshot are printed to the nearest thousandth: each
finite one stands in its row as the one numeral with three places that is
nearest to its exact value and has its sign, at most half a thousandth off, and
a greater one is never printed as a lesser number. -/
theorem latencies_printed_nearest (snapshot : Snapshot)
    (listen : SocketAddress) :
    TellsLatencies latency snapshot (Panel.rows snapshot listen)
        (Launcher.measuredLine snapshot.stats snapshot.lastRoundTrip) ∧
      PrintsThousandths latency :=
  ⟨panel_tellsLatencies snapshot listen, latency_printsThousandths⟩

/-! The last round trip is the least number below zero, and the others are a
tie, a carry through all digits, and a number beyond the usual range of digits
without an exponent. -/

def awkwardSnapshot : Snapshot :=
  { transport := .rawTcp
    phase := .connected
    connected := true
    pending := false
    lastRoundTrip := .ofBits 0x8000000000000001
    stats :=
      { samples := 4
        least := .ofBits 0x3FB0000000000000
        greatest := .ofBits 0x4341C37937E08000
        mean := .ofBits 0x4023FFF2E48E8A72 }
    frame := 7 }

theorem awkwardSnapshot_printed :
    awkwardSnapshot.lastRoundTrip.isFinite = true ∧
      awkwardSnapshot.stats.least.isFinite = true ∧
      awkwardSnapshot.stats.mean.isFinite = true ∧
      awkwardSnapshot.stats.greatest.isFinite = true ∧
      awkwardSnapshot.stats.least ≤ awkwardSnapshot.stats.mean ∧
      (Panel.rows awkwardSnapshot { ip := .unspecified, port := 9003 })[5]? =
        some "last round trip: -0.000 ms" ∧
      (Panel.rows awkwardSnapshot { ip := .unspecified, port := 9003 })[6]? =
        some ("samples: 4  min 0.062 ms  mean 10.000 ms" ++
          "  max 10000000000000000.000 ms") ∧
      ∃ tie carry : Numeral 3, tie.text = "0.062" ∧ carry.text = "10.000" ∧
        tie.Renders awkwardSnapshot.stats.least ∧
        carry.Renders awkwardSnapshot.stats.mean ∧
        |tie.value - exactValue awkwardSnapshot.stats.least| ≤ 1 / 2000 ∧
        tie.value ≤ carry.value := by
  obtain ⟨tells, prints⟩ :=
    latencies_printed_nearest awkwardSnapshot { ip := .unspecified, port := 9003 }
  have finite : awkwardSnapshot.stats.least.isFinite = true := by
    decide +kernel
  have finite' : awkwardSnapshot.stats.mean.isFinite = true := by
    decide +kernel
  have le : awkwardSnapshot.stats.least ≤ awkwardSnapshot.stats.mean := by
    decide +kernel
  have last : latency awkwardSnapshot.lastRoundTrip = "-0.000" := by
    decide +kernel
  have least : latency awkwardSnapshot.stats.least = "0.062" := by
    decide +kernel
  have mean : latency awkwardSnapshot.stats.mean = "10.000" := by
    decide +kernel
  have greatest : latency awkwardSnapshot.stats.greatest =
      "10000000000000000.000" := by
    decide +kernel
  have row := tells.lastRoundTrip
  have aggregate := tells.aggregate (by decide)
  rw [last] at row
  rw [least, mean, greatest] at aggregate
  obtain ⟨tie, tie_text, tie_renders⟩ := (prints.renders _ _ finite).mp least
  obtain ⟨carry, carry_text, carry_renders⟩ :=
    (prints.renders _ _ finite').mp mean
  rw [← tie_text] at least
  rw [← carry_text] at mean
  refine ⟨by decide +kernel, finite, finite', by decide +kernel, le,
    row.trans (by decide), aggregate.trans (by decide +kernel), tie, carry,
    tie_text, carry_text, tie_renders, carry_renders,
    prints.within _ _ finite least,
    prints.mono _ _ _ _ finite finite' le least mean⟩

end LatencyBench
