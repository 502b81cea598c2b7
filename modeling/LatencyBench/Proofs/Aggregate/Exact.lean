/-
The aggregate over exact numbers.

Nothing is lost to rounding here, so moving the mean by its distance to the
new sample, divided by the new count, keeps mean times count equal to the sum.
Together with the least and the greatest sample this fixes the aggregate, and
none of it depends on the order of the samples.
-/

import LatencyBench.Aggregate
import Mathlib.Algebra.BigOperators.Group.List.Basic
import Mathlib.Algebra.Order.BigOperators.Group.List
import Mathlib.Algebra.Order.Field.Rat
import Mathlib.Data.List.Induction
import Mathlib.Order.Bounds.Basic
import Mathlib.Tactic.FieldSimp
import Mathlib.Tactic.Ring

namespace LatencyBench.Aggregate

local instance rationalSample : Sample ℚ where
  zero := 0
  ofCount count := count
  lesser := min
  greater := max

/-- What an aggregate tells of samples: their number, the least and the
greatest of them, and the mean that makes up their sum. -/
structure Summarizes (stats : Aggregate ℚ) (samples : List ℚ) : Prop where
  count : stats.samples = samples.length
  least : IsLeast {sample | sample ∈ samples} stats.least
  greatest : IsGreatest {sample | sample ∈ samples} stats.greatest
  total : stats.mean * samples.length = samples.sum

variable {stats other : Aggregate ℚ} {samples : List ℚ}

theorem recordAll_concat (stats : Aggregate ℚ) (samples : List ℚ)
    (sample : ℚ) :
    stats.recordAll (samples ++ [sample]) =
      (stats.recordAll samples).record sample :=
  List.foldl_append

theorem summarizes_first (sample : ℚ) :
    (empty.record sample).Summarizes [sample] where
  count := rfl
  least := by simp [record, empty]
  greatest := by simp [record, empty]
  total := by simp [record, empty]

theorem record_of_some (some : 0 < stats.samples) (sample : ℚ) :
    stats.record sample =
      { samples := stats.samples + 1
        least := min stats.least sample
        greatest := max stats.greatest sample
        mean :=
          stats.mean + (sample - stats.mean) / ((stats.samples + 1 : ℕ) : ℚ) } := by
  have later : stats.samples + 1 ≠ 1 := by omega
  rw [record, if_neg later]
  rfl

theorem members_concat (samples : List ℚ) (sample : ℚ) :
    {member | member ∈ samples ++ [sample]} =
      insert sample {member | member ∈ samples} := by
  ext member
  simp [or_comm]

/-- The step lemma. -/
theorem Summarizes.record (summarizes : stats.Summarizes samples)
    (some : samples ≠ []) (sample : ℚ) :
    (stats.record sample).Summarizes (samples ++ [sample]) := by
  have positive : 0 < stats.samples := by
    rw [summarizes.count]
    exact List.length_pos_iff.mpr some
  rw [record_of_some positive]
  refine ⟨?_, ?_, ?_, ?_⟩
  · rw [List.length_append, List.length_singleton, summarizes.count]
  · rw [members_concat, min_comm]
    exact summarizes.least.insert sample
  · rw [members_concat, max_comm]
    exact summarizes.greatest.insert sample
  · -- The new count cancels, and the old one makes up the old sum.
    have nonzero : ((samples.length + 1 : ℕ) : ℚ) ≠ 0 :=
      Nat.cast_ne_zero.mpr (Nat.succ_ne_zero _)
    rw [List.sum_append, List.sum_singleton, ← summarizes.total,
      List.length_append, List.length_singleton, summarizes.count]
    dsimp only
    rw [add_mul, div_mul_cancel₀ _ nonzero]
    push_cast
    ring

/-- The run lemma. -/
theorem recordAll_summarizes (some : samples ≠ []) :
    (empty.recordAll samples).Summarizes samples := by
  induction samples using List.reverseRecOn with
  | nil => exact absurd rfl some
  | append_singleton earlier sample inductionHypothesis =>
      rw [recordAll_concat]
      by_cases first : earlier = []
      · rw [first]
        exact summarizes_first sample
      · exact (inductionHypothesis first).record first sample

theorem Summarizes.least_le_mean (summarizes : stats.Summarizes samples)
    (some : samples ≠ []) : stats.least ≤ stats.mean := by
  have positive : (0 : ℚ) < samples.length :=
    Nat.cast_pos.mpr (List.length_pos_iff.mpr some)
  have below : samples.length • stats.least ≤ samples.sum :=
    List.card_nsmul_le_sum samples _ fun _ member =>
      summarizes.least.2 member
  rw [← summarizes.total, nsmul_eq_mul, mul_comm] at below
  exact le_of_mul_le_mul_right below positive

theorem Summarizes.mean_le_greatest (summarizes : stats.Summarizes samples)
    (some : samples ≠ []) : stats.mean ≤ stats.greatest := by
  have positive : (0 : ℚ) < samples.length :=
    Nat.cast_pos.mpr (List.length_pos_iff.mpr some)
  have above : samples.sum ≤ samples.length • stats.greatest :=
    List.sum_le_card_nsmul samples _ fun _ member =>
      summarizes.greatest.2 member
  rw [← summarizes.total, nsmul_eq_mul, mul_comm _ stats.greatest] at above
  exact le_of_mul_le_mul_right above positive

theorem Summarizes.perm {shuffled : List ℚ}
    (summarizes : stats.Summarizes samples) (perm : samples.Perm shuffled) :
    stats.Summarizes shuffled := by
  have members : {sample | sample ∈ samples} = {sample | sample ∈ shuffled} :=
    Set.ext fun _ => perm.mem_iff
  exact
    { count := summarizes.count.trans perm.length_eq
      least := members ▸ summarizes.least
      greatest := members ▸ summarizes.greatest
      total := by
        rw [← perm.length_eq, ← perm.sum_eq]
        exact summarizes.total }

theorem Summarizes.unique (first : stats.Summarizes samples)
    (second : other.Summarizes samples) (some : samples ≠ []) :
    stats = other := by
  have nonzero : (samples.length : ℚ) ≠ 0 :=
    Nat.cast_ne_zero.mpr (mt List.length_eq_zero_iff.mp some)
  have count := first.count.trans second.count.symm
  have least := first.least.unique second.least
  have greatest := first.greatest.unique second.greatest
  have mean := mul_right_cancel₀ nonzero (first.total.trans second.total.symm)
  cases stats
  cases other
  simp_all

/-- Over exact numbers the running aggregate is the true one: it tells the
number of the samples, the least, the greatest and the mean, which lies between
these two, and it is the same in whatever order the samples come. -/
theorem running_aggregate_is_true (samples : List ℚ) (some : samples ≠ []) :
    (empty.recordAll samples).Summarizes samples ∧
      (empty.recordAll samples).least ≤ (empty.recordAll samples).mean ∧
      (empty.recordAll samples).mean ≤ (empty.recordAll samples).greatest ∧
      ∀ shuffled, samples.Perm shuffled →
        empty.recordAll shuffled = empty.recordAll samples := by
  have summarizes : (empty.recordAll samples).Summarizes samples :=
    recordAll_summarizes some
  refine ⟨summarizes, summarizes.least_le_mean some,
    summarizes.mean_le_greatest some, ?_⟩
  intro shuffled perm
  have also : shuffled ≠ [] := fun none => some (none ▸ perm).eq_nil
  exact (recordAll_summarizes also).unique (summarizes.perm perm) also

/-! The least sample comes last here, and the greatest twice. -/

def unevenSamples : List ℚ :=
  [3 / 2, 5 / 2, 5 / 2, -1 / 3]

theorem unevenSamples_summarized :
    unevenSamples ≠ [] ∧
      (empty.recordAll unevenSamples).Summarizes unevenSamples ∧
      (empty.recordAll unevenSamples).mean = 37 / 24 ∧
      empty.recordAll unevenSamples.reverse =
        empty.recordAll unevenSamples := by
  have some : unevenSamples ≠ [] := List.cons_ne_nil _ _
  obtain ⟨summarizes, _, _, same⟩ :=
    running_aggregate_is_true unevenSamples some
  refine ⟨some, summarizes, by decide +kernel, ?_⟩
  exact same _ (List.reverse_perm _).symm

end LatencyBench.Aggregate
