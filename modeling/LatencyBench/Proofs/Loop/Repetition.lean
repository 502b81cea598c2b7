/-
Units said one after the other, which may be the same over and over: what a
reader has seen of such a stream at any time is some whole units and a proper
part of the next one.
-/

import LatencyBench.Transport

namespace LatencyBench

variable {α : Type}

def repeated (unit : List α) : Nat → List α
  | 0 => []
  | count + 1 => unit ++ repeated unit count

theorem repeated_succ (unit : List α) (count : Nat) :
    repeated unit (count + 1) = repeated unit count ++ unit := by
  induction count with
  | zero => simp [repeated]
  | succ count inductionHypothesis =>
      calc
        repeated unit (count + 1 + 1) = unit ++ repeated unit (count + 1) :=
          rfl
        _ = unit ++ (repeated unit count ++ unit) := by
          rw [inductionHypothesis]
        _ = repeated unit (count + 1) ++ unit :=
          (List.append_assoc unit (repeated unit count) unit).symm

/-- Part of a unit, but not all of it. -/
structure ProperPart (part unit : List α) : Prop where
  isPart : part <+: unit
  isProper : part ≠ unit

theorem properPart_nil {unit : List α} (some : unit ≠ []) :
    ProperPart [] unit where
  isPart := List.nil_prefix
  isProper := some.symm

theorem ProperPart.dropLast {part unit : List α}
    (proper : ProperPart part unit) : part <+: unit.dropLast := by
  obtain ⟨rest, whole⟩ := proper.isPart
  have more : rest ≠ [] := by
    intro nothing
    rw [nothing, List.append_nil] at whole
    exact proper.isProper whole
  rw [← whole, List.dropLast_append_of_ne_nil more]
  exact List.prefix_append part rest.dropLast

theorem properPart_dropLast {unit : List α} (some : unit ≠ []) :
    ProperPart unit.dropLast unit where
  isPart := List.dropLast_prefix unit
  isProper same := by
    have shorter := congrArg List.length same
    have positive := List.length_pos_iff.mpr some
    rw [List.length_dropLast] at shorter
    omega

/-! ### Series -/

/-- The first of some units in a row. -/
def series (unit : Nat → List α) : Nat → List α
  | 0 => []
  | count + 1 => series unit count ++ unit count

theorem series_constant (unit : List α) (count : Nat) :
    series (fun _ => unit) count = repeated unit count := by
  induction count with
  | zero => rfl
  | succ count inductionHypothesis =>
      rw [series, inductionHypothesis, repeated_succ]

/-- What has been seen of some units and a proper part of the next one. -/
theorem seen_of_series {unit : Nat → List α} (some : ∀ index, unit index ≠ [])
    {part seen : List α} {count : Nat} (proper : ProperPart part (unit count))
    (isSeen : seen <+: series unit count ++ part) :
    ∃ whole rest, whole ≤ count ∧ seen = series unit whole ++ rest ∧
      ProperPart rest (unit whole) := by
  induction count generalizing part with
  | zero =>
      refine ⟨0, seen, Nat.le_refl 0, rfl, ?_⟩
      have within : seen <+: part := isSeen
      refine
        { isPart := within.trans proper.isPart
          isProper := ?_ }
      intro same
      rw [same] at within
      exact proper.isProper (proper.isPart.eq_of_length_le within.length_le)
  | succ count inductionHypothesis =>
      have begins : series unit (count + 1) <+:
          series unit (count + 1) ++ part := List.prefix_append ..
      -- Either the seen part ends inside the last whole unit, where the
      -- induction hypothesis takes over, or behind it.
      rcases List.prefix_or_prefix_of_prefix begins isSeen with
        ⟨rest, longer⟩ | inside
      · rw [← longer, List.prefix_append_right_inj] at isSeen
        refine ⟨count + 1, rest, Nat.le_refl _, longer.symm,
          isSeen.trans proper.isPart, ?_⟩
        rintro rfl
        exact proper.isProper
          (proper.isPart.eq_of_length_le isSeen.length_le)
      · by_cases whole : seen = series unit (count + 1)
        · exact ⟨count + 1, [], Nat.le_refl _,
            whole.trans (List.append_nil _).symm, properPart_nil (some _)⟩
        · have shorter : seen <+:
              series unit count ++ (unit count).dropLast := by
            have within := ProperPart.dropLast ⟨inside, whole⟩
            rw [series, List.dropLast_append_of_ne_nil (some count)] at within
            exact within
          obtain ⟨fewer, rest, bound, split, properly⟩ :=
            inductionHypothesis (properPart_dropLast (some count)) shorter
          exact ⟨fewer, rest, Nat.le_succ_of_le bound, split, properly⟩

theorem ProperPart.ne_nil {part unit : List α} (proper : ProperPart part unit) :
    unit ≠ [] := by
  rintro rfl
  exact proper.isProper (List.prefix_nil.mp proper.isPart)

theorem seen_of_repeated {unit part seen : List α} {count : Nat}
    (proper : ProperPart part unit)
    (isSeen : seen <+: repeated unit count ++ part) :
    ∃ whole rest, whole ≤ count ∧ seen = repeated unit whole ++ rest ∧
      ProperPart rest unit := by
  simp only [← series_constant] at isSeen ⊢
  exact seen_of_series (fun _ => proper.ne_nil) proper isSeen

end LatencyBench
