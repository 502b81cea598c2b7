/-
How far bytes are text.

The reader of UTF-8 gives up as soon as no text begins with what it has read,
and not before: wherever it stands otherwise, some bytes lead it to the end of
a character.
-/

import LatencyBench.Text.Utf8

namespace LatencyBench.Utf8

namespace Reader

theorem scan_append (reader : Reader) (first second : List UInt8) :
    reader.scan (first ++ second) =
      (reader.scan first).bind fun next => next.scan second := by
  induction first generalizing reader with
  | nil => rfl
  | cons byte rest inductionHypothesis =>
      simp only [List.cons_append, scan]
      cases reader.advance byte with
      | refused => rfl
      | moved next => exact inductionHypothesis next
      | completed _ => exact inductionHypothesis .between

/-- Whether some byte takes a reader further: its bounds leave room for one. -/
inductive Open : Reader → Prop where
  | between : Open .between
  | inside (needed : Nat) {lower upper : Nat} (code : Nat)
      (room : lower ≤ upper) (isByte : lower < 256) :
      Open (.inside needed lower upper code)

variable {reader next : Reader} {byte : UInt8} {bytes : List UInt8}

theorem open_ofFirst {first : Nat}
    (moved : Advance.ofFirst first = .moved next) : next.Open := by
  unfold Advance.ofFirst at moved
  repeat' split at moved
  all_goals cases moved
  all_goals exact .inside _ _ (by decide) (by decide)

theorem open_advance (moved : reader.advance byte = .moved next) :
    next.Open := by
  cases reader with
  | between => exact open_ofFirst moved
  | inside needed lower upper code =>
      cases needed with
      | zero =>
          simp only [advance] at moved
          split at moved <;> cases moved
      | succ needed =>
          simp only [advance] at moved
          split at moved
          · cases moved
            exact .inside _ _ (by decide) (by decide)
          · cases moved

theorem Open.scan (isOpen : reader.Open)
    (read : reader.scan bytes = some next) : next.Open := by
  induction bytes generalizing reader with
  | nil =>
      cases read
      exact isOpen
  | cons byte rest inductionHypothesis =>
      simp only [Reader.scan] at read
      cases found : reader.advance byte with
      | refused =>
          rw [found] at read
          cases read
      | moved onward =>
          rw [found] at read
          exact inductionHypothesis (open_advance found) read
      | completed _ =>
          rw [found] at read
          exact inductionHypothesis .between read

theorem Open.completable (isOpen : reader.Open) :
    ∃ rest, reader.scan rest = some .between := by
  cases isOpen with
  | between => exact ⟨[], rfl⟩
  | inside needed code room isByte =>
      -- The lowest byte within the bounds goes on; behind the first one the
      -- bounds are always those of any continuation.
      rename_i lower upper
      induction needed generalizing lower upper code with
      | zero =>
          refine ⟨[.ofNat lower], ?_⟩
          have value : (UInt8.ofNat lower).toNat = lower :=
            UInt8.toNat_ofNat_of_lt' isByte
          simp only [Reader.scan, advance, value, Nat.le_refl, room, and_self,
            if_true]
      | succ needed inductionHypothesis =>
          have value : (UInt8.ofNat lower).toNat = lower :=
            UInt8.toNat_ofNat_of_lt' isByte
          have onward : ∃ rest,
              (Reader.inside needed 0x80 0xBF
                (code * 64 + (lower - 0x80))).scan
                  rest = some .between :=
            inductionHypothesis _ (by decide) (by decide)
          obtain ⟨rest, complete⟩ := onward
          refine ⟨.ofNat lower :: rest, ?_⟩
          simp only [Reader.scan, advance, value, Nat.le_refl, room, and_self,
            if_true, complete]

end Reader

theorem isValid_iff {bytes : List UInt8} :
    isValid bytes = true ↔ Reader.between.scan bytes = some .between :=
  beq_iff_eq

/-- Bytes can be read as far as they go exactly if some text begins with
them. -/
theorem begins_text_iff {bytes : List UInt8} :
    (∃ rest, isValid (bytes ++ rest) = true) ↔
      ∃ reader, Reader.between.scan bytes = some reader := by
  constructor
  · rintro ⟨rest, valid⟩
    rw [isValid_iff, Reader.scan_append] at valid
    obtain ⟨reader, read, _⟩ := Option.bind_eq_some_iff.mp valid
    exact ⟨reader, read⟩
  · rintro ⟨reader, read⟩
    obtain ⟨rest, complete⟩ := (Reader.Open.between.scan read).completable
    refine ⟨rest, ?_⟩
    rw [isValid_iff, Reader.scan_append, read]
    exact complete

theorem scan_eq_none_iff {bytes : List UInt8} :
    Reader.between.scan bytes = none ↔
      ∀ rest, isValid (bytes ++ rest) = false := by
  constructor
  · intro refused rest
    rw [Bool.eq_false_iff]
    intro valid
    obtain ⟨reader, read⟩ := begins_text_iff.mp ⟨rest, valid⟩
    rw [refused] at read
    cases read
  · intro never
    rw [Option.eq_none_iff_forall_ne_some]
    intro reader read
    obtain ⟨rest, valid⟩ := begins_text_iff.mpr ⟨reader, read⟩
    rw [never rest] at valid
    cases valid

end LatencyBench.Utf8
