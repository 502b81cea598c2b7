/-
Heads that are read as they were written.

A head is a first line, a line for each field, and an empty line.  A field is
written with one blank behind its colon; where its name is a token and its
value is visible, the reader keeps both as they are, and stands at the start
of the next line.
-/

import LatencyBench.Http.Head

namespace LatencyBench.Http

/-! ### Scanning -/

section Scanning

variable {σ τ α β : Type}

/-- A reader goes on where the first bytes have left it, and what comes behind
a head is left over. -/
theorem scan_append (step : σ → UInt8 → Reading σ α) (state : σ)
    (first second : List UInt8) :
    scan step state (first ++ second) =
      match scan step state first with
      | .going next => scan step next second
      | .found value rest => .found value (rest ++ second)
      | .refused error => .refused error := by
  induction first generalizing state with
  | nil => rfl
  | cons byte others inductionHypothesis =>
      simp only [List.cons_append, scan]
      cases step state byte with
      | going next => exact inductionHypothesis next
      | found value => rfl
      | refused error => rfl

theorem scan_append_going (step : σ → UInt8 → Reading σ α)
    {state next : σ} {first : List UInt8} (second : List UInt8)
    (going : scan step state first = .going next) :
    scan step state (first ++ second) = scan step next second := by
  rw [scan_append, going]

theorem scan_append_found (step : σ → UInt8 → Reading σ α)
    {state : σ} {value : α} {first rest : List UInt8}
    (second : List UInt8) (found : scan step state first = .found value rest) :
    scan step state (first ++ second) = .found value (rest ++ second) := by
  rw [scan_append, found]

def Reading.inside (wrap : σ → τ) (finish : α → β) :
    Reading σ α → Reading τ β
  | .going state => .going (wrap state)
  | .found value => .found (finish value)
  | .refused error => .refused error

theorem scan_inside {inner : σ → UInt8 → Reading σ α}
    {outer : τ → UInt8 → Reading τ β} {wrap : σ → τ} {finish : α → β}
    (steps : ∀ state byte,
      outer (wrap state) byte = (inner state byte).inside wrap finish)
    {state : σ} {value : α} {bytes rest : List UInt8}
    (found : scan inner state bytes = .found value rest) :
    scan outer (wrap state) bytes = .found (finish value) rest := by
  induction bytes generalizing state with
  | nil => cases found
  | cons byte others inductionHypothesis =>
      simp only [scan, steps] at found ⊢
      cases taken : inner state byte with
      | going later =>
          rw [taken] at found
          exact inductionHypothesis found
      | found other =>
          rw [taken] at found
          cases found
          rfl
      | refused error =>
          rw [taken] at found
          cases found

end Scanning

/-! ### Fields -/

def IsInk (byte : UInt8) : Prop := 0x20 < byte.toNat ∧ byte.toNat < 0x7F

theorem IsInk.ne {byte other : UInt8} (ink : IsInk byte)
    (blank : other.toNat ≤ 0x20) : byte ≠ other := by
  rintro rfl
  exact absurd ink.1 (Nat.not_lt.mpr blank)

theorem IsInk.isValue {byte : UInt8} (ink : IsInk byte) :
    isValue byte = true := by
  obtain ⟨above, below⟩ := ink
  have least : (0x20 : UInt8) ≤ byte := Nat.le_of_lt above
  have most : byte ≠ 0x7F := by
    rintro rfl
    exact absurd below (by decide)
  simp [Http.isValue, least, most]

theorem IsInk.isBlank {byte : UInt8} (ink : IsInk byte) :
    isBlank byte = false := by
  simp [Http.isBlank, ink.ne (show space.toNat ≤ 0x20 by decide),
    ink.ne (show tab.toNat ≤ 0x20 by decide)]

/-- Whether a field can be written so that it reads back. -/
structure Field.Plain (field : Field) : Prop where
  named : field.name ≠ []
  token : ∀ byte ∈ field.name, isToken byte = true
  ink : ∀ byte ∈ field.value, IsInk byte

def lineEnd : List UInt8 := [carriageReturn, lineFeed]

def Field.line (field : Field) : List UInt8 :=
  field.name ++ [colon, space] ++ field.value ++ lineEnd

theorem trimmedEnd_of_ink {value : List UInt8}
    (ink : ∀ byte ∈ value, IsInk byte) : trimmedEnd value = value := by
  have kept : value.reverse.dropWhile isBlank = value.reverse := by
    cases backwards : value.reverse with
    | nil => rfl
    | cons last others =>
        have member : last ∈ value := by
          rw [← List.mem_reverse, backwards]
          exact List.mem_cons_self
        apply List.dropWhile_cons_of_neg
        rw [(ink last member).isBlank]
        exact Bool.false_ne_true
  rw [trimmedEnd, kept, List.reverse_reverse]

namespace FieldReader

variable {fields : List Field} {name seen value : List UInt8}

theorem scan_name (token : ∀ byte ∈ name, isToken byte = true)
    (rest : List UInt8) :
    scan step ⟨fields, .inName seen⟩ (name ++ rest) =
      scan step ⟨fields, .inName (seen ++ name)⟩ rest := by
  induction name generalizing seen with
  | nil => rw [List.nil_append, List.append_nil]
  | cons byte others inductionHypothesis =>
      obtain ⟨isToken, later⟩ := List.forall_mem_cons.mp token
      have other : byte ≠ colon := by
        rintro rfl
        exact absurd isToken (by decide +kernel)
      rw [List.append_cons seen, ← inductionHypothesis later]
      simp only [List.cons_append, scan, step, if_neg other, if_pos isToken,
        moveTo]

theorem stepValue_ink {byte : UInt8} (ink : IsInk byte) (reader : FieldReader) :
    reader.stepValue name seen byte =
      reader.moveTo (.inValue name (seen ++ [byte])) := by
  rw [stepValue, if_neg (ink.ne (by decide)), if_neg (ink.ne (by decide)),
    if_pos ink.isValue]

theorem scan_value (ink : ∀ byte ∈ value, IsInk byte) (rest : List UInt8) :
    scan step ⟨fields, .inValue name seen⟩ (value ++ rest) =
      scan step ⟨fields, .inValue name (seen ++ value)⟩ rest := by
  induction value generalizing seen with
  | nil => rw [List.nil_append, List.append_nil]
  | cons byte others inductionHypothesis =>
      obtain ⟨isInk, later⟩ := List.forall_mem_cons.mp ink
      rw [List.append_cons seen, ← inductionHypothesis later]
      simp only [List.cons_append, scan, step, stepValue_ink isInk, moveTo]

/-- The blank behind the colon is skipped, and the value is kept with its last
byte. -/
theorem scan_afterColon (ink : ∀ byte ∈ value, IsInk byte)
    (rest : List UInt8) :
    scan step ⟨fields, .beforeValue name⟩
        (space :: (value ++ (lineEnd ++ rest))) =
      scan step ⟨fields ++ [⟨name, value⟩], .lineStart⟩ rest := by
  have kept := trimmedEnd_of_ink ink
  have skipped : isBlank space = true := by decide
  cases value with
  | nil =>
      simp [scan, step, skipped, moveTo, stepValue, keep, lineEnd, kept,
        show isBlank carriageReturn = false by decide]
  | cons first others =>
      obtain ⟨isInk, later⟩ := List.forall_mem_cons.mp ink
      simp only [List.cons_append, scan, step, skipped, if_true, moveTo,
        isInk.isBlank, Bool.false_eq_true, if_false, stepValue_ink isInk,
        List.nil_append]
      rw [scan_value later]
      simp [scan, step, moveTo, stepValue, keep, lineEnd, kept]

theorem scan_line {field : Field} (plain : field.Plain)
    (room : fields.length < maxFields) (rest : List UInt8) :
    scan step ⟨fields, .lineStart⟩ (field.line ++ rest) =
      scan step ⟨fields ++ [field], .lineStart⟩ rest := by
  obtain ⟨named, token, ink⟩ := plain
  rcases field with ⟨name, value⟩
  cases name with
  | nil => exact absurd rfl named
  | cons first others =>
      obtain ⟨isToken, later⟩ := List.forall_mem_cons.mp token
      have within : ¬ maxFields ≤ fields.length := Nat.not_le.mpr room
      have goesOn : first ≠ carriageReturn ∧ first ≠ lineFeed := by
        constructor <;> rintro rfl <;> exact absurd isToken (by decide +kernel)
      have begins : step ⟨fields, .lineStart⟩ first =
          .going ⟨fields, .inName [first]⟩ := by
        simp only [step, stepLineStart, if_neg goesOn.1, if_neg goesOn.2,
          if_neg within, if_pos isToken, moveTo]
      simp only [Field.line, List.cons_append, List.append_assoc, scan,
        begins]
      rw [scan_name later]
      simp only [List.cons_append, List.nil_append, scan, step, if_true,
        moveTo]
      exact scan_afterColon ink rest

theorem scan_lines {others : List Field}
    (plain : ∀ field ∈ others, field.Plain)
    (room : fields.length + others.length ≤ maxFields) :
    scan step ⟨fields, .lineStart⟩ (others.flatMap Field.line ++ lineEnd) =
      .found (fields ++ others) [] := by
  induction others generalizing fields with
  | nil =>
      rw [List.append_nil]
      rfl
  | cons field rest inductionHypothesis =>
      obtain ⟨isPlain, later⟩ := List.forall_mem_cons.mp plain
      rw [List.length_cons] at room
      rw [List.flatMap_cons, List.append_assoc,
        scan_line isPlain (by omega), inductionHypothesis later]
      · rw [List.append_assoc]
        rfl
      · rw [List.length_append, List.length_singleton]
        omega

end FieldReader

/-! ### Heads -/

section Heads

variable {fields : List Field} (plain : ∀ field ∈ fields, field.Plain)
  (room : fields.length ≤ maxFields)

include plain room

theorem scan_fields :
    scan FieldReader.step .start (fields.flatMap Field.line ++ lineEnd) =
      .found fields [] :=
  FieldReader.scan_lines plain (by simpa using room)

theorem scan_request {method target line : List UInt8} {minorVersion : Nat}
    (first : scan RequestReader.step .beforeLine line =
      .going (.inFields method target minorVersion .start)) :
    scan RequestReader.step .beforeLine
        (line ++ (fields.flatMap Field.line ++ lineEnd)) =
      .found
        { method := method
          target := target
          minorVersion := minorVersion
          fields := fields } [] := by
  rw [scan_append_going _ _ first]
  apply @scan_inside _ _ _ _ FieldReader.step RequestReader.step
    (.inFields method target minorVersion)
    (fun fields => ⟨method, target, minorVersion, fields⟩)
    _ _ _ _ _ (scan_fields plain room)
  intro state byte
  simp only [RequestReader.step]
  cases state.step byte <;> rfl

theorem scan_response {line : List UInt8} {minorVersion status : Nat}
    (first : scan ResponseReader.step .beforeLine line =
      .going (.inFields minorVersion status .start)) :
    scan ResponseReader.step .beforeLine
        (line ++ (fields.flatMap Field.line ++ lineEnd)) =
      .found
        { minorVersion := minorVersion
          status := status
          fields := fields } [] := by
  rw [scan_append_going _ _ first]
  apply @scan_inside _ _ _ _ FieldReader.step ResponseReader.step
    (.inFields minorVersion status)
    (fun fields => ⟨minorVersion, status, fields⟩)
    _ _ _ _ _ (scan_fields plain room)
  intro state byte
  simp only [ResponseReader.step]
  cases state.step byte <;> rfl

end Heads

end LatencyBench.Http
