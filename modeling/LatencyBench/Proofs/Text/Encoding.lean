/-
Which bytes are a text.

The reader of UTF-8 accepts exactly what writing a text in bytes produces.  The
first byte of a sequence says how long it is and, for some leads, bounds the
second one; these bounds are just those that keep the code point in the range
of sequences of that length and out of the surrogates.
-/

import LatencyBench.Proofs.Text.Utf8

namespace LatencyBench.Utf8

/-! ### First bytes -/

namespace Advance

theorem ofFirst_one {first : Nat} (ascii : first < 0x80) :
    ofFirst first = .completed (Char.ofNat first) :=
  if_pos ascii

theorem ofFirst_two : ∀ lead < 32, 2 ≤ lead →
    ofFirst (0xC0 + lead) = .moved (.inside 0 0x80 0xBF lead) := by
  decide

theorem ofFirst_three : ∀ lead < 16,
    ofFirst (0xE0 + lead) =
      .moved
        (.inside 1 (if lead = 0 then 0xA0 else 0x80)
          (if lead = 13 then 0x9F else 0xBF) lead) := by
  decide

theorem ofFirst_four : ∀ lead < 5,
    ofFirst (0xF0 + lead) =
      .moved
        (.inside 2 (if lead = 0 then 0x90 else 0x80)
          (if lead = 4 then 0x8F else 0xBF) lead) := by
  decide

theorem ofFirst_refused : ∀ first < 256,
    0x80 ≤ first ∧ first < 0xC2 ∨ 0xF5 ≤ first →
      ofFirst first = .refused := by
  decide +kernel

end Advance

/-! ### Steps of the reader -/

namespace Reader

variable {byte : UInt8} {rest : List UInt8} {needed lower upper code : Nat}

theorem scan_first {next : Reader}
    (moved : Advance.ofFirst byte.toNat = .moved next) :
    Reader.between.scan (byte :: rest) = next.scan rest := by
  rw [scan, advance, moved]

theorem scan_ascii (ascii : byte.toNat < 0x80) :
    Reader.between.scan (byte :: rest) = Reader.between.scan rest := by
  rw [scan, advance, Advance.ofFirst_one ascii]

theorem scan_last (within : lower ≤ byte.toNat ∧ byte.toNat ≤ upper) :
    (Reader.inside 0 lower upper code).scan (byte :: rest) =
      Reader.between.scan rest := by
  simp only [scan, advance, if_pos within]

theorem scan_more (within : lower ≤ byte.toNat ∧ byte.toNat ≤ upper) :
    (Reader.inside (needed + 1) lower upper code).scan (byte :: rest) =
      (Reader.inside needed 0x80 0xBF
        (code * 64 + (byte.toNat - 0x80))).scan rest := by
  simp only [scan, advance, if_pos within]

theorem scan_inside {bytes : List UInt8}
    (accepted : (Reader.inside needed lower upper code).scan bytes =
      some .between) :
    ∃ byte rest, bytes = byte :: rest ∧
      (lower ≤ byte.toNat ∧ byte.toNat ≤ upper) := by
  cases bytes with
  | nil => cases accepted
  | cons byte rest =>
      refine ⟨byte, rest, rfl, Classical.byContradiction fun beyond => ?_⟩
      simp only [scan, advance, if_neg beyond] at accepted
      cases accepted

end Reader

/-! ### Single characters -/

open String (utf8EncodeChar)

theorem val_ofNat (code : Nat) (valid : code.isValidChar) :
    (Char.ofNat code).val.toNat = code := by
  rw [Char.ofNat, dif_pos valid]
  rfl

theorem ofNat_eq {value : Nat} (byte : UInt8) (same : value = byte.toNat) :
    UInt8.ofNat value = byte := by
  rw [same, UInt8.ofNat_toNat]

theorem toNat_ofNat {value : Nat} (isByte : value < 256) :
    (UInt8.ofNat value).toNat = value :=
  UInt8.toNat_ofNat_of_lt' isByte

section Bytes

variable {first second third fourth : UInt8} {lead : Nat}

theorem utf8EncodeChar_one (ascii : first.toNat < 0x80) :
    utf8EncodeChar (Char.ofNat first.toNat) = [first] := by
  have value := val_ofNat first.toNat (.inl (by omega))
  simp only [utf8EncodeChar, value]
  rw [if_pos (by omega), ofNat_eq first rfl]

theorem utf8EncodeChar_two (isFirst : first.toNat = 0xC0 + lead)
    (least : 2 ≤ lead) (most : lead < 32)
    (isSecond : 0x80 ≤ second.toNat ∧ second.toNat ≤ 0xBF) :
    utf8EncodeChar (Char.ofNat (lead * 64 + (second.toNat - 0x80))) =
      [first, second] := by
  have value := val_ofNat
    (lead * 64 + (second.toNat - 0x80)) (.inl (by omega))
  simp only [utf8EncodeChar, value]
  rw [if_neg (by omega), if_pos (by omega),
    ofNat_eq first (by omega), ofNat_eq second (by omega)]

theorem utf8EncodeChar_three (isFirst : first.toNat = 0xE0 + lead)
    (most : lead < 16)
    (isSecond : 0x80 ≤ second.toNat ∧ second.toNat ≤ 0xBF)
    (isThird : 0x80 ≤ third.toNat ∧ third.toNat ≤ 0xBF)
    (long : lead = 0 → 0xA0 ≤ second.toNat)
    (proper : lead = 13 → second.toNat ≤ 0x9F) :
    utf8EncodeChar
        (Char.ofNat
          ((lead * 64 + (second.toNat - 0x80)) * 64 +
            (third.toNat - 0x80))) =
      [first, second, third] := by
  have value := val_ofNat
    ((lead * 64 + (second.toNat - 0x80)) * 64 +
      (third.toNat - 0x80)) (by unfold Nat.isValidChar; omega)
  simp only [utf8EncodeChar, value]
  rw [if_neg (by omega), if_neg (by omega), if_pos (by omega),
    ofNat_eq first (by omega), ofNat_eq second (by omega),
    ofNat_eq third (by omega)]

theorem utf8EncodeChar_four (isFirst : first.toNat = 0xF0 + lead)
    (most : lead < 5)
    (isSecond : 0x80 ≤ second.toNat ∧ second.toNat ≤ 0xBF)
    (isThird : 0x80 ≤ third.toNat ∧ third.toNat ≤ 0xBF)
    (isFourth : 0x80 ≤ fourth.toNat ∧ fourth.toNat ≤ 0xBF)
    (long : lead = 0 → 0x90 ≤ second.toNat)
    (inside : lead = 4 → second.toNat ≤ 0x8F) :
    utf8EncodeChar
        (Char.ofNat
          (((lead * 64 + (second.toNat - 0x80)) * 64 +
            (third.toNat - 0x80)) * 64 + (fourth.toNat - 0x80))) =
      [first, second, third, fourth] := by
  have value := val_ofNat
    (((lead * 64 + (second.toNat - 0x80)) * 64 +
      (third.toNat - 0x80)) * 64 + (fourth.toNat - 0x80))
    (by unfold Nat.isValidChar; omega)
  simp only [utf8EncodeChar, value]
  rw [if_neg (by omega), if_neg (by omega), if_neg (by omega),
    ofNat_eq first (by omega), ofNat_eq second (by omega),
    ofNat_eq third (by omega), ofNat_eq fourth (by omega)]

end Bytes

/-! ### Sequences -/

namespace Reader

variable {first second third fourth : UInt8} {lead : Nat}
  {rest : List UInt8}

theorem scan_two (isFirst : first.toNat = 0xC0 + lead)
    (least : 2 ≤ lead) (most : lead < 32)
    (isSecond : 0x80 ≤ second.toNat ∧ second.toNat ≤ 0xBF) :
    Reader.between.scan (first :: second :: rest) =
      Reader.between.scan rest := by
  have moved := Advance.ofFirst_two lead most least
  rw [← isFirst] at moved
  rw [scan_first moved, scan_last isSecond]

theorem scan_three (isFirst : first.toNat = 0xE0 + lead) (most : lead < 16)
    (isSecond : (if lead = 0 then 0xA0 else 0x80) ≤ second.toNat ∧
      second.toNat ≤ if lead = 13 then 0x9F else 0xBF)
    (isThird : 0x80 ≤ third.toNat ∧ third.toNat ≤ 0xBF) :
    Reader.between.scan (first :: second :: third :: rest) =
      Reader.between.scan rest := by
  have moved := Advance.ofFirst_three lead most
  rw [← isFirst] at moved
  rw [scan_first moved, scan_more isSecond, scan_last isThird]

theorem scan_four (isFirst : first.toNat = 0xF0 + lead) (most : lead < 5)
    (isSecond : (if lead = 0 then 0x90 else 0x80) ≤ second.toNat ∧
      second.toNat ≤ if lead = 4 then 0x8F else 0xBF)
    (isThird : 0x80 ≤ third.toNat ∧ third.toNat ≤ 0xBF)
    (isFourth : 0x80 ≤ fourth.toNat ∧ fourth.toNat ≤ 0xBF) :
    Reader.between.scan (first :: second :: third :: fourth :: rest) =
      Reader.between.scan rest := by
  have moved := Advance.ofFirst_four lead most
  rw [← isFirst] at moved
  rw [scan_first moved, scan_more isSecond, scan_more isThird,
    scan_last isFourth]

theorem scan_utf8EncodeChar (character : Char) (rest : List UInt8) :
    Reader.between.scan (utf8EncodeChar character ++ rest) =
      Reader.between.scan rest := by
  have valid : character.val.toNat.isValidChar := character.valid
  unfold Nat.isValidChar at valid
  simp only [utf8EncodeChar]
  generalize character.val.toNat = code at valid
  split
  · exact scan_ascii (by rw [toNat_ofNat] <;> omega)
  split
  · have isFirst : (UInt8.ofNat (code / 64 % 32 + 192)).toNat =
        0xC0 + code / 64 := by
      rw [toNat_ofNat] <;> omega
    apply scan_two isFirst (by omega) (by omega)
    rw [toNat_ofNat] <;> omega
  split
  · have isFirst : (UInt8.ofNat (code / 4096 % 16 + 224)).toNat =
        0xE0 + code / 4096 := by
      rw [toNat_ofNat] <;> omega
    apply scan_three isFirst (by omega)
    · rw [toNat_ofNat (by omega)]
      constructor <;> split <;> omega
    · rw [toNat_ofNat] <;> omega
  · have isFirst : (UInt8.ofNat (code / 262144 % 8 + 240)).toNat =
        0xF0 + code / 262144 := by
      rw [toNat_ofNat] <;> omega
    apply scan_four isFirst (by omega)
    · rw [toNat_ofNat (by omega)]
      constructor <;> split <;> omega
    · rw [toNat_ofNat] <;> omega
    · rw [toNat_ofNat] <;> omega

/-- Whether bytes begin with those of a character, in front of others that the
reader accepts. -/
def BeginsWell (bytes : List UInt8) : Prop :=
  ∃ character later, bytes = utf8EncodeChar character ++ later ∧
    Reader.between.scan later = some .between

theorem begins_one (ascii : first.toNat < 0x80)
    (accepted : Reader.between.scan (first :: rest) = some .between) :
    BeginsWell (first :: rest) := by
  rw [scan_ascii ascii] at accepted
  exact ⟨_, rest, by rw [utf8EncodeChar_one ascii]; rfl, accepted⟩

theorem begins_two (isFirst : first.toNat = 0xC0 + lead)
    (least : 2 ≤ lead) (most : lead < 32)
    (accepted : Reader.between.scan (first :: rest) = some .between) :
    BeginsWell (first :: rest) := by
  have moved := Advance.ofFirst_two lead most least
  rw [← isFirst] at moved
  rw [scan_first moved] at accepted
  obtain ⟨second, later, rfl, isSecond⟩ := scan_inside accepted
  rw [scan_last isSecond] at accepted
  have written := utf8EncodeChar_two isFirst least most isSecond
  exact ⟨_, later, by rw [written]; rfl, accepted⟩

theorem begins_three (isFirst : first.toNat = 0xE0 + lead) (most : lead < 16)
    (accepted : Reader.between.scan (first :: rest) = some .between) :
    BeginsWell (first :: rest) := by
  have moved := Advance.ofFirst_three lead most
  rw [← isFirst] at moved
  rw [scan_first moved] at accepted
  obtain ⟨second, _, rfl, isSecond⟩ := scan_inside accepted
  rw [scan_more isSecond] at accepted
  obtain ⟨third, later, rfl, isThird⟩ := scan_inside accepted
  rw [scan_last isThird] at accepted
  obtain ⟨continues, long, proper⟩ :
      (0x80 ≤ second.toNat ∧ second.toNat ≤ 0xBF) ∧
        (lead = 0 → 0xA0 ≤ second.toNat) ∧
        (lead = 13 → second.toNat ≤ 0x9F) := by
    split at isSecond <;> split at isSecond <;> omega
  have written := utf8EncodeChar_three isFirst most continues isThird long
    proper
  exact ⟨_, later, by rw [written]; rfl, accepted⟩

theorem begins_four (isFirst : first.toNat = 0xF0 + lead) (most : lead < 5)
    (accepted : Reader.between.scan (first :: rest) = some .between) :
    BeginsWell (first :: rest) := by
  have moved := Advance.ofFirst_four lead most
  rw [← isFirst] at moved
  rw [scan_first moved] at accepted
  obtain ⟨second, _, rfl, isSecond⟩ := scan_inside accepted
  rw [scan_more isSecond] at accepted
  obtain ⟨third, _, rfl, isThird⟩ := scan_inside accepted
  rw [scan_more isThird] at accepted
  obtain ⟨fourth, later, rfl, isFourth⟩ := scan_inside accepted
  rw [scan_last isFourth] at accepted
  obtain ⟨continues, long, inRange⟩ :
      (0x80 ≤ second.toNat ∧ second.toNat ≤ 0xBF) ∧
        (lead = 0 → 0x90 ≤ second.toNat) ∧
        (lead = 4 → second.toNat ≤ 0x8F) := by
    split at isSecond <;> split at isSecond <;> omega
  have written := utf8EncodeChar_four isFirst most continues isThird isFourth
    long inRange
  exact ⟨_, later, by rw [written]; rfl, accepted⟩

/-- What the reader accepts begins with the bytes of a character.  How many
they are is read off the first one. -/
theorem scan_begins
    (accepted : Reader.between.scan (first :: rest) = some .between) :
    BeginsWell (first :: rest) := by
  have isByte := first.toNat_lt
  have lead (base : Nat) (above : base ≤ first.toNat) :
      first.toNat = base + (first.toNat - base) := by omega
  by_cases ascii : first.toNat < 0x80
  · exact begins_one ascii accepted
  by_cases refused : first.toNat < 0xC2 ∨ 0xF5 ≤ first.toNat
  · have stuck := Advance.ofFirst_refused first.toNat isByte (by omega)
    rw [scan, advance, stuck] at accepted
    cases accepted
  by_cases two : first.toNat < 0xE0
  · exact begins_two (lead 0xC0 (by omega)) (by omega) (by omega) accepted
  by_cases three : first.toNat < 0xF0
  · exact begins_three (lead 0xE0 (by omega)) (by omega) accepted
  · exact begins_four (lead 0xF0 (by omega)) (by omega) accepted

end Reader

/-! ### Texts -/

theorem toList_loop (bytes : ByteArray) (index : Nat) (read : List UInt8) :
    ByteArray.toList.loop bytes index read =
      read.reverse ++ bytes.data.toList.drop index := by
  induction index, read using ByteArray.toList.loop.induct bytes with
  | case1 index read inside inductionHypothesis =>
      have here : bytes.get! index = bytes.data.toList.get ⟨index, inside⟩ :=
        getElem!_pos bytes.data index inside
      rw [ByteArray.toList.loop, if_pos inside, inductionHypothesis,
        List.reverse_cons, List.append_assoc, List.singleton_append, here,
        List.get_eq_getElem,
        List.getElem_cons_drop]
  | case2 index read beyond =>
      have none : bytes.data.toList.drop index = [] :=
        List.drop_of_length_le (Nat.le_of_not_lt beyond)
      rw [ByteArray.toList.loop, if_neg beyond, none, List.append_nil]

theorem encode_ofList (characters : List Char) :
    encode (String.ofList characters) =
      characters.flatMap utf8EncodeChar := by
  have bytes : (String.ofList characters).toUTF8 =
      (characters.flatMap utf8EncodeChar).toByteArray :=
    String.toByteArray_ofList
  rw [encode, bytes, ByteArray.toList, toList_loop, List.reverse_nil,
    List.nil_append, List.drop_zero, List.toList_data_toByteArray]

theorem isValid_flatMap (characters : List Char) :
    isValid (characters.flatMap utf8EncodeChar) = true := by
  rw [isValid_iff]
  induction characters with
  | nil => rfl
  | cons character rest inductionHypothesis =>
      rw [List.flatMap_cons, Reader.scan_utf8EncodeChar]
      exact inductionHypothesis

theorem exists_of_isValid {bytes : List UInt8} (valid : isValid bytes = true) :
    ∃ characters : List Char, characters.flatMap utf8EncodeChar = bytes := by
  rw [isValid_iff] at valid
  -- A character takes a byte at least, so what is left of the bytes shrinks.
  induction length : bytes.length using Nat.strongRecOn generalizing bytes with
  | ind size inductionHypothesis =>
      cases bytes with
      | nil => exact ⟨[], rfl⟩
      | cons byte rest =>
          obtain ⟨character, later, whole, accepted⟩ := Reader.scan_begins valid
          have some : 0 < (utf8EncodeChar character).length := by
            rw [String.length_utf8EncodeChar]
            exact character.utf8Size_pos
          have shorter : later.length < size := by
            rw [← length, whole, List.length_append]
            omega
          obtain ⟨characters, same⟩ :=
            inductionHypothesis later.length shorter accepted rfl
          exact ⟨character :: characters, by rw [List.flatMap_cons, same, whole]⟩

theorem isValid_iff_exists_text {bytes : List UInt8} :
    isValid bytes = true ↔ ∃ text : String, encode text = bytes := by
  constructor
  · intro valid
    obtain ⟨characters, same⟩ := exists_of_isValid valid
    exact ⟨String.ofList characters, (encode_ofList characters).trans same⟩
  · rintro ⟨text, rfl⟩
    rw [← @String.ofList_toList text, encode_ofList]
    exact isValid_flatMap text.toList

end LatencyBench.Utf8
