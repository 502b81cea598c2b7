/-
Texts of visible characters.

What a peer makes up of its own accord appears in the head of its request: the
address it calls and the key it draws.  Whatever they are, their texts consist
of digits, letters and a few marks, so they end no line and no field.
-/

import LatencyBench.Net.Address
import LatencyBench.Proofs.Text.Encoding
import LatencyBench.Text.Base64

namespace LatencyBench

def IsVisible (character : Char) : Prop :=
  0x20 < character.toNat ∧ character.toNat < 0x7F

instance : DecidablePred IsVisible := fun character =>
  inferInstanceAs
    (Decidable (0x20 < character.toNat ∧ character.toNat < 0x7F))

def IsGraphic (text : String) : Prop :=
  ∀ character ∈ text.toList, IsVisible character

instance : DecidablePred IsGraphic := fun text =>
  List.decidableBAll IsVisible text.toList

variable {first second text : String}

theorem isGraphic_ofList {characters : List Char}
    (visible : ∀ character ∈ characters, IsVisible character) :
    IsGraphic (String.ofList characters) := by
  rw [IsGraphic, String.toList_ofList]
  exact visible

theorem IsGraphic.append (isFirst : IsGraphic first)
    (isSecond : IsGraphic second) : IsGraphic (first ++ second) := by
  rw [IsGraphic, String.toList_append]
  exact List.forall_mem_append.mpr ⟨isFirst, isSecond⟩

theorem isGraphic_intercalate (isMark : IsGraphic first) :
    ∀ {texts : List String}, (∀ text ∈ texts, IsGraphic text) →
      IsGraphic (first.intercalate texts)
  | [], _ => by
      rw [String.intercalate_nil]
      decide
  | [text], graphic => by
      rw [IsGraphic, String.toList_intercalate, List.map_singleton,
        List.intercalate_singleton]
      exact List.forall_mem_singleton.mp graphic
  | text :: next :: rest, graphic => by
      obtain ⟨isText, others⟩ := List.forall_mem_cons.mp graphic
      have onward := isGraphic_intercalate isMark others
      rw [IsGraphic, String.toList_intercalate] at onward ⊢
      rw [List.map_cons] at onward
      rw [List.map_cons, List.map_cons, List.intercalate_cons_cons]
      exact List.forall_mem_append.mpr
        ⟨List.forall_mem_append.mpr ⟨isText, isMark⟩, onward⟩

/-! ### Numbers -/

theorem isVisible_digitChar (digit : Nat) : IsVisible digit.digitChar := by
  by_cases small : digit < 16
  · revert digit
    decide
  · have star : digit.digitChar = '*' := by
      unfold Nat.digitChar
      repeat rw [if_neg (by omega)]
    rw [star]
    decide

theorem isVisible_toDigits {base : Nat} (more : 1 < base) (number : Nat) :
    ∀ character ∈ Nat.toDigits base number, IsVisible character := by
  induction number using Nat.strongRecOn with
  | ind number inductionHypothesis =>
      rw [Nat.toDigits_eq_if more]
      have last (digit : Nat) :
          ∀ character ∈ [digit.digitChar], IsVisible character :=
        List.forall_mem_singleton.mpr (isVisible_digitChar digit)
      split
      case isTrue => exact last number
      case isFalse long =>
          have fewer : number / base < number :=
            Nat.div_lt_self (by omega) more
          exact List.forall_mem_append.mpr
            ⟨inductionHypothesis _ fewer, last _⟩

theorem isGraphic_toString (number : Nat) : IsGraphic (toString number) :=
  isGraphic_ofList (isVisible_toDigits (by decide) number)

/-! ### Addresses -/

namespace Net

theorem isGraphic_octetsText (first second third fourth : Nat) :
    IsGraphic (octetsText first second third fourth) :=
  isGraphic_intercalate (by decide)
    (List.forall_mem_map.mpr fun number _ => isGraphic_toString number)

theorem isGraphic_groupsText (groups : List UInt16) :
    IsGraphic (groupsText groups) :=
  isGraphic_intercalate (by decide)
    (List.forall_mem_map.mpr fun group _ =>
      isGraphic_ofList (isVisible_toDigits (by decide) group.toNat))

theorem isGraphic_ipv6Text (groups : List UInt16) :
    IsGraphic (ipv6Text groups) := by
  unfold ipv6Text
  split
  · exact IsGraphic.append (by decide) (isGraphic_octetsText _ _ _ _)
  · dsimp only
    split
    · exact ((isGraphic_groupsText _).append (by decide)).append
        (isGraphic_groupsText _)
    · exact isGraphic_groupsText groups

theorem isGraphic_ipText (ip : IpAddress) : IsGraphic ip.text := by
  cases ip with
  | v4 first second third fourth => exact isGraphic_octetsText _ _ _ _
  | v6 groups => exact isGraphic_ipv6Text _

theorem isGraphic_socketText (address : SocketAddress) :
    IsGraphic address.text := by
  have ip := isGraphic_ipText address.ip
  have port := isGraphic_toString address.port.toNat
  unfold SocketAddress.text
  split
  · exact (ip.append (by decide)).append port
  · have scope : IsGraphic
        (if address.scope = 0 then ""
          else "%" ++ toString address.scope.toNat) := by
      split
      · decide
      · exact IsGraphic.append (by decide) (isGraphic_toString _)
    exact (((IsGraphic.append (by decide) ip).append scope).append
      (by decide)).append port

end Net

/-! ### Base 64 -/

namespace Base64

theorem isVisible_digit (value : Nat) : IsVisible (digit value) := by
  by_cases small : value < 64
  · revert value
    decide
  · have slash : digit value = '/' := by
      unfold digit
      repeat rw [if_neg (by omega)]
    rw [slash]
    decide

theorem isVisible_digits (bytes : List UInt8) :
    ∀ character ∈ digits bytes, IsVisible character := by
  have equals : IsVisible '=' := by decide
  induction bytes using digits.induct with
  | case1 => exact List.forall_mem_nil _
  | case2 first => simp [digits, isVisible_digit, equals]
  | case3 first second => simp [digits, isVisible_digit, equals]
  | case4 first second third rest inductionHypothesis =>
      simp only [digits, List.forall_mem_cons, isVisible_digit, true_and]
      exact inductionHypothesis

theorem isGraphic_encode (bytes : List UInt8) : IsGraphic (encode bytes) :=
  isGraphic_ofList (isVisible_digits bytes)

end Base64

/-! ### Bytes -/

namespace Utf8

theorem encode_eq (text : String) :
    encode text = text.toList.flatMap String.utf8EncodeChar := by
  rw [← encode_ofList, String.ofList_toList]

theorem encode_append (first second : String) :
    encode (first ++ second) = encode first ++ encode second := by
  rw [encode_eq, String.toList_append, List.flatMap_append, ← encode_eq,
    ← encode_eq]

theorem encode_visible (graphic : IsGraphic text) :
    ∀ byte ∈ encode text, 0x20 < byte.toNat ∧ byte.toNat < 0x7F := by
  intro byte member
  rw [encode_eq] at member
  obtain ⟨character, inText, inBytes⟩ := List.mem_flatMap.mp member
  obtain ⟨above, below⟩ := graphic character inText
  have ascii : character.toNat < 0x80 := by omega
  have single : String.utf8EncodeChar character =
      [UInt8.ofNat character.toNat] := by
    simp only [String.utf8EncodeChar]
    exact if_pos (Nat.le_of_lt_succ ascii)
  rw [single, List.mem_singleton] at inBytes
  rw [inBytes, toNat_ofNat (by omega)]
  exact ⟨above, below⟩

end Utf8

end LatencyBench
