import Mathlib.Data.List.Basic
import Mathlib.Tactic.Common

/-!
# UTF-16

The code units of a text, and the text of code units. A surrogate that has no partner decodes to
nothing, so exactly the encodings decode (`decode_eq_some_iff`).
-/

namespace Utf16

/-- The code units of a character: one, or a pair of surrogates. -/
def encodeChar (c : Char) : List UInt16 :=
  if c.toNat < 0x10000 then [.ofNat c.toNat]
  else
    [.ofNat (0xd800 + (c.toNat - 0x10000) / 0x400), .ofNat (0xdc00 + (c.toNat - 0x10000) % 0x400)]

def encode (text : List Char) : List UInt16 := text.flatMap encodeChar

/-- The text of code units, when every surrogate is one of a pair. -/
def decode : List UInt16 → Option (List Char)
  | [] => some []
  | unit :: rest =>
    if unit.toNat < 0xd800 ∨ 0xe000 ≤ unit.toNat then
      (decode rest).map (Char.ofNat unit.toNat :: ·)
    else
      match rest with
      | [] => none
      | low :: rest =>
        if unit.toNat < 0xdc00 ∧ 0xdc00 ≤ low.toNat ∧ low.toNat < 0xe000 then
          (decode rest).map
            (Char.ofNat (0x10000 + (unit.toNat - 0xd800) * 0x400 + (low.toNat - 0xdc00)) :: ·)
        else none

theorem decode_scalar {unit : UInt16} (rest : List UInt16)
    (scalar : unit.toNat < 0xd800 ∨ 0xe000 ≤ unit.toNat) :
    decode (unit :: rest) = (decode rest).map (Char.ofNat unit.toNat :: ·) := by
  rw [decode.eq_def]
  exact if_pos scalar

theorem decode_surrogate {unit low : UInt16} (rest : List UInt16)
    (surrogate : ¬ (unit.toNat < 0xd800 ∨ 0xe000 ≤ unit.toNat)) :
    decode (unit :: low :: rest) =
      if unit.toNat < 0xdc00 ∧ 0xdc00 ≤ low.toNat ∧ low.toNat < 0xe000 then
        (decode rest).map
          (Char.ofNat (0x10000 + (unit.toNat - 0xd800) * 0x400 + (low.toNat - 0xdc00)) :: ·)
      else none := by
  rw [decode.eq_def]
  exact if_neg surrogate

theorem toNat_ofNat {n : Nat} (h : n < 0xd800 ∨ 0xe000 ≤ n ∧ n < 0x110000) :
    (Char.ofNat n).toNat = n := by
  have valid : n.isValidChar := by
    rcases h with low | ⟨high, bound⟩
    · exact .inl low
    · exact .inr ⟨by omega, bound⟩
  rw [Char.ofNat, dif_pos valid]
  rfl

theorem toNat_bounds (c : Char) : c.toNat < 0xd800 ∨ 0xe000 ≤ c.toNat ∧ c.toNat < 0x110000 := by
  rcases c.valid with low | ⟨high, bound⟩
  · exact .inl low
  · exact .inr ⟨by change 0xe000 ≤ c.val.toNat; omega, bound⟩

theorem toNat_unit {n : Nat} (h : n < 0x10000) : (UInt16.ofNat n).toNat = n := by
  rw [UInt16.toNat_ofNat']
  exact Nat.mod_eq_of_lt h

theorem decode_encodeChar (c : Char) (rest : List UInt16) :
    decode (encodeChar c ++ rest) = (decode rest).map (c :: ·) := by
  have bounds := toNat_bounds c
  unfold encodeChar
  split
  next one =>
    have unit := toNat_unit one
    rw [List.singleton_append, decode_scalar rest (by rw [unit]; omega), unit, Char.ofNat_toNat]
  next pair =>
    have high := @toNat_unit (0xd800 + (c.toNat - 0x10000) / 0x400) (by omega)
    have low := @toNat_unit (0xdc00 + (c.toNat - 0x10000) % 0x400) (by omega)
    have whole : 0x10000 + (0xd800 + (c.toNat - 0x10000) / 0x400 - 0xd800) * 0x400 +
        (0xdc00 + (c.toNat - 0x10000) % 0x400 - 0xdc00) = c.toNat := by omega
    rw [List.cons_append, List.singleton_append, decode_surrogate rest (by rw [high]; omega), high,
      low, if_pos (by omega), whole, Char.ofNat_toNat]

theorem decode_encode (text : List Char) : decode (encode text) = some text := by
  induction text with
  | nil => rfl
  | cons c text ih =>
    change decode (encodeChar c ++ encode text) = _
    rw [decode_encodeChar, ih]
    rfl

/-- A text of one unit a character. -/
theorem length_encode {text : List Char} (h : ∀ c ∈ text, c.toNat < 0x10000) :
    (encode text).length = text.length := by
  induction text with
  | nil => rfl
  | cons c text ih =>
    rw [List.forall_mem_cons] at h
    have own : encodeChar c = [.ofNat c.toNat] := if_pos h.1
    rw [encode, List.flatMap_cons, own, List.length_append, List.length_cons]
    have rest := ih h.2
    rw [encode] at rest
    rw [rest, List.length_nil, List.length_cons]
    omega

theorem encode_injective : Function.Injective encode := by
  intro text text' same
  have texts := congrArg decode same
  rw [decode_encode, decode_encode] at texts
  exact Option.some.inj texts

theorem encode_of_decode {units : List UInt16} {text : List Char}
    (h : decode units = some text) : encode text = units := by
  induction units using decode.induct generalizing text with
  | case1 =>
    rw [decode] at h
    cases h
    rfl
  | case2 unit rest scalar ih =>
    rw [decode_scalar rest scalar] at h
    obtain ⟨text, decoded, rfl⟩ := Option.map_eq_some_iff.mp h
    have bound := unit.toNat_lt
    have c := @toNat_ofNat unit.toNat (by omega)
    change encodeChar _ ++ encode text = _
    rw [ih decoded, encodeChar, c, if_pos (by omega), UInt16.ofNat_toNat, List.singleton_append]
  | case3 unit surrogate =>
    rw [decode, if_neg surrogate] at h
    cases h
  | case4 unit surrogate low rest pair ih =>
    rw [decode_surrogate rest surrogate, if_pos pair] at h
    obtain ⟨text, decoded, rfl⟩ := Option.map_eq_some_iff.mp h
    have c := @toNat_ofNat
      (0x10000 + (unit.toNat - 0xd800) * 0x400 + (low.toNat - 0xdc00)) (by omega)
    change encodeChar _ ++ encode text = _
    rw [ih decoded, encodeChar, c, if_neg (by omega)]
    have high' : 0xd800 + (0x10000 + (unit.toNat - 0xd800) * 0x400 + (low.toNat - 0xdc00) -
        0x10000) / 0x400 = unit.toNat := by omega
    have low' : 0xdc00 + (0x10000 + (unit.toNat - 0xd800) * 0x400 + (low.toNat - 0xdc00) -
        0x10000) % 0x400 = low.toNat := by omega
    rw [high', low', UInt16.ofNat_toNat, UInt16.ofNat_toNat]
    rfl
  | case5 unit surrogate low rest single =>
    rw [decode_surrogate rest surrogate, if_neg single] at h
    cases h

/-- Exactly the encodings decode. -/
theorem decode_eq_some_iff {units : List UInt16} {text : List Char} :
    decode units = some text ↔ units = encode text := by
  constructor
  · intro h
    exact (encode_of_decode h).symm
  · rintro rfl
    exact decode_encode text

end Utf16
