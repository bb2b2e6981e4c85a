import Mathlib.Data.List.Basic
import Mathlib.Tactic.Common

/-!
# Base64

The standard encoding of RFC 4648, padded, and its canonical decoder, which refuses a padding that
is not the last group's and bits that no byte holds. The decoder inverts the encoder
(`decode_encode`). The URL-safe encoding without padding reads back from its own texts only
(`decodeUrl_eq_some_iff`).
-/

namespace Rfc4648

def alphabet : List Char :=
  "ABCDEFGHIJKLMNOPQRSTUVWXYZabcdefghijklmnopqrstuvwxyz0123456789+/".toList

/-- The character of six bits. -/
def symbol (n : Nat) : Char := alphabet.getD n '='

/-- The six bits of a character. -/
def value (c : Char) : Option Nat := alphabet.idxOf? c

/-- Each three bytes as four characters, the last group padded. -/
def encode : List UInt8 → List Char
  | [] => []
  | [a] => [symbol (a.toNat / 4), symbol (a.toNat % 4 * 16), '=', '=']
  | [a, b] =>
    [symbol (a.toNat / 4), symbol (a.toNat % 4 * 16 + b.toNat / 16), symbol (b.toNat % 16 * 4), '=']
  | a :: b :: c :: bytes =>
    symbol (a.toNat / 4) :: symbol (a.toNat % 4 * 16 + b.toNat / 16) ::
      symbol (b.toNat % 16 * 4 + c.toNat / 64) :: symbol (c.toNat % 64) :: encode bytes

/-- The bytes of one group. -/
def decodeGroup (w x y z : Char) : Option (List UInt8) := do
  let w ← value w
  let x ← value x
  if z = '=' then
    if y = '=' then
      if x % 16 = 0 then pure [.ofNat (w * 4 + x / 16)] else none
    else
      let y ← value y
      if y % 4 = 0 then pure [.ofNat (w * 4 + x / 16), .ofNat (x % 16 * 16 + y / 4)] else none
  else
    let y ← value y
    let z ← value z
    pure [.ofNat (w * 4 + x / 16), .ofNat (x % 16 * 16 + y / 4), .ofNat (y % 4 * 64 + z)]

def decode : List Char → Option (List UInt8)
  | [] => some []
  | w :: x :: y :: z :: text => do
    let group ← decodeGroup w x y z
    let bytes ← decode text
    if z = '=' ∧ text ≠ [] then none else pure (group ++ bytes)
  | _ => none

theorem value_symbol : ∀ n < 64, value (symbol n) = some n := by decide +kernel

theorem symbol_ne_pad : ∀ n < 64, symbol n ≠ '=' := by decide +kernel

theorem ofNat_eq {n : Nat} {a : UInt8} (h : n = a.toNat) : UInt8.ofNat n = a := by
  rw [h, UInt8.ofNat_toNat]

theorem decodeGroup_one (a : UInt8) :
    decodeGroup (symbol (a.toNat / 4)) (symbol (a.toNat % 4 * 16)) '=' '=' = some [a] := by
  have bound := a.toNat_lt
  have byte : UInt8.ofNat (a.toNat / 4 * 4 + a.toNat % 4 * 16 / 16) = a := ofNat_eq (by omega)
  have low : a.toNat % 4 * 16 % 16 = 0 := by omega
  simp only [decodeGroup, value_symbol (a.toNat / 4) (by omega),
    value_symbol (a.toNat % 4 * 16) (by omega), Option.bind_eq_bind, Option.bind_some, low, byte,
    ↓reduceIte]
  rfl

theorem decodeGroup_two (a b : UInt8) :
    decodeGroup (symbol (a.toNat / 4)) (symbol (a.toNat % 4 * 16 + b.toNat / 16))
      (symbol (b.toNat % 16 * 4)) '=' = some [a, b] := by
  have boundA := a.toNat_lt
  have boundB := b.toNat_lt
  have first : UInt8.ofNat (a.toNat / 4 * 4 + (a.toNat % 4 * 16 + b.toNat / 16) / 16) = a :=
    ofNat_eq (by omega)
  have second : UInt8.ofNat ((a.toNat % 4 * 16 + b.toNat / 16) % 16 * 16 +
      b.toNat % 16 * 4 / 4) = b := ofNat_eq (by omega)
  have low : b.toNat % 16 * 4 % 4 = 0 := by omega
  simp only [decodeGroup, value_symbol (a.toNat / 4) (by omega),
    value_symbol (a.toNat % 4 * 16 + b.toNat / 16) (by omega),
    value_symbol (b.toNat % 16 * 4) (by omega), symbol_ne_pad (b.toNat % 16 * 4) (by omega),
    Option.bind_eq_bind, Option.bind_some, low, first, second, ↓reduceIte]
  rfl

theorem decodeGroup_three (a b c : UInt8) :
    decodeGroup (symbol (a.toNat / 4)) (symbol (a.toNat % 4 * 16 + b.toNat / 16))
      (symbol (b.toNat % 16 * 4 + c.toNat / 64)) (symbol (c.toNat % 64)) = some [a, b, c] := by
  have boundA := a.toNat_lt
  have boundB := b.toNat_lt
  have boundC := c.toNat_lt
  have first : UInt8.ofNat (a.toNat / 4 * 4 + (a.toNat % 4 * 16 + b.toNat / 16) / 16) = a :=
    ofNat_eq (by omega)
  have second : UInt8.ofNat ((a.toNat % 4 * 16 + b.toNat / 16) % 16 * 16 +
      (b.toNat % 16 * 4 + c.toNat / 64) / 4) = b := ofNat_eq (by omega)
  have third : UInt8.ofNat ((b.toNat % 16 * 4 + c.toNat / 64) % 4 * 64 + c.toNat % 64) = c :=
    ofNat_eq (by omega)
  simp only [decodeGroup, value_symbol (a.toNat / 4) (by omega),
    value_symbol (a.toNat % 4 * 16 + b.toNat / 16) (by omega),
    value_symbol (b.toNat % 16 * 4 + c.toNat / 64) (by omega),
    value_symbol (c.toNat % 64) (by omega), symbol_ne_pad (c.toNat % 64) (by omega),
    Option.bind_eq_bind, Option.bind_some, first, second, third, ↓reduceIte]
  rfl

theorem decode_encode (bytes : List UInt8) : decode (encode bytes) = some bytes := by
  fun_induction encode bytes with
  | case1 => rfl
  | case2 a => simp [decode, decodeGroup_one]
  | case3 a b => simp [decode, decodeGroup_two]
  | case4 a b c bytes ih =>
    have bound := c.toNat_lt
    simp [decode, decodeGroup_three, ih, symbol_ne_pad (c.toNat % 64) (by omega)]

/-- The encoding is whole groups. -/
theorem encode_length (bytes : List UInt8) : (encode bytes).length % 4 = 0 := by
  fun_induction encode bytes with
  | case1 => rfl
  | case2 => simp
  | case3 => simp
  | case4 a b c bytes ih =>
    simp only [List.length_cons]
    omega

/-- A property of the alphabet and of the padding holds of every character written. -/
theorem forall_mem_encode {P : Char → Prop} (symbols : ∀ n < 64, P (symbol n)) (pad : P '=')
    (bytes : List UInt8) : ∀ c ∈ encode bytes, P c := by
  fun_induction encode bytes with
  | case1 => simp
  | case2 a =>
    have bound := a.toNat_lt
    simp only [List.forall_mem_cons, List.not_mem_nil, false_implies, implies_true, and_true]
    exact ⟨symbols _ (by omega), symbols _ (by omega), pad, pad⟩
  | case3 a b =>
    have boundA := a.toNat_lt
    have boundB := b.toNat_lt
    simp only [List.forall_mem_cons, List.not_mem_nil, false_implies, implies_true, and_true]
    exact ⟨symbols _ (by omega), symbols _ (by omega), symbols _ (by omega), pad⟩
  | case4 a b c bytes ih =>
    have boundA := a.toNat_lt
    have boundB := b.toNat_lt
    have boundC := c.toNat_lt
    simp only [List.forall_mem_cons]
    exact ⟨symbols _ (by omega), symbols _ (by omega), symbols _ (by omega), symbols _ (by omega),
      ih⟩

theorem symbol_ascii : ∀ n < 64, (symbol n).toNat < 0x80 := by decide +kernel

/-- The encoding is ASCII. -/
theorem encode_ascii (bytes : List UInt8) : ∀ c ∈ encode bytes, c.toNat < 0x80 :=
  forall_mem_encode symbol_ascii (by decide) bytes

theorem encode_ne_nil {bytes : List UInt8} (filled : bytes ≠ []) : encode bytes ≠ [] := by
  intro none
  have back := decode_encode bytes
  rw [none, decode] at back
  exact filled (Option.some.inj back).symm

/-! ## URL-safe, without padding -/

def toUrl (c : Char) : Char := if c = '+' then '-' else if c = '/' then '_' else c

def ofUrl (c : Char) : Char := if c = '-' then '+' else if c = '_' then '/' else c

def encodeUrl (bytes : List UInt8) : List Char := ((encode bytes).filter (· != '=')).map toUrl

/-- Padded to whole groups. -/
def pad (text : List Char) : List Char :=
  text ++ List.replicate ((4 - text.length % 4) % 4) '='

/-- Only the text the encoder writes. -/
def decodeUrl (text : List Char) : Option (List UInt8) :=
  (decode (pad (text.map ofUrl))).filter fun bytes => encodeUrl bytes == text

theorem ofUrl_toUrl_symbol : ∀ n < 64, ofUrl (toUrl (symbol n)) = symbol n := by decide +kernel

theorem map_ofUrl_encodeUrl (bytes : List UInt8) :
    (encodeUrl bytes).map ofUrl = (encode bytes).filter (· != '=') := by
  have back : ∀ c ∈ encode bytes, c ≠ '=' → ofUrl (toUrl c) = c :=
    forall_mem_encode (fun n within _ => ofUrl_toUrl_symbol n within) (fun pads => absurd rfl pads)
      bytes
  rw [encodeUrl, List.map_map]
  conv_rhs => rw [← List.map_id ((encode bytes).filter (· != '='))]
  refine List.map_congr_left fun c mem => ?_
  obtain ⟨written, unpadded⟩ := List.mem_filter.mp mem
  exact back c written (by simpa using unpadded)

theorem pad_cons_group (w x y z : Char) (text : List Char) :
    pad (w :: x :: y :: z :: text) = w :: x :: y :: z :: pad text := by
  have groups : (text.length + 1 + 1 + 1 + 1) % 4 = text.length % 4 := by omega
  simp only [pad, List.length_cons, groups, List.cons_append]

/-- The padding is what the length lacks. -/
theorem pad_filter_encode (bytes : List UInt8) :
    pad ((encode bytes).filter (· != '=')) = encode bytes := by
  fun_induction encode bytes with
  | case1 => rfl
  | case2 a =>
    have bound := a.toNat_lt
    simp [symbol_ne_pad (a.toNat / 4) (by omega), symbol_ne_pad (a.toNat % 4 * 16) (by omega), pad]
  | case3 a b =>
    have boundA := a.toNat_lt
    have boundB := b.toNat_lt
    simp [symbol_ne_pad (a.toNat / 4) (by omega),
      symbol_ne_pad (a.toNat % 4 * 16 + b.toNat / 16) (by omega),
      symbol_ne_pad (b.toNat % 16 * 4) (by omega), pad]
  | case4 a b c bytes ih =>
    have boundA := a.toNat_lt
    have boundB := b.toNat_lt
    have boundC := c.toNat_lt
    simp only [List.filter_cons, bne_iff_ne, ne_eq, symbol_ne_pad (a.toNat / 4) (by omega),
      symbol_ne_pad (a.toNat % 4 * 16 + b.toNat / 16) (by omega),
      symbol_ne_pad (b.toNat % 16 * 4 + c.toNat / 64) (by omega),
      symbol_ne_pad (c.toNat % 64) (by omega), not_false_eq_true, ↓reduceIte, pad_cons_group, ih]

/-- A text decodes to bytes exactly when it is the one the encoder writes for them. -/
theorem decodeUrl_eq_some_iff {text : List Char} {bytes : List UInt8} :
    decodeUrl text = some bytes ↔ text = encodeUrl bytes := by
  rw [decodeUrl, Option.filter_eq_some_iff, beq_iff_eq]
  constructor
  · rintro ⟨-, own⟩
    exact own.symm
  · rintro rfl
    refine ⟨?_, rfl⟩
    rw [map_ofUrl_encodeUrl, pad_filter_encode, decode_encode]

/-- Six bits a character, as many as hold the bytes. -/
theorem encodeUrl_length (bytes : List UInt8) :
    (encodeUrl bytes).length = (4 * bytes.length + 2) / 3 := by
  rw [encodeUrl, List.length_map]
  fun_induction encode bytes with
  | case1 => rfl
  | case2 a =>
    have bound := a.toNat_lt
    simp [symbol_ne_pad (a.toNat / 4) (by omega), symbol_ne_pad (a.toNat % 4 * 16) (by omega)]
  | case3 a b =>
    have boundA := a.toNat_lt
    have boundB := b.toNat_lt
    simp [symbol_ne_pad (a.toNat / 4) (by omega),
      symbol_ne_pad (a.toNat % 4 * 16 + b.toNat / 16) (by omega),
      symbol_ne_pad (b.toNat % 16 * 4) (by omega)]
  | case4 a b c bytes ih =>
    have boundA := a.toNat_lt
    have boundB := b.toNat_lt
    have boundC := c.toNat_lt
    simp only [List.filter_cons, bne_iff_ne, ne_eq, symbol_ne_pad (a.toNat / 4) (by omega),
      symbol_ne_pad (a.toNat % 4 * 16 + b.toNat / 16) (by omega),
      symbol_ne_pad (b.toNat % 16 * 4 + c.toNat / 64) (by omega),
      symbol_ne_pad (c.toNat % 64) (by omega), not_false_eq_true, ↓reduceIte, List.length_cons, ih]
    omega

/-- A property of the URL-safe alphabet holds of every character written. -/
theorem forall_mem_encodeUrl {P : Char → Prop} (symbols : ∀ n < 64, P (toUrl (symbol n)))
    (bytes : List UInt8) : ∀ c ∈ encodeUrl bytes, P c := by
  have written : ∀ c ∈ encode bytes, c ≠ '=' → P (toUrl c) :=
    forall_mem_encode (fun n within _ => symbols n within) (fun pads => absurd rfl pads) bytes
  intro c mem
  obtain ⟨c', mem', rfl⟩ := List.mem_map.mp mem
  obtain ⟨own, unpadded⟩ := List.mem_filter.mp mem'
  exact written c' own (by simpa using unpadded)

end Rfc4648
