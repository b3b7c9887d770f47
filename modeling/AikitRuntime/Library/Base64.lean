import Mathlib.Data.List.Basic
import Mathlib.Data.UInt

/-!
# Base64 for URLs

The encoding of bytes with the alphabet that is safe in URLs and without padding: three bytes are four digits of six
bits, and one or two bytes that are left over are two or three digits, filled up with zero bits. What is decoded is
what was encoded (`decode_encode`), and the length of a text is known (`length_encode`).
-/

namespace AikitRuntime.Library.Base64

/-- The alphabet. -/
def alphabet : List Char := "ABCDEFGHIJKLMNOPQRSTUVWXYZabcdefghijklmnopqrstuvwxyz0123456789-_".toList

/-- The character of a digit. -/
def charOf (digit : ℕ) : Char := alphabet.getD digit '-'

/-- The digit of a character. -/
def digitOf (c : Char) : Option ℕ := alphabet.findIdx? (· = c)

/-- Digits of six bits. -/
def digits : List UInt8 → List ℕ
  | a :: b :: c :: rest =>
    a.toNat / 4 :: (a.toNat % 4 * 16 + b.toNat / 16) :: (b.toNat % 16 * 4 + c.toNat / 64) :: c.toNat % 64 :: digits rest
  | [a, b] => [a.toNat / 4, a.toNat % 4 * 16 + b.toNat / 16, b.toNat % 16 * 4]
  | [a] => [a.toNat / 4, a.toNat % 4 * 16]
  | [] => []

/-- The bytes of digits: the bits that fill up the last digit must be zero. -/
def bytes : List ℕ → Option (List UInt8)
  | p :: q :: r :: s :: rest => (bytes rest).map fun later =>
    UInt8.ofNat (p * 4 + q / 16) :: UInt8.ofNat (q % 16 * 16 + r / 4) :: UInt8.ofNat (r % 4 * 64 + s) :: later
  | [p, q, r] =>
    if r % 4 = 0 then some [UInt8.ofNat (p * 4 + q / 16), UInt8.ofNat (q % 16 * 16 + r / 4)] else none
  | [p, q] => if q % 16 = 0 then some [UInt8.ofNat (p * 4 + q / 16)] else none
  | [_] => none
  | [] => some []

def encode (input : List UInt8) : List Char := (digits input).map charOf

def decode (text : List Char) : Option (List UInt8) := (text.mapM digitOf).bind bytes

theorem digitOf_charOf : ∀ digit < 64, digitOf (charOf digit) = some digit := by decide +kernel

/-- The characters take one byte each. -/
theorem utf8Size_charOf : ∀ digit < 64, (charOf digit).utf8Size = 1 := by decide +kernel

theorem digits_lt (input : List UInt8) : ∀ digit ∈ digits input, digit < 64 := by
  have hbyte (b : UInt8) : b.toNat < 256 := b.toNat_lt
  fun_induction digits input with
  | case1 a b c rest ih =>
    have ha := hbyte a
    have hb := hbyte b
    have hc := hbyte c
    intro digit hmem
    rcases List.mem_cons.mp hmem with rfl | hmem
    · omega
    rcases List.mem_cons.mp hmem with rfl | hmem
    · omega
    rcases List.mem_cons.mp hmem with rfl | hmem
    · omega
    rcases List.mem_cons.mp hmem with rfl | hmem
    · omega
    exact ih digit hmem
  | case2 a b =>
    have ha := hbyte a
    have hb := hbyte b
    simp only [List.mem_cons, List.not_mem_nil, or_false]
    rintro digit (rfl | rfl | rfl) <;> omega
  | case3 a =>
    have ha := hbyte a
    simp only [List.mem_cons, List.not_mem_nil, or_false]
    rintro digit (rfl | rfl) <;> omega
  | case4 => nofun

/-- A byte that is put together from its bits. -/
theorem ofNat_eq {b : UInt8} {n : ℕ} (h : n = b.toNat) : UInt8.ofNat n = b := by
  rw [h, UInt8.ofNat_toNat]

theorem bytes_digits (input : List UInt8) : bytes (digits input) = some input := by
  have hbyte (b : UInt8) : b.toNat < 256 := b.toNat_lt
  fun_induction digits input with
  | case1 a b c rest ih =>
    have ha := hbyte a
    have hb := hbyte b
    have hc := hbyte c
    rw [bytes, ih, Option.map_some, ofNat_eq (b := a) (by omega), ofNat_eq (b := b) (by omega),
      ofNat_eq (b := c) (by omega)]
  | case2 a b =>
    have ha := hbyte a
    have hb := hbyte b
    rw [bytes, if_pos (by omega), ofNat_eq (b := a) (by omega), ofNat_eq (b := b) (by omega)]
  | case3 a =>
    have ha := hbyte a
    rw [bytes, if_pos (by omega), ofNat_eq (b := a) (by omega)]
  | case4 => rfl

/-- What is decoded is what was encoded. -/
theorem decode_encode (input : List UInt8) : decode (encode input) = some input := by
  have hread : ∀ ds : List ℕ, (∀ digit ∈ ds, digit < 64) → (ds.map charOf).mapM digitOf = some ds := by
    intro ds h
    induction ds with
    | nil => rfl
    | cons digit rest ih =>
      rw [List.forall_mem_cons] at h
      rw [List.map_cons, List.mapM_cons, digitOf_charOf digit h.1, ih h.2]
      rfl
  unfold decode encode
  rw [hread _ (digits_lt input), Option.bind_some, bytes_digits]

theorem length_encode (input : List UInt8) : (encode input).length = (4 * input.length + 2) / 3 := by
  unfold encode
  rw [List.length_map]
  fun_induction digits input with
  | case1 a b c rest ih =>
    simp only [List.length_cons, ih]
    omega
  | case2 | case3 | case4 => simp

end AikitRuntime.Library.Base64
