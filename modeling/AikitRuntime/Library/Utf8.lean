import Mathlib.Data.List.Basic
import Mathlib.Algebra.Ring.Nat

/-!
# Texts and their bytes

A text is written as bytes, one for an ASCII character and more for any other, of which none is ASCII. So an ASCII
byte is a character of its own, and what follows it begins with a character.
-/

namespace AikitRuntime.Library.Utf8

/-! ### Bytes that begin a character -/

/-- The byte is no continuation byte. -/
def Leads (b : UInt8) : Bool := b < 0x80 || 0xc0 ≤ b

theorem le_or (a b : UInt8) : b ≤ a ||| b := by
  rw [UInt8.le_iff_toNat_le, UInt8.toNat_or]
  exact Nat.right_le_or

variable {b : UInt8}

theorem leads_or (a : UInt8) (h : 0xc0 ≤ b) : Leads (a ||| b) = true :=
  Bool.or_eq_true_iff.mpr (.inr (decide_eq_true (UInt8.le_trans h (le_or a b))))

/-- The bytes of a character: the first leads, and unless it is the only one, no byte is ASCII. -/
theorem utf8EncodeChar_shape (c : Char) : ∃ first rest, String.utf8EncodeChar c = first :: rest ∧ Leads first = true ∧
    (rest = [] ∨ ∀ b ∈ first :: rest, 0x80 ≤ b) := by
  have hhigh : ∀ a b : UInt8, 0x80 ≤ b → 0x80 ≤ a ||| b := fun a b hb => UInt8.le_trans hb (le_or a b)
  rcases (by have := c.utf8Size_pos; have := c.utf8Size_le_four; omega :
    c.utf8Size = 1 ∨ c.utf8Size = 2 ∨ c.utf8Size = 3 ∨ c.utf8Size = 4) with h | h | h | h
  · refine ⟨_, _, String.utf8EncodeChar_eq_singleton h, ?_, .inl rfl⟩
    have hsmall := Char.utf8Size_eq_one_iff.mp h
    rw [UInt32.le_iff_toNat_le] at hsmall
    refine Bool.or_eq_true_iff.mpr (.inl (decide_eq_true ?_))
    rw [UInt8.lt_iff_toNat_lt, UInt32.toNat_toUInt8]
    exact Nat.lt_of_le_of_lt (Nat.mod_le _ _) (Nat.lt_succ_of_le hsmall)
  · refine ⟨_, _, String.utf8EncodeChar_eq_cons_cons h, leads_or _ (by decide), .inr fun b hb => ?_⟩
    simp only [List.mem_cons, List.not_mem_nil, or_false] at hb
    rcases hb with rfl | rfl <;> exact hhigh _ _ (by decide)
  · refine ⟨_, _, String.utf8EncodeChar_eq_cons_cons_cons h, leads_or _ (by decide), .inr fun b hb => ?_⟩
    simp only [List.mem_cons, List.not_mem_nil, or_false] at hb
    rcases hb with rfl | rfl | rfl <;> exact hhigh _ _ (by decide)
  · refine ⟨_, _, String.utf8EncodeChar_eq_cons_cons_cons_cons h, leads_or _ (by decide), .inr fun b hb => ?_⟩
    simp only [List.mem_cons, List.not_mem_nil, or_false] at hb
    rcases hb with rfl | rfl | rfl | rfl <;> exact hhigh _ _ (by decide)

variable {chars : List Char}

theorem leads_head (h : (chars.flatMap String.utf8EncodeChar).head? = some b) :
    Leads b = true := by
  cases chars with
  | nil => cases h
  | cons c chars =>
    obtain ⟨first, rest, hbytes, hleads, -⟩ := utf8EncodeChar_shape c
    rw [List.flatMap_cons, hbytes] at h
    cases h
    exact hleads

/-- **Behind an ASCII byte a character begins**, or the text ends. -/
theorem leads_after_ascii {i : Nat} {b' : UInt8}
    (hget : (chars.flatMap String.utf8EncodeChar)[i]? = some b) (hascii : b < 0x80)
    (hnext : (chars.flatMap String.utf8EncodeChar)[i + 1]? = some b') : Leads b' = true := by
  induction chars generalizing i with
  | nil => cases hget
  | cons c chars ih =>
    obtain ⟨first, rest, hbytes, -, hhigh⟩ := utf8EncodeChar_shape c
    rw [List.flatMap_cons, hbytes] at hget hnext
    by_cases hi : i < (first :: rest).length
    · rw [List.getElem?_append_left hi] at hget
      rcases hhigh with rfl | hhigh
      · obtain rfl : i = 0 := by simpa using hi
        exact leads_head (List.head?_eq_getElem? ▸ hnext)
      · exact absurd hascii (UInt8.not_lt.mpr (hhigh b (List.mem_of_getElem? hget)))
    · rw [List.getElem?_append_right (by omega)] at hget hnext
      rw [show i + 1 - (first :: rest).length = i - (first :: rest).length + 1 by omega] at hnext
      exact ih hget hnext

/-! ### ASCII -/

def IsAscii (c : Char) : Prop := c.toNat < 0x80

instance (c : Char) : Decidable (IsAscii c) := inferInstanceAs (Decidable (_ < _))

theorem flatMap_ascii (h : ∀ c ∈ chars, IsAscii c) :
    chars.flatMap String.utf8EncodeChar = chars.map Char.toUInt8 := by
  induction chars with
  | nil => rfl
  | cons c chars ih =>
    have hsize : c.utf8Size = 1 := by
      rw [Char.utf8Size_eq_one_iff, UInt32.le_iff_toNat_le]
      exact Nat.le_of_lt_succ (h c List.mem_cons_self)
    rw [List.flatMap_cons, String.utf8EncodeChar_eq_singleton hsize, ih fun d hd => h d (List.mem_cons_of_mem _ hd)]
    rfl

theorem bytes_eq (text : String) : text.toByteArray.data.toList = text.toList.flatMap String.utf8EncodeChar := by
  rw [← String.utf8Encode_toList, List.utf8Encode, List.data_toByteArray]

theorem isAscii_of_bytes (h : ∀ b ∈ chars.flatMap String.utf8EncodeChar, b < 0x80) :
    ∀ c ∈ chars, IsAscii c := by
  intro c hc
  by_contra hwide
  obtain ⟨first, rest, hbytes, -, hshape⟩ := utf8EncodeChar_shape c
  have hmem {b : UInt8} (hb : b ∈ first :: rest) : b < 0x80 := h b (List.mem_flatMap.mpr ⟨c, hc, hbytes ▸ hb⟩)
  rcases hshape with rfl | hhigh
  · refine hwide ?_
    have hsize : c.utf8Size = 1 := by rw [← String.length_utf8EncodeChar, hbytes, List.length_singleton]
    rw [Char.utf8Size_eq_one_iff, UInt32.le_iff_toNat_le] at hsize
    exact Nat.lt_succ_of_le hsize
  · exact UInt8.not_lt.mpr (hhigh first List.mem_cons_self) (hmem List.mem_cons_self)

/-- The characters of a text, off its bytes where each is a character. -/
def charsOf (text : String) : List Char :=
  if text.toByteArray.data.toList.all (· < 0x80) then
    text.toByteArray.data.toList.map fun b => Char.ofNat b.toNat
  else text.toList

theorem charsOf_eq (text : String) : charsOf text = text.toList := by
  unfold charsOf
  split
  · next hall =>
    rw [bytes_eq, List.all_eq_true] at hall
    have hascii := isAscii_of_bytes fun b hb => of_decide_eq_true (hall b hb)
    rw [bytes_eq, flatMap_ascii hascii, List.map_map]
    refine (List.map_congr_left fun c hc => ?_).trans (List.map_id _)
    have hsmall : c.toNat < 2 ^ 8 := Nat.lt_trans (hascii c hc) (by decide)
    show Char.ofNat c.toUInt8.toNat = c
    rw [Char.toUInt8, UInt32.toNat_toUInt8, show c.val.toNat = c.toNat from rfl, Nat.mod_eq_of_lt hsmall,
      Char.ofNat_toNat]
  · rfl

/-- Texts are compared by these characters: an order that is quick to evaluate. -/
instance (priority := high) decidableLt (a b : String) : Decidable (a < b) :=
  decidable_of_iff (charsOf a < charsOf b) (by rw [charsOf_eq, charsOf_eq]; rfl)

/-- The bytes of some ASCII characters. -/
def asciiBytes (chars : List Char) : List UInt8 := chars.map Char.toUInt8

@[simp] theorem asciiBytes_nil : asciiBytes [] = [] := rfl

@[simp] theorem asciiBytes_cons (c : Char) (chars : List Char) :
    asciiBytes (c :: chars) = c.toUInt8 :: asciiBytes chars := rfl

@[simp] theorem asciiBytes_append (chars rest : List Char) :
    asciiBytes (chars ++ rest) = asciiBytes chars ++ asciiBytes rest := List.map_append

@[simp] theorem length_asciiBytes (chars : List Char) : (asciiBytes chars).length = chars.length := List.length_map _

/-! ### Decimal digits -/

/-- The last digits of a number. -/
def digitChars : Nat → Nat → List Char
  | 0, _ => []
  | width + 1, n => digitChars width (n / 10) ++ [Nat.digitChar (n % 10)]

@[simp] theorem length_digitChars (width n : Nat) : (digitChars width n).length = width := by
  induction width generalizing n with
  | zero => rfl
  | succ width ih => rw [digitChars, List.length_append, ih, List.length_singleton]

theorem digitChars_zero (width : Nat) : digitChars width 0 = List.replicate width '0' := by
  induction width with
  | zero => rfl
  | succ width ih => rw [digitChars, Nat.zero_div, ih, List.replicate_succ']; rfl

/-- A number that fits, padded with zeros. -/
theorem digitChars_eq {width n : Nat} (hpos : 0 < width) (h : n < 10 ^ width) :
    digitChars width n = List.replicate (width - (Nat.toDigits 10 n).length) '0' ++ Nat.toDigits 10 n := by
  induction width generalizing n with
  | zero => cases hpos
  | succ width ih =>
    rw [digitChars]
    by_cases hn : n < 10
    · rw [Nat.toDigits_of_lt_base hn, Nat.div_eq_of_lt hn, Nat.mod_eq_of_lt hn, digitChars_zero]
      rfl
    · have hwidth : 0 < width := by
        by_contra hzero
        rw [show width = 0 by omega] at h
        omega
      have hdiv : n / 10 < 10 ^ width := by
        rw [Nat.div_lt_iff_lt_mul (by decide)]
        rwa [Nat.pow_succ] at h
      have hsplit : Nat.toDigits 10 n = Nat.toDigits 10 (n / 10) ++ [Nat.digitChar (n % 10)] :=
        Nat.toDigits_of_base_le (by decide) (by omega)
      rw [ih hwidth hdiv, hsplit, List.length_append, List.length_singleton, List.append_assoc,
        Nat.add_sub_add_right]

/-- The digits of a text are ASCII. -/
theorem digitChar_cases {d : Nat} (h : d < 10) :
    IsAscii (Nat.digitChar d) ∧ (Nat.digitChar d).toUInt8.toNat = 0x30 + d := by
  revert d
  decide

theorem isAscii_digitChars {width n : Nat} : ∀ c ∈ digitChars width n, IsAscii c := by
  induction width generalizing n with
  | zero => simp [digitChars]
  | succ width ih =>
    intro c hc
    rcases List.mem_append.mp hc with hc | hc
    · exact ih c hc
    · rw [List.mem_singleton.mp hc]
      exact (digitChar_cases (Nat.mod_lt _ (by decide))).1

/-! ### Bytes that need not be a text -/

/-- A continuation byte. -/
def isContinuation (b : UInt8) : Bool := 0x80 ≤ b && b ≤ 0xbf

/-- The byte may be the second one of a character. -/
def isSecond (first b : UInt8) : Bool :=
  if first = 0xe0 then 0xa0 ≤ b && b ≤ 0xbf
  else if first = 0xed then 0x80 ≤ b && b ≤ 0x9f
  else if first = 0xf0 then 0x90 ≤ b && b ≤ 0xbf
  else if first = 0xf4 then 0x80 ≤ b && b ≤ 0x8f
  else isContinuation b

/-- How many bytes follow the first one: none where it begins no character of several bytes. -/
def following (first : UInt8) : Nat :=
  if 0xc2 ≤ first ∧ first ≤ 0xdf then 1
  else if 0xe0 ≤ first ∧ first ≤ 0xef then 2
  else if 0xf0 ≤ first ∧ first ≤ 0xf4 then 3
  else 0

/-- What follows the second byte of a character: the character that they are, unless one of them does not fit. -/
def moreBytes (code : Nat) : Nat → List UInt8 → Char × List UInt8
  | 0, rest => (Char.ofNat code, rest)
  | _ + 1, [] => ('\uFFFD', [])
  | n + 1, b :: rest =>
    if isContinuation b then moreBytes (64 * code + b.toNat % 64) n rest else ('\uFFFD', b :: rest)

/-- The first character, and what is behind it. The longest part of a character that the bytes begin with is replaced as
one. -/
def lossyChar (first : UInt8) (rest : List UInt8) : Char × List UInt8 :=
  if first < 0x80 then (Char.ofNat first.toNat, rest)
  else
    match following first, rest with
    | 0, rest => ('\uFFFD', rest)
    | _ + 1, [] => ('\uFFFD', [])
    | n + 1, b :: rest =>
      if isSecond first b then moreBytes (64 * (first.toNat % 2 ^ (5 - n)) + b.toNat % 64) n rest
      else ('\uFFFD', b :: rest)

/-- `String::from_utf8_lossy`, for at most so many characters. -/
def lossyLoop : Nat → List UInt8 → List Char
  | _, [] => []
  | 0, _ :: _ => []
  | fuel + 1, first :: rest => (lossyChar first rest).1 :: lossyLoop fuel (lossyChar first rest).2

/-- `String::from_utf8_lossy`. Each character is of one byte at least. -/
def lossy (bytes : List UInt8) : List Char := lossyLoop bytes.length bytes

example : lossy [0x61, 0xe2, 0x82, 0xac, 0xff, 0xe2, 0x82, 0x62] = ['a', '€', '\uFFFD', '\uFFFD', 'b'] := by decide

end AikitRuntime.Library.Utf8
