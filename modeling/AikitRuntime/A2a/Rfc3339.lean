import AikitRuntime.A2a.Timestamps
import AikitRuntime.Durability.Canonical
import AikitRuntime.Library.Utf8
import Mathlib.Data.List.Induction
import Mathlib.Tactic.Ring

/-!
# What a timestamp denotes

A `Timestamp` is a date, a time of day, the digits of a fraction and an offset, all in range. It is written in one
way, up to the case of two letters, and denotes an instant. The parser accepts the texts of timestamps and no others,
and gives the instant, from the epoch on; it does not panic on any text.

`Reads` is the triple of a computation that may be refused but does not panic: each step of the parser has one, about
the bytes that it has seen, and the parser's own is put together from them.
-/

namespace AikitRuntime.A2a

open Library Library.Calendar Library.Utf8 Durability

/-! ### Timestamps -/

/-- The offset from UTC. -/
inductive Zone where
  | utc (letter : Char)
  | offset (negative : Bool) (hours minutes : Nat)

namespace Zone

def Valid : Zone → Prop
  | .utc letter => letter = 'Z' ∨ letter = 'z'
  | .offset _ hours minutes => hours ≤ 23 ∧ minutes ≤ 59

def text : Zone → List Char
  | .utc letter => [letter]
  | .offset negative hours minutes =>
    (if negative then '-' else '+') :: (digitChars 2 hours ++ ':' :: digitChars 2 minutes)

/-- The minutes that local time is ahead of UTC. -/
def minutes : Zone → Int
  | .utc _ => 0
  | .offset negative hours minutes =>
    if negative then -(hours * 60 + minutes : Int) else hours * 60 + minutes

end Zone

/-- The number that decimal digits write. -/
def decimal (digits : List Nat) : Nat := digits.foldl (fun n d => 10 * n + d) 0

/-- A fraction's whole milliseconds: the digits write the fraction times a power of ten. -/
def fractionMillis (digits : List Nat) : Nat := decimal digits * 1000 / 10 ^ digits.length

def fractionText : List Nat → List Char
  | [] => []
  | digits => '.' :: digits.map Nat.digitChar

/-- A timestamp of the profile. -/
structure Timestamp where
  year : Nat
  month : Nat
  day : Nat
  separator : Char
  hour : Nat
  minute : Nat
  second : Nat
  fraction : List Nat
  zone : Zone
  year_lt : year < 10000
  date : ValidDate year month day
  separator_mem : separator = 'T' ∨ separator = 't'
  hour_le : hour ≤ 23
  minute_le : minute ≤ 59
  second_le : second ≤ 59
  digits : ∀ d ∈ fraction, d < 10
  zone_valid : zone.Valid

namespace Timestamp

def text (t : Timestamp) : List Char :=
  digitChars 4 t.year ++ '-' :: digitChars 2 t.month ++ '-' :: digitChars 2 t.day ++
    t.separator :: digitChars 2 t.hour ++ ':' :: digitChars 2 t.minute ++ ':' :: digitChars 2 t.second ++
    fractionText t.fraction ++ t.zone.text

/-- The milliseconds from the epoch to the instant that is denoted. -/
def unixMillis (t : Timestamp) : Int :=
  (dayNumber t.year t.month t.day - dayNumber 1970 1 1) * 86400000 +
    (t.hour * 3600000 + t.minute * 60000 + t.second * 1000 + fractionMillis t.fraction) - t.zone.minutes * 60000

end Timestamp

/-! ### Digits as bytes -/

def digitByte (d : Nat) : UInt8 := (Nat.digitChar d).toUInt8

theorem isAsciiDigit_digitByte {d : Nat} (h : d < 10) : isAsciiDigit (digitByte d) = true := by
  revert d
  decide

theorem exists_digitByte {b : UInt8} (h : isAsciiDigit b = true) : ∃ d, d < 10 ∧ b = digitByte d := by
  rw [isAsciiDigit, Bool.and_eq_true, decide_eq_true_iff, decide_eq_true_iff, UInt8.le_iff_toNat_le,
    UInt8.le_iff_toNat_le] at h
  have hlow : 48 ≤ b.toNat := h.1
  have hhigh : b.toNat ≤ 57 := h.2
  refine ⟨b.toNat - 48, by omega, UInt8.toNat_inj.mp ?_⟩
  rw [digitByte, (digitChar_cases (by omega)).2]
  omega

theorem exists_digitBytes {bytes : List UInt8} (h : bytes.all isAsciiDigit = true) :
    ∃ digits : List Nat, (∀ d ∈ digits, d < 10) ∧ bytes = digits.map digitByte := by
  induction bytes with
  | nil => exact ⟨[], by simp⟩
  | cons b bytes ih =>
    rw [List.all_cons, Bool.and_eq_true] at h
    obtain ⟨d, hd, rfl⟩ := exists_digitByte h.1
    obtain ⟨digits, hdigits, rfl⟩ := ih h.2
    exact ⟨d :: digits, List.forall_mem_cons.mpr ⟨hd, hdigits⟩, rfl⟩

theorem decimal_concat (digits : List Nat) (d : Nat) : decimal (digits ++ [d]) = 10 * decimal digits + d := by
  rw [decimal, List.foldl_append]
  rfl

theorem decimalValue_map {digits : List Nat} (h : ∀ d ∈ digits, d < 10) :
    decimalValue (digits.map digitByte) = decimal digits := by
  induction digits using List.reverseRecOn with
  | nil => rfl
  | append_singleton digits d ih =>
    have hd := h d (List.mem_append_right _ (List.mem_singleton_self d))
    rw [decimal_concat, ← ih fun d' hd' => h d' (List.mem_append_left _ hd'), List.map_append, decimalValue,
      List.foldl_append]
    show 10 * decimalValue (digits.map digitByte) + ((Nat.digitChar d).toUInt8.toNat - 48) = _
    rw [(digitChar_cases hd).2]
    omega

theorem decimal_lt {digits : List Nat} (h : ∀ d ∈ digits, d < 10) : decimal digits < 10 ^ digits.length := by
  induction digits using List.reverseRecOn with
  | nil => exact Nat.one_pos
  | append_singleton digits d ih =>
    have hd := h d (List.mem_append_right _ (List.mem_singleton_self d))
    have ih := ih fun d' hd' => h d' (List.mem_append_left _ hd')
    rw [decimal_concat, List.length_append, List.length_singleton, Nat.pow_succ]
    omega

/-- Digits are the digits of the number that they write. -/
theorem digitChars_decimal {digits : List Nat} (h : ∀ d ∈ digits, d < 10) :
    digitChars digits.length (decimal digits) = digits.map Nat.digitChar := by
  induction digits using List.reverseRecOn with
  | nil => rfl
  | append_singleton digits d ih =>
    have hd := h d (List.mem_append_right _ (List.mem_singleton_self d))
    rw [List.length_append, List.length_singleton, decimal_concat, digitChars, List.map_append,
      ← ih fun d' hd' => h d' (List.mem_append_left _ hd'), show (10 * decimal digits + d) / 10 = decimal digits by omega,
      show (10 * decimal digits + d) % 10 = d by omega]
    rfl

/-- A number is written by the digits that it has. -/
theorem exists_digits (width n : Nat) (h : n < 10 ^ width) : ∃ digits : List Nat, digits.length = width ∧
    (∀ d ∈ digits, d < 10) ∧ decimal digits = n ∧ digitChars width n = digits.map Nat.digitChar := by
  induction width generalizing n with
  | zero => exact ⟨[], rfl, by simp, by rw [Nat.pow_zero] at h; exact (Nat.lt_one_iff.mp h).symm, rfl⟩
  | succ width ih =>
    obtain ⟨digits, hlength, hdigits, hdecimal, -⟩ := ih (n / 10) (by
      rw [Nat.div_lt_iff_lt_mul (by decide)]
      rwa [Nat.pow_succ] at h)
    have hall : ∀ d ∈ digits ++ [n % 10], d < 10 := by
      intro d hd
      rcases List.mem_append.mp hd with hd | hd
      · exact hdigits d hd
      · rw [List.mem_singleton.mp hd]
        exact Nat.mod_lt _ (by decide)
    have hvalue : decimal (digits ++ [n % 10]) = n := by rw [decimal_concat, hdecimal]; omega
    have hwidth : (digits ++ [n % 10]).length = width + 1 := by rw [List.length_append, hlength]; rfl
    refine ⟨digits ++ [n % 10], hwidth, hall, hvalue, ?_⟩
    rw [← digitChars_decimal hall, hwidth, hvalue]

/-! ### The bytes of a text -/

theorem asciiBytes_digits (digits : List Nat) : asciiBytes (digits.map Nat.digitChar) = digits.map digitByte :=
  List.map_map

theorem toUTF8_toList (value : String) :
    value.toUTF8.toList = value.toList.flatMap String.utf8EncodeChar := by
  conv => lhs; rw [← String.ofList_toList (s := value)]
  rw [toList_eq, String.toUTF8_eq_toByteArray, String.toByteArray_ofList, List.utf8Encode, List.data_toByteArray]

theorem bytes_of_toList {value : String} {chars : List Char} (hascii : ∀ c ∈ chars, IsAscii c)
    (h : value.toList = chars) : value.toUTF8.toList = asciiBytes chars := by
  rw [toUTF8_toList, h, flatMap_ascii hascii]
  rfl

theorem toList_of_bytes {value : String} {chars : List Char} (hascii : ∀ c ∈ chars, IsAscii c)
    (h : value.toUTF8.toList = asciiBytes chars) : value.toList = chars := by
  have hsame : value.toUTF8.toList = (String.ofList chars).toUTF8.toList := by
    rw [h, bytes_of_toList hascii String.toList_ofList]
  rw [toUTF8_inj hsame, String.toList_ofList]

/-- A character begins behind an ASCII byte. -/
theorem isCharBoundary_succ {value : String} {i : Nat} {b : UInt8} (hget : value.toUTF8.toList[i]? = some b)
    (hascii : b < 0x80) : isCharBoundary value.toUTF8.toList (i + 1) = true := by
  have hlt : i < value.toUTF8.toList.length := (List.getElem?_eq_some_iff.mp hget).1
  unfold isCharBoundary
  by_cases hend : i + 1 = value.toUTF8.toList.length
  · simp [hend]
  · obtain ⟨next, hnext⟩ : ∃ next, value.toUTF8.toList[i + 1]? = some next :=
      ⟨_, List.getElem?_eq_getElem (by omega)⟩
    have hleads : Leads next = true := by
      rw [toUTF8_toList] at hget hnext
      exact leads_after_ascii hget hascii hnext
    rw [hnext, Option.any_some]
    simp only [Bool.or_eq_true]
    exact .inr (by simpa [Leads] using hleads)

theorem drop_of_getElem? {bytes : List UInt8} {i : Nat} {b : UInt8} (h : bytes[i]? = some b) :
    bytes.drop i = b :: bytes.drop (i + 1) := by
  obtain ⟨hlt, rfl⟩ := List.getElem?_eq_some_iff.mp h
  exact List.drop_eq_getElem_cons hlt

/-! ### Computations that do not panic -/

/-- The computation is refused, or gives a value with the property. It does not panic. -/
def Reads {α : Type} (x : Checked α) (Q : α → Prop) : Prop :=
  match x with
  | .ok a => Q a
  | .error (.error _) => True
  | .error .panicked => False

section
variable {α β : Type} {x : Checked α} {Q : α → Prop} {R : β → Prop} {text : String}

theorem Reads.of_ok {a : α} (h : x = .ok a) (ha : Q a) : Reads x Q := by
  rw [h]
  exact ha

theorem Reads.bind {f : α → Checked β} (hx : Reads x Q) (hf : ∀ a, Q a → Reads (f a) R) : Reads (x >>= f) R := by
  match x with
  | .ok a => exact hf a hx
  | .error (.error _) => trivial
  | .error .panicked => exact hx.elim

theorem reads_refuseIf {c : Prop} [Decidable c] : Reads (refuseIf c (.error text)) fun _ => ¬ c := by
  by_cases h : c
  · rw [refuseIf_of h]
    trivial
  · rw [refuseIf_of_not h]
    exact h

theorem reads_okOr {o : Option α} : Reads (okOr o (.error text)) fun a => o = some a := by
  cases o
  · trivial
  · exact rfl

end

/-! ### The readers -/

section
variable {bytes : List UInt8} {text : String} {value : String}

theorem byteAt_reads {i : Nat} (h : i < bytes.length) : Reads (byteAt bytes i) fun b => bytes[i]? = some b :=
  .of_ok (by rw [byteAt, List.getElem?_eq_getElem h, okOr_some]) (List.getElem?_eq_getElem h)

theorem le_length_of_isCharBoundary {i : Nat} (h : isCharBoundary bytes i = true) : i ≤ bytes.length := by
  by_contra hlt
  have hnone : bytes[i]? = none := List.getElem?_eq_none (by omega)
  simp [isCharBoundary, hnone] at h
  omega

theorem strGet_eq_some {start stop : Nat} {slice : List UInt8} (h : strGet bytes start stop = some slice) :
    bytes.drop start = slice ++ bytes.drop stop ∧ slice.length = stop - start ∧ start ≤ stop := by
  unfold strGet at h
  split at h
  · next hbounds =>
    cases h
    have hle := le_length_of_isCharBoundary hbounds.2.2
    have hstart := hbounds.1
    refine ⟨?_, by rw [List.length_take, List.length_drop]; omega, hstart⟩
    have hdrop : bytes.drop stop = (bytes.drop start).drop (stop - start) := by
      rw [List.drop_drop, show start + (stop - start) = stop by omega]
    rw [hdrop, List.take_append_drop]
  · cases h

/-- A number is digits of its width. -/
theorem digits_reads {start stop : Nat} : Reads (digits bytes (.error text) start stop) fun n =>
    ∃ m : Nat, n = m ∧ m < 10 ^ (stop - start) ∧
      bytes.drop start = asciiBytes (digitChars (stop - start) m) ++ bytes.drop stop := by
  refine reads_okOr.bind fun slice hslice => ?_
  obtain ⟨hdrop, hlength, -⟩ := strGet_eq_some hslice
  by_cases hall : slice.all isAsciiDigit = true
  · rw [if_pos hall]
    obtain ⟨digits, hdigits, rfl⟩ := exists_digitBytes hall
    rw [parseI64, decimalValue_map hdigits]
    rw [List.length_map] at hlength
    split
    · trivial
    · refine ⟨decimal digits, rfl, hlength ▸ decimal_lt hdigits, ?_⟩
      rw [← hlength, digitChars_decimal hdigits, asciiBytes_digits]
      exact hdrop
  · rw [if_neg hall]
    trivial

/-- **The loop over a fraction's digits**, by induction on what is left: it stops behind them. -/
theorem skipDigits_spec (rest : List UInt8) (stop : Nat) : ∃ digits : List Nat, (∀ d ∈ digits, d < 10) ∧
    rest = digits.map digitByte ++ rest.drop digits.length ∧ skipDigits rest stop = stop + digits.length := by
  induction rest generalizing stop with
  | nil => exact ⟨[], by simp, rfl, rfl⟩
  | cons b rest ih =>
    by_cases hb : isAsciiDigit b = true
    · obtain ⟨d, hd, rfl⟩ := exists_digitByte hb
      obtain ⟨digits, hdigits, hrest, hskip⟩ := ih (stop + 1)
      refine ⟨d :: digits, List.forall_mem_cons.mpr ⟨hd, hdigits⟩, ?_, ?_⟩
      · rw [List.map_cons, List.cons_append, List.length_cons, List.drop_succ_cons, ← hrest]
      · rw [skipDigits, if_pos hb, hskip, List.length_cons]
        omega
    · exact ⟨[], by simp, rfl, by rw [skipDigits, if_neg hb]; rfl⟩

theorem decimal_cons (d : Nat) (digits : List Nat) :
    decimal (d :: digits) = d * 10 ^ digits.length + decimal digits := by
  induction digits using List.reverseRecOn with
  | nil => simp [decimal]
  | append_singleton digits d' ih =>
    rw [← List.cons_append, decimal_concat, ih, decimal_concat, List.length_append, List.length_singleton, Nat.pow_succ]
    ring

/-- The three digits that the milliseconds are read from. -/
def millisDigits (digits : List Nat) : List Nat := digits.take 3 ++ List.replicate (3 - digits.length) 0

theorem decimal_millisDigits {digits : List Nat} (hne : digits ≠ []) (h : ∀ d ∈ digits, d < 10) :
    decimal (millisDigits digits) = fractionMillis digits := by
  match digits with
  | [a] => show 10 * (10 * (10 * 0 + a) + 0) + 0 = (10 * 0 + a) * 1000 / 10 ^ 1; omega
  | [a, b] => show 10 * (10 * (10 * 0 + a) + b) + 0 = (10 * (10 * 0 + a) + b) * 1000 / 10 ^ 2; omega
  | a :: b :: c :: rest =>
    have hrest := decimal_lt fun d hd => h d (.tail _ (.tail _ (.tail _ hd)))
    have hwhole : decimal (a :: b :: c :: rest) = (100 * a + 10 * b + c) * 10 ^ rest.length + decimal rest := by
      rw [decimal_cons, decimal_cons, decimal_cons, List.length_cons, List.length_cons]
      ring
    have hdiv : ((100 * a + 10 * b + c) * 10 ^ rest.length + decimal rest) / 10 ^ rest.length = 100 * a + 10 * b + c := by
      rw [Nat.mul_comm, Nat.mul_add_div (Nat.pow_pos (by decide)), Nat.div_eq_of_lt hrest, Nat.add_zero]
    rw [fractionMillis, hwhole, List.length_cons, List.length_cons, List.length_cons,
      show rest.length + 1 + 1 + 1 = rest.length + 3 by omega, Nat.pow_add, Nat.mul_div_mul_right _ _ (by decide), hdiv]
    have hfirst : millisDigits (a :: b :: c :: rest) = [a, b, c] := by simp [millisDigits]
    rw [hfirst]
    show 10 * (10 * (10 * 0 + a) + b) + c = _
    omega

/-- The padded digits write the whole milliseconds. -/
theorem parseI64_paddedFraction {digits : List Nat} (hne : digits ≠ []) (h : ∀ d ∈ digits, d < 10) :
    parseI64 (paddedFraction (digits.map digitByte)) = some (fractionMillis digits : Int) ∧
      fractionMillis digits < 1000 := by
  have hall : ∀ d ∈ millisDigits digits, d < 10 := by
    intro d hd
    rcases List.mem_append.mp hd with hd | hd
    · exact h d (List.mem_of_mem_take hd)
    · rw [List.eq_of_mem_replicate hd]
      decide
  have hlength : (millisDigits digits).length = 3 := by
    rw [millisDigits, List.length_append, List.length_take, List.length_replicate]
    omega
  have hbytes : paddedFraction (digits.map digitByte) = (millisDigits digits).map digitByte := by
    rw [paddedFraction, millisDigits, List.map_append, List.map_take, List.length_map, List.map_replicate]
    rfl
  have hlt := decimal_lt hall
  have hvalue := decimal_millisDigits hne h
  rw [hlength, hvalue] at hlt
  refine ⟨?_, hlt⟩
  rw [parseI64, hbytes, decimalValue_map hall, hvalue, if_neg]
  rintro (hnil | hbig)
  · rw [List.map_eq_nil_iff] at hnil
    rw [hnil] at hlength
    cases hlength
  · omega

/-- A fraction is a point and its digits, and gives its whole milliseconds. -/
theorem readFraction_reads {cursor : Nat} :
    Reads (readFraction value.toUTF8.toList (.error text) cursor) fun read => ∃ fraction : List Nat,
      (∀ d ∈ fraction, d < 10) ∧ read.1 = fractionMillis fraction ∧ read.1 < 1000 ∧
        value.toUTF8.toList.drop cursor = asciiBytes (fractionText fraction) ++ value.toUTF8.toList.drop read.2 := by
  unfold readFraction
  by_cases hpoint : value.toUTF8.toList[cursor]? = some 0x2e
  · rw [if_pos hpoint]
    obtain ⟨digits, hdigits, hrest, hskip⟩ :=
      skipDigits_spec (value.toUTF8.toList.drop (cursor + 1)) (cursor + 1)
    dsimp only
    refine reads_refuseIf.bind fun _ hne => ?_
    rw [hskip] at hne ⊢
    have hsome : digits ≠ [] := by
      rintro rfl
      exact hne rfl
    have hslice : strGet value.toUTF8.toList (cursor + 1) (cursor + 1 + digits.length) = some (digits.map digitByte) := by
      have hlast : value.toUTF8.toList[cursor + digits.length]? = some (digitByte (digits.getLast hsome)) := by
        have hpos := List.length_pos_of_ne_nil hsome
        rw [show cursor + digits.length = cursor + 1 + (digits.length - 1) by omega, ← List.getElem?_drop, hrest,
          List.getElem?_append_left (by rw [List.length_map]; omega), List.getElem?_map,
          ← List.getLast?_eq_getElem?, List.getLast?_eq_getLast_of_ne_nil hsome]
        rfl
      have hdigit : digitByte (digits.getLast hsome) < 0x80 := by
        have hlt := hdigits _ (List.getLast_mem hsome)
        rw [UInt8.lt_iff_toNat_lt, digitByte, (digitChar_cases hlt).2]
        exact Nat.lt_trans (by omega : 0x30 + _ < 0x30 + 10) (by decide)
      have hstop := isCharBoundary_succ hlast hdigit
      rw [show cursor + digits.length + 1 = cursor + 1 + digits.length by omega] at hstop
      rw [strGet, if_pos ⟨by omega, isCharBoundary_succ hpoint (by decide), hstop⟩, Nat.add_sub_cancel_left, hrest,
        List.take_append_of_le_length (by rw [List.length_map]), List.take_of_length_le (by rw [List.length_map])]
    rw [hslice, okOr_some, ok_bind]
    obtain ⟨hmillis, hlt⟩ := parseI64_paddedFraction hsome hdigits
    rw [hmillis, okOr_some, ok_bind]
    refine ⟨digits, hdigits, rfl, Int.ofNat_lt.mpr hlt, ?_⟩
    have htext : fractionText digits = '.' :: digits.map Nat.digitChar := by
      cases digits with
      | nil => exact absurd rfl hsome
      | cons d digits => rfl
    rw [htext, asciiBytes_cons, asciiBytes_digits, drop_of_getElem? hpoint]
    refine congrArg (_ :: ·) ?_
    show _ = _ ++ value.toUTF8.toList.drop (cursor + 1 + digits.length)
    rw [← List.drop_drop (j := cursor + 1)]
    exact hrest
  · rw [if_neg hpoint]
    exact ⟨[], by simp, rfl, Int.natCast_pos.mpr (by decide : 0 < 1000), rfl⟩

/-- An offset ends the text. -/
theorem readOffset_reads {cursor : Nat} : Reads (readOffset bytes (.error text) cursor) fun offsetMinutes =>
    ∃ zone : Zone, zone.Valid ∧ offsetMinutes = zone.minutes ∧ bytes.drop cursor = asciiBytes zone.text := by
  unfold readOffset
  split
  · trivial
  · next sign hsign =>
    have hdrop := drop_of_getElem? hsign
    split
    · next hutc =>
      have hend : bytes.drop (cursor + 1) = [] := List.drop_eq_nil_of_le (Nat.le_of_eq hutc.2.symm)
      rw [hend] at hdrop
      rcases hutc.1 with rfl | rfl
      · exact ⟨.utc 'Z', .inl rfl, rfl, hdrop⟩
      · exact ⟨.utc 'z', .inr rfl, rfl, hdrop⟩
    · split
      · next hoffset =>
        have hlength := hoffset.2
        refine (byteAt_reads (by omega)).bind fun colon hcolon => ?_
        refine reads_refuseIf.bind fun _ hisColon => ?_
        refine digits_reads.bind fun hours hhours => ?_
        obtain ⟨h, rfl, hhlt, hhdrop⟩ := hhours
        refine digits_reads.bind fun minutes hminutes => ?_
        obtain ⟨m, rfl, hmlt, hmdrop⟩ := hminutes
        refine reads_refuseIf.bind fun _ hrange => ?_
        rw [show cursor + 3 - (cursor + 1) = 2 by omega] at hhlt hhdrop
        rw [show cursor + 6 - (cursor + 4) = 2 by omega] at hmlt hmdrop
        rw [drop_of_getElem? hcolon, Decidable.of_not_not hisColon, hmdrop,
          List.drop_eq_nil_of_le (Nat.le_of_eq hlength.symm), List.append_nil] at hhdrop
        rw [hhdrop] at hdrop
        rw [i64_ok (by omega) (by omega), ok_bind, i64_ok (by omega) (by omega), ok_bind]
        rcases hoffset.1 with rfl | rfl
        · rw [if_neg (by decide)]
          refine ⟨.offset false h m, ⟨by omega, by omega⟩, rfl, hdrop.trans ?_⟩
          rw [Zone.text, if_neg (by decide), asciiBytes_cons, asciiBytes_append]
          rfl
        · rw [if_pos rfl, i64_ok (by omega) (by omega)]
          refine ⟨.offset true h m, ⟨by omega, by omega⟩, rfl, hdrop.trans ?_⟩
          rw [Zone.text, if_pos rfl, asciiBytes_cons, asciiBytes_append]
          rfl
      · trivial

/-! ### The date and the instant -/

theorem daysInMonth_eq {year month : Nat} (hpos : 1 ≤ month) (hle : month ≤ 12) :
    daysInMonth year month = monthLength year month := by
  have hleap : ((year : Int).tmod 4 = 0 ∧ (year : Int).tmod 100 ≠ 0) ∨ (year : Int).tmod 400 = 0 ↔ IsLeap year := by
    unfold IsLeap
    rw [Int.tmod_eq_emod_of_nonneg (by omega), Int.tmod_eq_emod_of_nonneg (by omega),
      Int.tmod_eq_emod_of_nonneg (by omega)]
    omega
  unfold daysInMonth monthLength
  dsimp only
  rw [if_congr hleap rfl rfl]
  interval_cases month <;> simp

theorem minutes_bounds {zone : Zone} (h : zone.Valid) : -1439 ≤ zone.minutes ∧ zone.minutes ≤ 1439 := by
  cases zone with
  | utc letter =>
    rw [Zone.minutes]
    omega
  | offset negative hours minutes =>
    obtain ⟨hhours, hminutes⟩ := h
    rw [Zone.minutes]
    split <;> omega

theorem checkedI64_some {n : Int} (hlow : -2 ^ 63 ≤ n) (hhigh : n < 2 ^ 63) : checkedI64 n = some n :=
  if_pos ⟨hlow, hhigh⟩

theorem timeMillis_eq {hour minute second millis : Int} (hhour : 0 ≤ hour ∧ hour ≤ 23)
    (hminute : 0 ≤ minute ∧ minute ≤ 59) (hsecond : 0 ≤ second ∧ second ≤ 59) (hmillis : 0 ≤ millis ∧ millis < 1000) :
    timeMillis hour minute second millis = .ok (hour * 3600000 + minute * 60000 + second * 1000 + millis) := by
  unfold timeMillis
  rw [i64_ok (by omega) (by omega), ok_bind, i64_ok (by omega) (by omega), ok_bind, i64_ok (by omega) (by omega),
    ok_bind, i64_ok (by omega) (by omega), ok_bind, i64_ok (by omega) (by omega), ok_bind,
    i64_ok (by omega) (by omega)]

theorem toUnixMillis_eq {days hour minute second millis offsetMinutes : Int}
    (hdays : -1000000 ≤ days ∧ days ≤ 10000000) (hhour : 0 ≤ hour ∧ hour ≤ 23) (hminute : 0 ≤ minute ∧ minute ≤ 59)
    (hsecond : 0 ≤ second ∧ second ≤ 59) (hmillis : 0 ≤ millis ∧ millis < 1000)
    (hoffset : -1439 ≤ offsetMinutes ∧ offsetMinutes ≤ 1439) (invalid : Fault) :
    toUnixMillis invalid days hour minute second millis offsetMinutes =
      .ok (days * 86400000 + (hour * 3600000 + minute * 60000 + second * 1000 + millis)
        - offsetMinutes * 60000).toNat := by
  unfold toUnixMillis
  rw [checkedI64_some (by omega) (by omega), okOr_some, ok_bind, timeMillis_eq hhour hminute hsecond hmillis, ok_bind,
    checkedI64_some (by omega) (by omega), okOr_some, ok_bind, i64_ok (by omega) (by omega), ok_bind,
    checkedI64_some (by omega) (by omega), okOr_some, ok_bind]
  rfl

theorem dayNumber_bounds {year month day : Nat} (hyear : year < 10000) (hdate : ValidDate year month day) :
    -1000000 ≤ (dayNumber year month day : Int) - dayNumber 1970 1 1 ∧
      (dayNumber year month day : Int) - dayNumber 1970 1 1 ≤ 10000000 := by
  have hepoch : (dayNumber 1970 1 1 : Int) = 719528 := by decide +kernel
  have hday : day ≤ 31 := Nat.le_trans hdate.day_le (by unfold monthLength; split <;> split <;> omega)
  have hle := hdate.month_le
  have hpos := hdate.month_pos
  rw [hepoch, dayNumber_eq hdate.month_pos hdate.month_le hdate.day_pos]
  unfold marchYearStart marchYear marchMonthStart marchMonth
  split <;> split <;> omega

/-- **A timestamp's instant**, from what is read of its parts. -/
theorem instant_eq (t : Timestamp) (invalid : Fault) :
    (do
      let days ← daysFromCivil t.year t.month t.day
      toUnixMillis invalid days t.hour t.minute t.second (fractionMillis t.fraction : Nat) t.zone.minutes) =
        .ok t.unixMillis.toNat := by
  have hmillis : fractionMillis t.fraction < 1000 := by
    by_cases h : t.fraction = []
    · rw [h]
      decide
    · exact (parseI64_paddedFraction h t.digits).2
  have hhour := t.hour_le
  have hminute := t.minute_le
  have hsecond := t.second_le
  rw [daysFromCivil_eq t.year_lt t.date, ok_bind, toUnixMillis_eq (dayNumber_bounds t.year_lt t.date) (by omega)
    (by omega) (by omega) (by omega) (minutes_bounds t.zone_valid)]
  rfl

end

/-! ### Every text -/

theorem isAscii_text (t : Timestamp) : ∀ c ∈ t.text, IsAscii c := by
  have hletter : ∀ c, c = 'T' ∨ c = 't' → IsAscii c := by
    rintro c (rfl | rfl) <;> decide
  have hfraction : ∀ c ∈ fractionText t.fraction, IsAscii c := by
    intro c hc
    match hdigits : t.fraction with
    | [] => rw [hdigits] at hc; cases hc
    | d :: digits =>
      rw [hdigits] at hc
      rcases List.mem_cons.mp hc with rfl | hc
      · decide
      · obtain ⟨d', hd', rfl⟩ := List.mem_map.mp hc
        exact (digitChar_cases (t.digits d' (hdigits ▸ hd'))).1
  have hzone : ∀ c ∈ t.zone.text, IsAscii c := by
    intro c hc
    cases hz : t.zone with
    | utc letter =>
      rw [hz] at hc
      have hvalid := t.zone_valid
      rw [hz] at hvalid
      rw [List.mem_singleton.mp hc]
      rcases hvalid with rfl | rfl <;> decide
    | offset negative hours minutes =>
      rw [hz] at hc
      rcases List.mem_cons.mp hc with rfl | hc
      · split <;> decide
      · rcases List.mem_append.mp hc with hc | hc
        · exact isAscii_digitChars c hc
        · rcases List.mem_cons.mp hc with rfl | hc
          · decide
          · exact isAscii_digitChars c hc
  intro c hc
  simp only [Timestamp.text, List.mem_append, List.mem_cons] at hc
  rcases hc with ((((((((hc | rfl | hc) | rfl | hc) | rfl | hc) | rfl | hc) | rfl | hc) | hc) | hc))
  all_goals first
    | exact isAscii_digitChars c hc
    | exact hletter _ t.separator_mem
    | exact hfraction c hc
    | exact hzone c hc
    | decide

theorem separator_cases {b : UInt8} (h : b = 0x54 ∨ b = 0x74) : ∃ c : Char, (c = 'T' ∨ c = 't') ∧ b = c.toUInt8 := by
  rcases h with rfl | rfl
  · exact ⟨'T', .inl rfl, rfl⟩
  · exact ⟨'t', .inr rfl, rfl⟩

/-- **Every text** is refused, or is a timestamp's and read as its instant. -/
theorem parseRfc3339UnixMillis_reads (value : String) : Reads (parseRfc3339UnixMillis value) fun unixMs =>
    ∃ t : Timestamp, value.toList = t.text ∧ unixMs = t.unixMillis.toNat := by
  unfold parseRfc3339UnixMillis
  dsimp only
  refine reads_refuseIf.bind fun _ hlength => ?_
  refine (byteAt_reads (by omega)).bind fun b4 h4 => reads_refuseIf.bind fun _ hb4 => ?_
  refine (byteAt_reads (by omega)).bind fun b7 h7 => reads_refuseIf.bind fun _ hb7 => ?_
  refine (byteAt_reads (by omega)).bind fun b10 h10 => reads_refuseIf.bind fun _ hb10 => ?_
  refine (byteAt_reads (by omega)).bind fun b13 h13 => reads_refuseIf.bind fun _ hb13 => ?_
  refine (byteAt_reads (by omega)).bind fun b16 h16 => reads_refuseIf.bind fun _ hb16 => ?_
  refine digits_reads.bind fun _ ⟨year, hyear, hyearLt, hyearDrop⟩ => ?_
  refine digits_reads.bind fun _ ⟨month, hmonth, _, hmonthDrop⟩ => ?_
  refine digits_reads.bind fun _ ⟨day, hday, _, hdayDrop⟩ => ?_
  refine digits_reads.bind fun _ ⟨hour, hhour, _, hhourDrop⟩ => ?_
  refine digits_reads.bind fun _ ⟨minute, hminute, _, hminuteDrop⟩ => ?_
  refine digits_reads.bind fun _ ⟨second, hsecond, _, hsecondDrop⟩ => ?_
  subst hyear hmonth hday hhour hminute hsecond
  refine reads_refuseIf.bind fun _ hmonthIn => reads_refuseIf.bind fun _ hdayIn => ?_
  refine reads_refuseIf.bind fun _ htimeIn => ?_
  refine readFraction_reads.bind fun read ⟨fraction, hfraction, hmillis, _, hfractionDrop⟩ => ?_
  refine readOffset_reads.bind fun _ ⟨zone, hzone, hminutes, hzoneDrop⟩ => ?_
  obtain ⟨separator, hseparator, rfl⟩ := separator_cases (Decidable.of_not_not hb10)
  rw [Decidable.not_not] at hmonthIn hdayIn
  have hmonthPos : 1 ≤ month := by omega
  have hmonthLe : month ≤ 12 := by omega
  rw [daysInMonth_eq hmonthPos hmonthLe] at hdayIn
  let t : Timestamp :=
    { year, month, day, separator, hour, minute, second, fraction, zone
      year_lt := hyearLt
      date := ⟨hmonthPos, hmonthLe, by omega, by omega⟩
      separator_mem := hseparator
      hour_le := by omega
      minute_le := by omega
      second_le := by omega
      digits := hfraction
      zone_valid := hzone }
  have hread := instant_eq t (.error s!"statusTimestampAfter is not a valid RFC 3339 timestamp: {value}")
  rw [hminutes, hmillis]
  refine .of_ok hread ⟨t, toList_of_bytes (isAscii_text t) ?_, rfl⟩
  rw [drop_of_getElem? h4, hmonthDrop, drop_of_getElem? h7, hdayDrop, drop_of_getElem? h10, hhourDrop,
    drop_of_getElem? h13, hminuteDrop, drop_of_getElem? h16, hsecondDrop, hfractionDrop, hzoneDrop,
    Decidable.of_not_not hb4, Decidable.of_not_not hb7, Decidable.of_not_not hb13, Decidable.of_not_not hb16,
    List.drop_zero] at hyearDrop
  rw [hyearDrop]
  simp only [t, Timestamp.text, asciiBytes_append, asciiBytes_cons, List.append_assoc, List.cons_append]
  rfl

/-! ### Every timestamp -/

section
variable {bytes rest : List UInt8} {invalid : Fault} {i : Nat}

theorem byteAt_of_drop {b : UInt8} (h : bytes.drop i = b :: rest) : byteAt bytes i = .ok b := by
  rw [byteAt, ← List.head?_drop, h]
  rfl

theorem lt_asciiBytes {chars : List Char} (h : ∀ c ∈ chars, IsAscii c) : ∀ b ∈ asciiBytes chars, b < 0x80 := by
  intro b hb
  obtain ⟨c, hc, rfl⟩ := List.mem_map.mp hb
  rw [UInt8.lt_iff_toNat_lt, Char.toUInt8, UInt32.toNat_toUInt8]
  exact Nat.lt_of_le_of_lt (Nat.mod_le _ _) (h c hc)

theorem isCharBoundary_of_ascii (hascii : ∀ b ∈ bytes, b < 0x80) (h : i ≤ bytes.length) :
    isCharBoundary bytes i = true := by
  unfold isCharBoundary
  rcases Nat.eq_or_lt_of_le h with rfl | hlt
  · simp
  · rw [List.getElem?_eq_getElem hlt, Option.any_some]
    simp [hascii _ (List.getElem_mem hlt)]

theorem strGet_of_drop {slice : List UInt8} {stop : Nat} (hascii : ∀ b ∈ bytes, b < 0x80)
    (h : bytes.drop i = slice ++ rest) (hpos : slice ≠ []) (hstop : stop = i + slice.length) :
    strGet bytes i stop = some slice := by
  have hlength := congrArg List.length h
  have hslice := List.length_pos_of_ne_nil hpos
  rw [List.length_drop, List.length_append] at hlength
  subst hstop
  rw [strGet, if_pos ⟨by omega, isCharBoundary_of_ascii hascii (by omega), isCharBoundary_of_ascii hascii (by omega)⟩,
    h, Nat.add_sub_cancel_left, List.take_left]

theorem digits_of_drop {width n stop : Nat} (hascii : ∀ b ∈ bytes, b < 0x80)
    (h : bytes.drop i = asciiBytes (digitChars width n) ++ rest) (hn : n < 10 ^ width) (hpos : 0 < width)
    (hwidth : width ≤ 18) (hstop : stop = i + width) : digits bytes invalid i stop = .ok n := by
  obtain ⟨digitList, hlength, hdigits, hdecimal, hchars⟩ := exists_digits width n hn
  rw [hchars, asciiBytes_digits] at h
  have hne : digitList.map digitByte ≠ [] := by
    intro hnil
    rw [List.map_eq_nil_iff] at hnil
    rw [hnil] at hlength
    exact absurd hlength (Nat.ne_of_lt hpos)
  have hall : (digitList.map digitByte).all isAsciiDigit = true := by
    rw [List.all_eq_true]
    intro b hb
    obtain ⟨d, hd, rfl⟩ := List.mem_map.mp hb
    exact isAsciiDigit_digitByte (hdigits d hd)
  have hbig : n < 2 ^ 63 := Nat.lt_of_lt_of_le hn (Nat.le_trans (Nat.pow_le_pow_right (by decide) hwidth) (by decide))
  have hread : parseI64 (digitList.map digitByte) = some (n : Int) := by
    rw [parseI64, decimalValue_map hdigits, hdecimal, if_neg]
    rintro (hnil | hle)
    · exact hne hnil
    · omega
  rw [digits, strGet_of_drop hascii h hne (by rw [List.length_map, hlength]; exact hstop), okOr_some, ok_bind,
    if_pos hall, hread, okOr_some]

theorem skipDigits_of_map {digitList : List Nat} (hdigits : ∀ d ∈ digitList, d < 10)
    (hrest : ∀ b ∈ rest.head?, isAsciiDigit b = false) (stop : Nat) :
    skipDigits (digitList.map digitByte ++ rest) stop = stop + digitList.length := by
  induction digitList generalizing stop with
  | nil =>
    match rest with
    | [] => rfl
    | b :: rest =>
      rw [List.map_nil, List.nil_append, skipDigits, if_neg (by rw [hrest b rfl]; decide)]
      rfl
  | cons d digitList ih =>
    rw [List.map_cons, List.cons_append, skipDigits, if_pos (isAsciiDigit_digitByte (hdigits d List.mem_cons_self)),
      ih fun d' hd' => hdigits d' (List.mem_cons_of_mem _ hd'), List.length_cons]
    omega

theorem readFraction_of_drop {fraction : List Nat} (hascii : ∀ b ∈ bytes, b < 0x80)
    (h : bytes.drop i = asciiBytes (fractionText fraction) ++ rest) (hdigits : ∀ d ∈ fraction, d < 10)
    (hrest : ∀ b ∈ rest.head?, isAsciiDigit b = false ∧ b ≠ 0x2e) :
    readFraction bytes invalid i = .ok ((fractionMillis fraction : Nat), i + (fractionText fraction).length) := by
  rw [readFraction, ← List.head?_drop]
  cases hfraction : fraction with
  | nil =>
    rw [hfraction] at h
    rw [h, if_neg]
    · rfl
    · intro hpoint
      exact (hrest 0x2e hpoint).2 rfl
  | cons d digitList =>
    have htext : fractionText fraction = '.' :: fraction.map Nat.digitChar := by rw [hfraction]; rfl
    have hne : fraction ≠ [] := by rw [hfraction]; exact List.cons_ne_nil _ _
    rw [← hfraction]
    rw [htext, asciiBytes_cons, asciiBytes_digits, List.cons_append] at h
    have hnext : bytes.drop (i + 1) = fraction.map digitByte ++ rest := by
      rw [← List.drop_drop (j := i), h]
      rfl
    have hpoint : (bytes.drop i).head? = some 0x2e := by
      rw [h]
      rfl
    have hlength : fraction.length ≠ 0 := fun hzero => hne (List.eq_nil_of_length_eq_zero hzero)
    rw [if_pos hpoint]
    dsimp only
    rw [hnext, skipDigits_of_map hdigits fun b hb => (hrest b hb).1, refuseIf_of_not (by omega), ok_bind,
      strGet_of_drop hascii hnext (by simpa using hne) (by rw [List.length_map]), okOr_some, ok_bind,
      (parseI64_paddedFraction hne hdigits).1, okOr_some, ok_bind, htext, List.length_cons, List.length_map]
    show Except.ok (_, i + 1 + fraction.length) = _
    rw [show i + 1 + fraction.length = i + (fraction.length + 1) by omega]

theorem readOffset_of_drop {zone : Zone} (hascii : ∀ b ∈ bytes, b < 0x80) (h : bytes.drop i = asciiBytes zone.text)
    (hvalid : zone.Valid) : readOffset bytes invalid i = .ok zone.minutes := by
  have hlength := congrArg List.length h
  rw [List.length_drop, length_asciiBytes] at hlength
  cases zone with
  | utc letter =>
    have hget : bytes[i]? = some letter.toUInt8 := by
      rw [← List.head?_drop, h]
      rfl
    have hletter : letter.toUInt8 = 0x5a ∨ letter.toUInt8 = 0x7a := by
      rcases hvalid with rfl | rfl
      · exact .inl rfl
      · exact .inr rfl
    change bytes.length - i = 1 at hlength
    rw [readOffset, hget]
    dsimp only
    rw [if_pos ⟨hletter, by omega⟩]
    rfl
  | offset negative hours minutes =>
    obtain ⟨hhours, hminutes⟩ := hvalid
    obtain ⟨sign, hsign, hsignByte⟩ : ∃ sign : UInt8, (if negative then '-' else '+' : Char).toUInt8 = sign ∧
        (sign = 0x2b ∨ sign = 0x2d) := by
      cases negative
      · exact ⟨_, rfl, .inl rfl⟩
      · exact ⟨_, rfl, .inr rfl⟩
    rw [Zone.text, asciiBytes_cons, asciiBytes_append, asciiBytes_cons, hsign] at h
    have hget : bytes[i]? = some sign := by
      rw [← List.head?_drop, h]
      rfl
    have hhoursDrop : bytes.drop (i + 1) = asciiBytes (digitChars 2 hours) ++ 0x3a :: asciiBytes (digitChars 2 minutes) := by
      rw [← List.drop_drop (j := i), h]
      rfl
    have hcolonDrop : bytes.drop (i + 3) = 0x3a :: asciiBytes (digitChars 2 minutes) := by
      rw [show i + 3 = i + 1 + 2 by omega, ← List.drop_drop (j := i + 1), hhoursDrop,
        List.drop_append_of_le_length (by simp), List.drop_of_length_le (by simp), List.nil_append]
    have hminutesDrop : bytes.drop (i + 4) = asciiBytes (digitChars 2 minutes) ++ [] := by
      rw [show i + 4 = i + 3 + 1 by omega, ← List.drop_drop (j := i + 3), hcolonDrop, List.append_nil]
      rfl
    simp only [Zone.text, List.length_cons, List.length_append, length_digitChars] at hlength
    have hnotUtc : ¬ ((sign = 0x5a ∨ sign = 0x7a) ∧ i + 1 = bytes.length) := by
      rintro ⟨-, hend⟩
      omega
    rw [readOffset, hget]
    dsimp only
    rw [if_neg hnotUtc, if_pos ⟨hsignByte, by omega⟩, byteAt_of_drop hcolonDrop, ok_bind,
      refuseIf_of_not (by decide), ok_bind,
      digits_of_drop hascii hhoursDrop (by omega) (by decide) (by decide) (by omega), ok_bind,
      digits_of_drop hascii hminutesDrop (by omega) (by decide) (by decide) (by omega), ok_bind,
      refuseIf_of_not (by omega), ok_bind, i64_ok (by omega) (by omega), ok_bind, i64_ok (by omega) (by omega), ok_bind]
    cases negative
    · rw [if_neg (by rw [← hsign]; decide)]
      rfl
    · obtain rfl : sign = 0x2d := hsign.symm
      rw [if_pos rfl, i64_ok (by omega) (by omega)]
      rfl

theorem drop_behind_digits {width n stop : Nat} (h : bytes.drop i = asciiBytes (digitChars width n) ++ rest)
    (hstop : stop = i + width) : bytes.drop stop = rest := by
  rw [hstop, ← List.drop_drop (j := i), h, List.drop_append_of_le_length (by simp), List.drop_of_length_le (by simp),
    List.nil_append]

theorem drop_behind {b : UInt8} {stop : Nat} (h : bytes.drop i = b :: rest) (hstop : stop = i + 1) :
    bytes.drop stop = rest := by
  rw [hstop, ← List.drop_drop (j := i), h]
  rfl

end

theorem month_lt {t : Timestamp} : t.month < 10 ^ 2 ∧ t.day < 10 ^ 2 := by
  have hday := t.date.day_le
  have hmonth := t.date.month_le
  have hlength : monthLength t.year t.month ≤ 31 := by unfold monthLength; split <;> split <;> omega
  omega

theorem head_zone (zone : Zone) (hvalid : zone.Valid) :
    ∀ b ∈ (asciiBytes zone.text).head?, isAsciiDigit b = false ∧ b ≠ 0x2e := by
  intro b hb
  cases zone with
  | utc letter =>
    cases hb
    rcases hvalid with rfl | rfl <;> decide
  | offset negative hours minutes =>
    cases hb
    cases negative <;> decide

/-- **Every timestamp's text is read**, as its instant. -/
theorem parse_timestamp (t : Timestamp) :
    parseRfc3339UnixMillis (String.ofList t.text) = .ok t.unixMillis.toNat := by
  obtain ⟨value, hvalue⟩ : ∃ value, value = String.ofList t.text := ⟨_, rfl⟩
  obtain ⟨bytes, hbytes⟩ : ∃ bytes, bytes = value.toUTF8.toList := ⟨_, rfl⟩
  have htext : bytes = asciiBytes t.text := by
    rw [hbytes]
    exact bytes_of_toList (isAscii_text t) (by rw [hvalue, String.toList_ofList])
  have hascii : ∀ b ∈ bytes, b < 0x80 := by
    rw [htext]
    exact lt_asciiBytes (isAscii_text t)
  have h0 : bytes.drop 0 = asciiBytes (digitChars 4 t.year) ++ 0x2d :: (asciiBytes (digitChars 2 t.month) ++
      0x2d :: (asciiBytes (digitChars 2 t.day) ++ t.separator.toUInt8 :: (asciiBytes (digitChars 2 t.hour) ++
        0x3a :: (asciiBytes (digitChars 2 t.minute) ++ 0x3a :: (asciiBytes (digitChars 2 t.second) ++
          (asciiBytes (fractionText t.fraction) ++ asciiBytes t.zone.text)))))) := by
    rw [List.drop_zero, htext]
    simp only [Timestamp.text, asciiBytes_append, asciiBytes_cons, List.append_assoc, List.cons_append]
    rfl
  have h4 : bytes.drop 4 = _ := drop_behind_digits h0 rfl
  have h5 : bytes.drop 5 = _ := drop_behind h4 rfl
  have h7 : bytes.drop 7 = _ := drop_behind_digits h5 rfl
  have h8 : bytes.drop 8 = _ := drop_behind h7 rfl
  have h10 : bytes.drop 10 = _ := drop_behind_digits h8 rfl
  have h11 : bytes.drop 11 = _ := drop_behind h10 rfl
  have h13 : bytes.drop 13 = _ := drop_behind_digits h11 rfl
  have h14 : bytes.drop 14 = _ := drop_behind h13 rfl
  have h16 : bytes.drop 16 = _ := drop_behind_digits h14 rfl
  have h17 : bytes.drop 17 = _ := drop_behind h16 rfl
  have h19 : bytes.drop 19 = _ := drop_behind_digits h17 rfl
  have hzone : bytes.drop (19 + (fractionText t.fraction).length) = asciiBytes t.zone.text := by
    rw [← List.drop_drop (j := 19), h19, ← length_asciiBytes, List.drop_left]
  have hlength : ¬ bytes.length < 20 := by
    have hdrop := congrArg List.length h19
    have hpos : 0 < t.zone.text.length := by
      cases t.zone with
      | utc letter => exact Nat.one_pos
      | offset negative hours minutes => exact Nat.succ_pos _
    rw [List.length_drop, List.length_append, length_asciiBytes, length_asciiBytes] at hdrop
    omega
  have hseparator : t.separator.toUInt8 = 0x54 ∨ t.separator.toUInt8 = 0x74 := by
    rcases t.separator_mem with h | h
    · rw [h]; exact .inl rfl
    · rw [h]; exact .inr rfl
  have hyear := t.year_lt
  obtain ⟨hmonth, hday⟩ := @month_lt t
  have hmonthPos := t.date.month_pos
  have hmonthLe := t.date.month_le
  have hdayPos := t.date.day_pos
  have hdayLe := t.date.day_le
  have hhour := t.hour_le
  have hminute := t.minute_le
  have hsecond := t.second_le
  unfold parseRfc3339UnixMillis
  rw [← hvalue]
  dsimp only
  rw [← hbytes]
  rw [refuseIf_of_not hlength, ok_bind, byteAt_of_drop h4, ok_bind, refuseIf_of_not (by decide), ok_bind,
    byteAt_of_drop h7, ok_bind, refuseIf_of_not (by decide), ok_bind, byteAt_of_drop h10, ok_bind,
    refuseIf_of_not (not_not.mpr hseparator), ok_bind, byteAt_of_drop h13, ok_bind, refuseIf_of_not (by decide), ok_bind,
    byteAt_of_drop h16, ok_bind, refuseIf_of_not (by decide), ok_bind,
    digits_of_drop hascii h0 (by omega) (by decide) (by decide) rfl, ok_bind,
    digits_of_drop hascii h5 hmonth (by decide) (by decide) rfl, ok_bind,
    digits_of_drop hascii h8 hday (by decide) (by decide) rfl, ok_bind,
    digits_of_drop hascii h11 (by omega) (by decide) (by decide) rfl, ok_bind,
    digits_of_drop hascii h14 (by omega) (by decide) (by decide) rfl, ok_bind,
    digits_of_drop hascii h17 (by omega) (by decide) (by decide) rfl, ok_bind,
    refuseIf_of_not (by omega), ok_bind, daysInMonth_eq hmonthPos hmonthLe, refuseIf_of_not (by omega), ok_bind,
    refuseIf_of_not (by omega), ok_bind,
    readFraction_of_drop hascii h19 t.digits (head_zone t.zone t.zone_valid), ok_bind]
  dsimp only
  rw [readOffset_of_drop hascii hzone t.zone_valid, ok_bind]
  exact instant_eq t _

/-! ### What is written -/

theorem zeroPadded_eq {width n : Nat} (hpos : 0 < width) (h : n < 10 ^ width) :
    zeroPadded width (n : Int) = digitChars width n := (digitChars_eq hpos h).symm

/-- The last millisecond of the year 9999. -/
def lastUnixMillis : Nat := 253402300799999

/-- The digits of some milliseconds. -/
def milliDigits (millis : Nat) : List Nat := [millis / 100, millis / 10 % 10, millis % 10]

theorem milliDigits_spec {millis : Nat} (h : millis < 1000) : (∀ d ∈ milliDigits millis, d < 10) ∧
    fractionMillis (milliDigits millis) = millis ∧
      fractionText (milliDigits millis) = '.' :: digitChars 3 millis := by
  have hdigits : ∀ d ∈ milliDigits millis, d < 10 := by
    simp only [milliDigits, List.mem_cons, List.not_mem_nil, or_false]
    rintro d (rfl | rfl | rfl) <;> omega
  have hdecimal : decimal (milliDigits millis) = millis := by
    show 10 * (10 * (10 * 0 + millis / 100) + millis / 10 % 10) + millis % 10 = millis
    omega
  refine ⟨hdigits, ?_, ?_⟩
  · rw [fractionMillis, hdecimal, show (milliDigits millis).length = 3 from rfl]
    omega
  · have hchars := digitChars_decimal hdigits
    rw [hdecimal] at hchars
    exact congrArg ('.' :: ·) hchars.symm

theorem unixMillisRfc3339_of_date {unixMs year month day : Nat} (h : unixMs < 2 ^ 64)
    (hdate : civilFromDays (unixMs / 1000 / 86400 : Nat) = .ok (year, month, day)) :
    unixMillisRfc3339 unixMs = .ok (String.ofList (zeroPadded 4 year ++ '-' :: zeroPadded 2 month ++
      '-' :: zeroPadded 2 day ++ 'T' :: zeroPadded 2 (unixMs / 1000 % 86400 / 3600 : Nat) ++
      ':' :: zeroPadded 2 (unixMs / 1000 % 86400 % 3600 / 60 : Nat) ++
      ':' :: zeroPadded 2 (unixMs / 1000 % 86400 % 60 : Nat) ++ '.' :: zeroPadded 3 (unixMs % 1000 : Nat) ++ ['Z'])) := by
  have hdays : asI64 (unixMs / 1000 / 86400) = (unixMs / 1000 / 86400 : Nat) := if_pos (by omega)
  unfold unixMillisRfc3339
  dsimp only
  rw [hdays, hdate, ok_bind]
  rfl

/-- **What is written** is a timestamp's text, which denotes the instant. -/
theorem unixMillisRfc3339_eq {unixMs : Nat} (h : unixMs ≤ lastUnixMillis) : ∃ t : Timestamp,
    unixMillisRfc3339 unixMs = .ok (String.ofList t.text) ∧ t.unixMillis = unixMs := by
  unfold lastUnixMillis at h
  have hcivil := @civilFromDays_eq (unixMs / 1000 / 86400 : Nat) (by omega) (by omega)
  obtain ⟨year, month, day, hyear, hmonth, hday, hdate, hnumber⟩ :=
    @civil_spec ((unixMs / 1000 / 86400 : Nat) + 719468) (by omega)
  rw [hyear, hmonth, hday] at hcivil
  have hyearLt : year < 10000 := by
    have hclosed := daysBeforeYear_eq year
    have hle : daysBeforeYear year ≤ dayNumber year month day := by
      unfold dayNumber
      omega
    omega
  obtain ⟨hdigits, hmillis, hfraction⟩ := milliDigits_spec (Nat.mod_lt unixMs (by decide : 1000 > 0))
  let t : Timestamp :=
    { year, month, day, separator := 'T', hour := unixMs / 1000 % 86400 / 3600
      minute := unixMs / 1000 % 86400 % 3600 / 60, second := unixMs / 1000 % 86400 % 60
      fraction := milliDigits (unixMs % 1000), zone := .utc 'Z'
      year_lt := hyearLt
      date := hdate
      separator_mem := .inl rfl
      hour_le := by omega
      minute_le := by omega
      second_le := by omega
      digits := hdigits
      zone_valid := .inl rfl }
  obtain ⟨hmonthLt, hdayLt⟩ := @month_lt t
  refine ⟨t, ?_, ?_⟩
  · rw [unixMillisRfc3339_of_date (by omega) hcivil, zeroPadded_eq (by decide) hyearLt,
      zeroPadded_eq (by decide) hmonthLt, zeroPadded_eq (by decide) hdayLt, zeroPadded_eq (by decide) (by omega),
      zeroPadded_eq (by decide) (by omega), zeroPadded_eq (by decide) (by omega), zeroPadded_eq (by decide) (by omega)]
    simp only [t, Timestamp.text, hfraction, Zone.text]
  · have hepoch : (dayNumber 1970 1 1 : Int) = 719528 := by decide +kernel
    simp only [t, Timestamp.unixMillis, hmillis, hnumber, hepoch, Zone.minutes]
    omega

/-- Nothing that is written panics. -/
theorem unixMillisRfc3339_ok {unixMs : Nat} (h : unixMs < 2 ^ 64) : ∃ text, unixMillisRfc3339 unixMs = .ok text := by
  have hcivil := @civilFromDays_eq (unixMs / 1000 / 86400 : Nat) (by omega) (by omega)
  obtain ⟨year, month, day, hyear, hmonth, hday, -, -⟩ :=
    @civil_spec ((unixMs / 1000 / 86400 : Nat) + 719468) (by omega)
  rw [hyear, hmonth, hday] at hcivil
  exact ⟨_, unixMillisRfc3339_of_date h hcivil⟩

/-- **Timestamps are written and read correctly.** An instant up to the end of the year 9999 is read back from what
is written for it; a text is refused, or denotes the instant that is read, the epoch standing for what is before it;
and neither direction panics. -/
theorem rfc3339_correct :
    (∀ unixMs ≤ lastUnixMillis, ∃ text, unixMillisRfc3339 unixMs = .ok text ∧
      parseRfc3339UnixMillis text = .ok unixMs) ∧
    (∀ value unixMs, parseRfc3339UnixMillis value = .ok unixMs →
      ∃ t : Timestamp, value.toList = t.text ∧ unixMs = t.unixMillis.toNat) ∧
    (∀ t : Timestamp, parseRfc3339UnixMillis (String.ofList t.text) = .ok t.unixMillis.toNat) ∧
    (∀ value, parseRfc3339UnixMillis value ≠ .error .panicked) ∧
    ∀ unixMs < 2 ^ 64, unixMillisRfc3339 unixMs ≠ .error .panicked := by
  refine ⟨fun unixMs h => ?_, fun value unixMs h => ?_, parse_timestamp, fun value h => ?_, fun unixMs hlt h => ?_⟩
  · obtain ⟨t, htext, hinstant⟩ := unixMillisRfc3339_eq h
    refine ⟨_, htext, (parse_timestamp t).trans ?_⟩
    rw [hinstant, Int.toNat_natCast]
  · have hreads := parseRfc3339UnixMillis_reads value
    rwa [h] at hreads
  · have hreads := parseRfc3339UnixMillis_reads value
    rw [h] at hreads
    exact hreads
  · obtain ⟨text, htext⟩ := unixMillisRfc3339_ok hlt
    rw [htext] at h
    cases h

/-- A leap day, with a fraction, at an offset. -/
def leapDay : Timestamp where
  year := 2024
  month := 2
  day := 29
  separator := 't'
  hour := 0
  minute := 30
  second := 0
  fraction := [2, 5]
  zone := .offset false 5 30
  year_lt := by decide
  date := ⟨by decide, by decide, by decide, by decide⟩
  separator_mem := by decide
  hour_le := by decide
  minute_le := by decide
  second_le := by decide
  digits := by decide
  zone_valid := ⟨by decide, by decide⟩

/-- The last instant of a year of four digits is read back, and a local time on a leap day as its instant. -/
theorem rfc3339_correct_last : ∃ (text : String) (t : Timestamp), unixMillisRfc3339 lastUnixMillis = .ok text ∧
    parseRfc3339UnixMillis text = .ok lastUnixMillis ∧ text.toList = t.text ∧ lastUnixMillis = t.unixMillis.toNat ∧
      parseRfc3339UnixMillis "2024-02-29t00:30:00.25+05:30" = .ok 1709146800250 := by
  obtain ⟨text, hwrite, hread⟩ := rfc3339_correct.1 lastUnixMillis (Nat.le_refl _)
  obtain ⟨t, htext, hinstant⟩ := rfc3339_correct.2.1 text lastUnixMillis hread
  have hleap := rfc3339_correct.2.2.1 leapDay
  rw [show String.ofList leapDay.text = "2024-02-29t00:30:00.25+05:30" by decide +kernel,
    show leapDay.unixMillis.toNat = 1709146800250 by decide +kernel] at hleap
  exact ⟨text, t, hwrite, hread, htext, hinstant, hleap⟩

end AikitRuntime.A2a
