import AikitRuntime.Durability.QuickDigest
import AikitRuntime.A2a.Records
import Mathlib.Data.List.Perm.Basic
import Mathlib.Algebra.BigOperators.Group.List.Basic
import Mathlib.Data.List.Induction

/-!
# The size of JSON

How many bytes a value takes is a sum over its fields or items, whatever their order: an object takes a
colon, a comma and the quoted key for each field beside the value itself. So two objects with the same keys
and values of the same sizes take the same bytes, and an object takes at least what each of its fields does.
-/

namespace AikitRuntime.A2a

open Library Durability Mcp

/-! ### Characters -/

/-- The bytes of some characters. -/
def charBytes (chars : List Char) : Nat := (String.ofList chars).utf8ByteSize

@[simp] theorem charBytes_nil : charBytes [] = 0 := rfl

@[simp] theorem charBytes_append (xs ys : List Char) : charBytes (xs ++ ys) = charBytes xs + charBytes ys := by
  unfold charBytes
  rw [String.ofList_append, String.utf8ByteSize_append]

theorem charBytes_cons (c : Char) (rest : List Char) : charBytes (c :: rest) = c.utf8Size + charBytes rest := by
  rw [← List.singleton_append, charBytes_append]
  congr 1
  exact String.utf8ByteSize_singleton

/-- Items between commas, and one comma more. -/
theorem charBytes_commaSeparated (items : List (List Char)) :
    charBytes (commaSeparated items) = (items.map fun item => charBytes item + 1).sum - 1 := by
  induction items with
  | nil => rfl
  | cons item rest ih =>
    cases rest with
    | nil => simp [commaSeparated]
    | cons next rest =>
      have hcomma : (',' : Char).utf8Size = 1 := by decide
      rw [commaSeparated, charBytes_append, charBytes_cons, ih, hcomma]
      · simp only [List.map_cons, List.sum_cons]
        omega
      · exact fun h => by cases h

/-! ### Values -/

/-- What a field takes beside the braces: the key, a colon, the value and a comma. -/
def fieldBytes (field : String × Value) : Nat :=
  charBytes (jsonString field.1) + (1 + serializedBytes field.2) + 1

theorem sum_insertRendered (size : String × List Char → Nat) (key : String) (text : List Char)
    (fields : List (String × List Char)) :
    ((insertRendered key text fields).map size).sum = size (key, text) + (fields.map size).sum := by
  induction fields with
  | nil => rfl
  | cons field rest ih =>
    obtain ⟨k, t⟩ := field
    unfold insertRendered
    split
    · rfl
    · rw [List.map_cons, List.sum_cons, ih, List.map_cons, List.sum_cons]
      omega

theorem sum_canonicalFields (fields : List (String × Value)) :
    ((canonicalFields fields).map fun field => charBytes (jsonString field.1 ++ ':' :: field.2) + 1).sum =
      (fields.map fieldBytes).sum := by
  induction fields with
  | nil => rfl
  | cons field rest ih =>
    obtain ⟨key, value⟩ := field
    have hcolon : (':' : Char).utf8Size = 1 := by decide
    rw [canonicalFields, sum_insertRendered, ih, List.map_cons, List.sum_cons, charBytes_append, charBytes_cons, hcolon]
    rfl

/-- The size of an object. -/
theorem serializedBytes_object (fields : List (String × Value)) :
    serializedBytes (.object fields) = 1 + ((fields.map fieldBytes).sum - 1 + 1) := by
  have hopen : ('\x7b' : Char).utf8Size = 1 := by decide
  have hclose : charBytes ['\x7d'] = 1 := by decide
  have hsize : serializedBytes (.object fields) = charBytes (canonicalJson (.object fields)) := rfl
  rw [hsize, canonicalJson, charBytes_cons, charBytes_append, charBytes_commaSeparated, List.map_map, hopen, hclose,
    ← sum_canonicalFields]
  rfl

theorem canonicalItems_eq (items : List Value) : canonicalItems items = items.map canonicalJson := by
  induction items with
  | nil => rfl
  | cons item rest ih => rw [canonicalItems, ih, List.map_cons]

/-- The size of an array. -/
theorem serializedBytes_array (items : List Value) :
    serializedBytes (.array items) = 1 + ((items.map fun item => serializedBytes item + 1).sum - 1 + 1) := by
  have hopen : ('[' : Char).utf8Size = 1 := by decide
  have hclose : charBytes [']'] = 1 := by decide
  have hsize : serializedBytes (.array items) = charBytes (canonicalJson (.array items)) := rfl
  rw [hsize, canonicalJson, charBytes_cons, charBytes_append, charBytes_commaSeparated, canonicalItems_eq, List.map_map,
    hopen, hclose]
  rfl

variable {fields : List (String × Value)} {key : String} {value : Value}

/-- An object takes at least what one of its fields does. -/
theorem serializedBytes_field_le
    (h : Value.field? key fields = some value) : serializedBytes value ≤ serializedBytes (.object fields) := by
  have hle : serializedBytes value + 1 ≤ (fields.map fieldBytes).sum := by
    induction fields with
    | nil => cases h
    | cons field rest ih =>
      obtain ⟨k, v⟩ := field
      rw [Value.field?] at h
      rw [List.map_cons, List.sum_cons]
      split at h
      · rw [Option.some.injEq] at h
        subst h
        have hvalue : serializedBytes v + 1 ≤ fieldBytes (k, v) := by
          unfold fieldBytes
          dsimp only
          omega
        omega
      · have hrest := ih h
        omega
  rw [serializedBytes_object]
  omega

theorem field?_foldl_insertField (fields start : List (String × Value))
    (hmem : (key, value) ∈ fields) (hunique : ∀ other, (key, other) ∈ fields → other = value) :
    Value.field? key (fields.foldl (fun rest field => Value.insertField field.1 field.2 rest) start) = some value := by
  induction fields using List.reverseRecOn with
  | nil => cases hmem
  | append_singleton front last ih =>
    obtain ⟨k, v⟩ := last
    rw [List.foldl_append, List.foldl_cons, List.foldl_nil, Value.field?_insertField]
    by_cases hkey : k = key
    · subst hkey
      rw [if_pos rfl, hunique v (by simp)]
    · rw [if_neg hkey]
      refine ih ?_ fun other hother => hunique other (List.mem_append_left _ hother)
      rcases List.mem_append.mp hmem with hfront | hlast
      · exact hfront
      · rw [List.mem_singleton, Prod.mk.injEq] at hlast
        exact absurd hlast.1.symm hkey

/-- An object takes at least what a field of it does that no other field replaces. -/
theorem serializedBytes_le_ofFields (key : String)
    (hmem : (key, value) ∈ fields) (hunique : ∀ other, (key, other) ∈ fields → other = value) :
    serializedBytes value ≤ serializedBytes (.ofFields fields) :=
  serializedBytes_field_le (field?_foldl_insertField fields [] hmem hunique)

/-! ### Sizes that agree -/

/-- The same keys, and values of the same sizes. -/
abbrev SameSizes : List (String × Value) → List (String × Value) → Prop :=
  List.Forall₂ fun field field' => field.1 = field'.1 ∧ serializedBytes field.2 = serializedBytes field'.2

variable {fields' : List (String × Value)}

theorem SameSizes.insertField {value' : Value}
    (h : SameSizes fields fields') (hvalue : serializedBytes value = serializedBytes value') :
    SameSizes (Value.insertField key value fields) (Value.insertField key value' fields') := by
  induction h with
  | nil => exact .cons ⟨rfl, hvalue⟩ .nil
  | @cons field field' rest rest' hfield hrest ih =>
    obtain ⟨k, v⟩ := field
    obtain ⟨k', v'⟩ := field'
    obtain ⟨rfl, hv⟩ := hfield
    unfold Value.insertField
    split
    · exact .cons ⟨rfl, hvalue⟩ hrest
    · split
      · exact .cons ⟨rfl, hvalue⟩ (.cons ⟨rfl, hv⟩ hrest)
      · exact .cons ⟨rfl, hv⟩ ih

theorem SameSizes.foldl {start start' : List (String × Value)} (h : SameSizes fields fields')
    (hstart : SameSizes start start') :
    SameSizes (fields.foldl (fun rest field => Value.insertField field.1 field.2 rest) start)
      (fields'.foldl (fun rest field => Value.insertField field.1 field.2 rest) start') := by
  induction h generalizing start start' with
  | nil => exact hstart
  | @cons field field' rest rest' hfield _ ih =>
    rw [List.foldl_cons, List.foldl_cons, ← hfield.1]
    exact ih (hstart.insertField hfield.2)

/-- Objects with the same keys and values of the same sizes. -/
theorem SameSizes.ofFields (h : SameSizes fields fields') :
    serializedBytes (.ofFields fields) = serializedBytes (.ofFields fields') := by
  have hsorted := h.foldl .nil
  unfold Value.ofFields
  rw [serializedBytes_object, serializedBytes_object]
  congr 3
  generalize fields.foldl _ _ = sorted at hsorted ⊢
  generalize fields'.foldl _ _ = sorted' at hsorted ⊢
  induction hsorted with
  | nil => rfl
  | cons hfield _ ih =>
    rw [List.map_cons, List.map_cons, List.sum_cons, List.sum_cons, ih, fieldBytes, fieldBytes, hfield.1, hfield.2]

/-! ### Plain texts -/

/-- A character that JSON does not escape, of one byte. -/
def isPlain (c : Char) : Bool := c.utf8Size = 1 && escapeChar c = [c]

theorem charBytes_plain {chars : List Char} (h : chars.all isPlain = true) : charBytes chars = chars.length := by
  induction chars with
  | nil => rfl
  | cons c rest ih =>
    rw [List.all_cons, Bool.and_eq_true] at h
    obtain ⟨hfirst, hrest⟩ := h
    simp only [isPlain, Bool.and_eq_true, decide_eq_true_eq] at hfirst
    rw [charBytes_cons, ih hrest, hfirst.1, List.length_cons, Nat.add_comm]

theorem escape_plain {chars : List Char} (h : chars.all isPlain = true) : chars.flatMap escapeChar = chars := by
  induction chars with
  | nil => rfl
  | cons c rest ih =>
    rw [List.all_cons, Bool.and_eq_true] at h
    obtain ⟨hfirst, hrest⟩ := h
    simp only [isPlain, Bool.and_eq_true, decide_eq_true_eq] at hfirst
    rw [List.flatMap_cons, ih hrest, hfirst.2]
    rfl

/-- A text of plain characters takes as many bytes as it has characters, and two quotes. -/
theorem serializedBytes_plain {text : String} (h : text.toList.all isPlain = true) :
    serializedBytes (.string text) = text.toList.length + 2 := by
  have hquote : ('"' : Char).utf8Size = 1 := by decide
  have hlast : charBytes ['"'] = 1 := by decide
  have hsize : serializedBytes (.string text) = charBytes (canonicalJson (.string text)) := rfl
  rw [hsize, canonicalJson, jsonString_eq, charBytes_cons, charBytes_append, hquote, hlast]
  rw [escape_plain h, charBytes_plain h]
  omega

/-! ### Sizes, quick to evaluate -/

/-- The byte of a plain character. -/
def isPlainByte (b : UInt8) : Bool :=
  Nat.ble 32 b.toNat && Nat.blt b.toNat 127 && !Nat.beq b.toNat 34 && !Nat.beq b.toNat 92

theorem isPlain_of_byte {c : Char} (hascii : Utf8.IsAscii c) (h : isPlainByte c.toUInt8 = true) : isPlain c = true := by
  have hplain : ∀ n, n < 127 → 32 ≤ n → n ≠ 34 → n ≠ 92 → isPlain (Char.ofNat n) = true := by decide
  have hbyte : c.toUInt8.toNat = c.toNat := by
    rw [Char.toUInt8, UInt32.toNat_toUInt8]
    exact Nat.mod_eq_of_lt (Nat.lt_trans hascii (by decide))
  unfold isPlainByte at h
  simp only [hbyte, Bool.and_eq_true, Nat.ble_eq, Nat.blt_eq, Bool.not_eq_true'] at h
  rw [← Char.ofNat_toNat c]
  exact hplain _ h.1.1.2 h.1.1.1 (Nat.ne_of_beq_eq_false h.1.2) (Nat.ne_of_beq_eq_false h.2)

/-- The size of a text, by its bytes where each is plain. -/
def quickString (text : String) : Nat :=
  if text.toByteArray.data.toList.all isPlainByte then text.toByteArray.data.toList.length + 2
  else serializedBytes (.string text)

theorem quickString_eq (text : String) : serializedBytes (.string text) = quickString text := by
  unfold quickString
  split
  · next hplain =>
    rw [Utf8.bytes_eq, List.all_eq_true] at hplain
    have hascii := Utf8.isAscii_of_bytes fun b hb => by
      have hsmall := hplain b hb
      simp only [isPlainByte, Bool.and_eq_true, Nat.blt_eq] at hsmall
      exact UInt8.lt_iff_toNat_lt.mpr (Nat.lt_trans hsmall.1.1.2 (by decide))
    rw [Utf8.flatMap_ascii hascii] at hplain
    rw [Utf8.bytes_eq, Utf8.flatMap_ascii hascii, List.length_map]
    exact serializedBytes_plain <| List.all_eq_true.mpr fun c hc =>
      isPlain_of_byte (hascii c hc) (hplain _ (List.mem_map_of_mem hc))
  · rfl

mutual

/-- `serializedBytes`, quick to evaluate. -/
def quickBytes : Value → Nat
  | .string text => quickString text
  | .array items => 1 + (quickItems items - 1 + 1)
  | .object fields => 1 + (quickFields fields - 1 + 1)
  | v => serializedBytes v

def quickItems : List Value → Nat
  | [] => 0
  | item :: rest => quickBytes item + 1 + quickItems rest

def quickFields : List (String × Value) → Nat
  | [] => 0
  | (key, value) :: rest => quickString key + (1 + quickBytes value) + 1 + quickFields rest

end

mutual

theorem serializedBytes_eq_quick : ∀ v : Value, serializedBytes v = quickBytes v
  | .null | .bool _ | .number _ => rfl
  | .string text => quickString_eq text
  | .array items => by rw [serializedBytes_array, quickBytes, sum_eq_quickItems items]
  | .object fields => by rw [serializedBytes_object, quickBytes, sum_eq_quickFields fields]

theorem sum_eq_quickItems : ∀ items : List Value,
    (items.map fun item => serializedBytes item + 1).sum = quickItems items
  | [] => rfl
  | item :: rest => by
    rw [List.map_cons, List.sum_cons, quickItems, serializedBytes_eq_quick item, sum_eq_quickItems rest]

theorem sum_eq_quickFields : ∀ fields : List (String × Value), (fields.map fieldBytes).sum = quickFields fields
  | [] => rfl
  | (key, value) :: rest => by
    rw [List.map_cons, List.sum_cons, quickFields, ← quickString_eq key, ← serializedBytes_eq_quick value,
      ← sum_eq_quickFields rest]
    rfl

end

end AikitRuntime.A2a
