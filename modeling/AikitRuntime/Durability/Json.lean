import AikitRuntime.Library.Utf8
import Mathlib.Data.List.Basic
import Mathlib.Algebra.Ring.Nat

/-!
# JSON values, and how typed envelopes are read from them

The durable log carries JSON: an activity's input and output, the application state,
an approval's payload. `Value` is `serde_json::Value`. The fields of an object are
listed in key order, one for each key; `ofFields` builds such a list. A floating-point
number is carried as the text it prints as. So values are equal as Rust's `PartialEq`
has it, but for `-0.0` and `0.0`, which Rust takes to be equal and which differ here.

Some values are envelopes: the code reads them back into a struct with
`serde_json::from_value` and refuses the event when that fails. `Decoder` is a derived
`Deserialize`: `record` reads a struct from an object, field by field, or from an array
in the fields' order, `variant` reads an enum without data, and `required`, `optional`
and `defaulted` are the three ways a field may be absent. Only whether a value decodes,
and to what, is modelled; the text of serde's own errors is not.

## Scope

Values are finite trees, as parsed JSON is. Decoders are run on values, never on text.
-/

namespace AikitRuntime.Durability

/-- `serde_json::Number`. -/
inductive Number where
  /-- An unsigned integer, below `2 ^ 64`. -/
  | posInt (n : Nat)
  /-- A negative integer, `-n`. -/
  | negInt (n : Nat)
  /-- A floating-point number, as it prints. -/
  | float (text : String)
  deriving DecidableEq

/-- `serde_json::Value`. -/
inductive Value where
  | null
  | bool (b : Bool)
  | number (n : Number)
  | string (s : String)
  | array (items : List Value)
  /-- The fields in key order. -/
  | object (fields : List (String × Value))

namespace Value

/- Equality is decided by recursion on the values, which `deriving` does not do through
the lists inside `Value`. -/
mutual

def decEq : (v w : Value) → Decidable (v = w)
  | .null, w => match w with
    | .null => isTrue rfl
    | .bool _ | .number _ | .string _ | .array _ | .object _ => isFalse nofun
  | .bool b, w => match w with
    | .bool c => decidable_of_iff (b = c) (by simp)
    | .null | .number _ | .string _ | .array _ | .object _ => isFalse nofun
  | .number n, w => match w with
    | .number k => decidable_of_iff (n = k) (by simp)
    | .null | .bool _ | .string _ | .array _ | .object _ => isFalse nofun
  | .string s, w => match w with
    | .string t => decidable_of_iff (s = t) (by simp)
    | .null | .bool _ | .number _ | .array _ | .object _ => isFalse nofun
  | .array xs, w => match w with
    | .array ys => match decEqItems xs ys with
      | isTrue h => isTrue (congrArg _ h)
      | isFalse h => isFalse fun heq => h (array.inj heq)
    | .null | .bool _ | .number _ | .string _ | .object _ => isFalse nofun
  | .object xs, w => match w with
    | .object ys => match decEqFields xs ys with
      | isTrue h => isTrue (congrArg _ h)
      | isFalse h => isFalse fun heq => h (object.inj heq)
    | .null | .bool _ | .number _ | .string _ | .array _ => isFalse nofun

def decEqItems : (xs ys : List Value) → Decidable (xs = ys)
  | [], [] => isTrue rfl
  | [], _ :: _ => isFalse nofun
  | _ :: _, [] => isFalse nofun
  | x :: xs, y :: ys => match decEq x y, decEqItems xs ys with
    | isTrue h, isTrue h' => isTrue (by rw [h, h'])
    | isFalse h, _ => isFalse fun heq => h (List.cons.inj heq).1
    | _, isFalse h => isFalse fun heq => h (List.cons.inj heq).2

def decEqFields : (xs ys : List (String × Value)) → Decidable (xs = ys)
  | [], [] => isTrue rfl
  | [], _ :: _ => isFalse nofun
  | _ :: _, [] => isFalse nofun
  | x :: xs, y :: ys => match decEqField x y, decEqFields xs ys with
    | isTrue h, isTrue h' => isTrue (by rw [h, h'])
    | isFalse h, _ => isFalse fun heq => h (List.cons.inj heq).1
    | _, isFalse h => isFalse fun heq => h (List.cons.inj heq).2

def decEqField : (x y : String × Value) → Decidable (x = y)
  | (k, v), (l, w) => match decEq v w with
    | isTrue h => decidable_of_iff (k = l) (by simp [h])
    | isFalse h => isFalse fun heq => h (Prod.mk.inj heq).2

end

instance : DecidableEq Value := decEq

/-- A field put in its place, replacing one of the same key. -/
def insertField (key : String) (value : Value) : List (String × Value) → List (String × Value)
  | [] => [(key, value)]
  | (k, v) :: rest =>
    if key = k then (key, value) :: rest
    else if key < k then (key, value) :: (k, v) :: rest
    else (k, v) :: insertField key value rest

/-- `json!({ … })`. -/
def ofFields (fields : List (String × Value)) : Value :=
  .object (fields.foldl (fun rest field => insertField field.1 field.2 rest) [])

/-- `object.get(key)`, on the fields. -/
def field? (key : String) : List (String × Value) → Option Value
  | [] => none
  | (k, v) :: rest => if k = key then some v else field? key rest

/-- `Value::as_object`. -/
def asObject : Value → Option (List (String × Value))
  | .object fields => some fields
  | _ => none

/-- `Value::get`: a field of an object, and nothing of any other value. -/
def get (v : Value) (key : String) : Option Value := v.asObject.bind (field? key)

/-- `Value::as_str`. -/
def asStr : Value → Option String
  | .string s => some s
  | _ => none

/-- `Value::as_u64`. -/
def asU64 : Value → Option Nat
  | .number (.posInt n) => some n
  | _ => none

/-- `Value::as_array`. -/
def asArray : Value → Option (List Value)
  | .array items => some items
  | _ => none

/-- `Value::as_bool`. -/
def asBool : Value → Option Bool
  | .bool b => some b
  | _ => none

/-- `Value::is_null`. -/
def isNull (v : Value) : Bool := v = .null

/-- `Value::is_object`. -/
def isObject (v : Value) : Bool := v.asObject.isSome

/-- `value.get(key).and_then(Value::as_str)`. -/
def getStr (v : Value) (key : String) : Option String := (v.get key).bind asStr

/-- `value.get(key).and_then(Value::as_u64)`. -/
def getU64 (v : Value) (key : String) : Option Nat := (v.get key).bind asU64

/-- What a field is after one of them was set. -/
theorem field?_insertField {key key' : String} {value : Value} {fields : List (String × Value)} :
    field? key' (insertField key value fields) =
      if key = key' then some value else field? key' fields := by
  induction fields with
  | nil => simp [insertField, field?]
  | cons field rest ih =>
    obtain ⟨k, v⟩ := field
    unfold insertField
    by_cases hk : key = k
    · subst hk
      by_cases h : key = key' <;> simp [field?, h]
    · by_cases hlt : key < k
      · simp [hk, hlt, field?]
      · rw [if_neg hk, if_neg hlt, field?, field?, ih]
        by_cases h : k = key'
        · rw [if_pos h, if_pos h, if_neg (fun heq => hk (heq.trans h.symm))]
        · rw [if_neg h, if_neg h]

end Value

/-! ### Decoders -/

/-- `serde_json::from_value::<α>`, less the text of its errors. -/
abbrev Decoder (α : Type) : Type := Value → Option α

/-- Where a struct's fields are read from. -/
inductive Source where
  /-- An object: fields are found by name. -/
  | named (fields : List (String × Value))
  /-- An array: fields are taken in order. -/
  | positional (items : List Value)

/-- What reads a struct's fields one after another. -/
abbrev FieldReader (α : Type) : Type := StateT Source Option α

namespace Decoder

variable {α : Type}

def value : Decoder Value := some

def text : Decoder String := Value.asStr

def flag : Decoder Bool
  | .bool b => some b
  | _ => none

/-- An unsigned integer below a bound. -/
def unsigned (bound : Nat) : Decoder Nat := fun v =>
  v.asU64.filter (· < bound)

/-- `u32`. -/
def u32 : Decoder Nat := unsigned (2 ^ 32)

/-- `u64`, and `usize` on a 64-bit target. -/
def u64 : Decoder Nat := unsigned (2 ^ 64)

/-- `Option<α>`. -/
def nullable (d : Decoder α) : Decoder (Option α) := fun v =>
  if v.isNull then some none else (d v).map some

/-- An enum without data: its variant's name, or an object from that name to `null`. -/
def variant (names : List (String × α)) : Decoder α
  | .string s => names.lookup s
  | .object [(s, .null)] => names.lookup s
  | _ => none

/-- Read one field: `byName` and `byOrder` are what it is when an object, or an array, has none. -/
def fieldOr (name : String) (d : Decoder α) (byName byOrder : Option α) : FieldReader α
  | .named fields => match Value.field? name fields with
    | some v => (d v).map (·, .named fields)
    | none => byName.map (·, .named fields)
  | .positional (v :: rest) => (d v).map (·, .positional rest)
  | .positional [] => byOrder.map (·, .positional [])

/-- A field that must be there. -/
def required (name : String) (d : Decoder α) : FieldReader α := fieldOr name d none none

/-- An `Option` field: absent from an object it is `None`. -/
def optional (name : String) (d : Decoder α) : FieldReader (Option α) :=
  fieldOr name (nullable d) (some none) none

/-- A field with `#[serde(default)]`. -/
def defaulted (name : String) (d : Decoder α) (default : α) : FieldReader α :=
  fieldOr name d (some default) (some default)

/-- A struct. With `#[serde(deny_unknown_fields)]`, `known` lists the fields an object may have. -/
def record (known : Option (List String)) (fields : FieldReader α) : Decoder α
  | .object entries =>
    if known.any fun names => entries.any fun entry => !names.contains entry.1 then none
    else (fields (.named entries)).map Prod.fst
  | .array items => match fields (.positional items) with
    | some (a, .positional []) => some a
    | _ => none
  | _ => none

end Decoder

/-! ### Text -/

/-- `char::is_control`: Unicode's category `Cc`. -/
def isControl (c : Char) : Bool := c.toNat < 0x20 || (0x7f ≤ c.toNat && c.toNat ≤ 0x9f)

/-- `char::is_whitespace`: Unicode's property `White_Space`. -/
def isWhitespace (c : Char) : Bool :=
  let n := c.toNat
  (0x09 ≤ n && n ≤ 0x0d) || (0x2000 ≤ n && n ≤ 0x200a) ||
    [0x20, 0x85, 0xa0, 0x1680, 0x2028, 0x2029, 0x202f, 0x205f, 0x3000].contains n

/-- `text.chars().any(char::is_control)`. -/
def hasControl (text : String) : Bool := (Library.Utf8.charsOf text).any isControl

/-- `text.trim().is_empty()`. -/
def isBlank (text : String) : Bool := (Library.Utf8.charsOf text).all isWhitespace

theorem hasControl_eq (text : String) : hasControl text = text.toList.any isControl := by
  rw [hasControl, Library.Utf8.charsOf_eq]

theorem isBlank_eq (text : String) : isBlank text = text.toList.all isWhitespace := by
  rw [isBlank, Library.Utf8.charsOf_eq]

/-- `text.trim()`. -/
def trim (text : List Char) : List Char :=
  ((text.dropWhile isWhitespace).reverse.dropWhile isWhitespace).reverse

/-- A text that neither begins nor ends with white space. -/
def Unpadded (text : List Char) : Prop :=
  (∀ c ∈ text.head?, isWhitespace c = false) ∧ ∀ c ∈ text.getLast?, isWhitespace c = false

theorem dropWhile_whitespace {text : List Char} (h : ∀ c ∈ text.head?, isWhitespace c = false) :
    text.dropWhile isWhitespace = text := by
  cases text with
  | nil => rfl
  | cons c rest => rw [List.dropWhile_cons_of_neg (by rw [h c rfl]; decide)]

theorem trim_unpadded {text : List Char} (h : Unpadded text) : trim text = text := by
  unfold trim
  rw [dropWhile_whitespace h.1, dropWhile_whitespace, List.reverse_reverse]
  rw [List.head?_reverse]
  exact h.2

/-- `byte.is_ascii_hexdigit()`, of a character. -/
def isHexDigit (c : Char) : Bool :=
  ('0' ≤ c && c ≤ '9') || ('a' ≤ c && c ≤ 'f') || ('A' ≤ c && c ≤ 'F')

/-- The text is `sha256:` and 64 hexadecimal digits. -/
def isSha256Digest (text : String) : Bool :=
  let chars := text.toList
  chars.take 7 = "sha256:".toList && (chars.drop 7).length = 64 && (chars.drop 7).all isHexDigit

end AikitRuntime.Durability
