import AikitRuntime.Durability.Commands
import AikitRuntime.Library.Framing
import Mathlib.Data.List.Perm.Subperm
import Mathlib.Data.String.Basic

/-!
# What a stable identifier or hash says about its input

Every id of the durable runtime is a digest of framed fields, and every input hash a digest of canonical JSON.
This module is about the bytes that are digested: canonical JSON tells two values apart unless they are equal up
to the order of their objects' keys, and a framing tells two lists of fields apart. So two ids or hashes agree
only when what they were made from does, or when SHA-256 collides.

A text of canonical JSON says where it ends as long as no symbol of a number follows it; that is what the
induction carries from a value to the array or object around it.
-/

namespace AikitRuntime.Durability

open Library

/-! ### Values, up to the order of keys -/

/-- The symbols of a JSON number. -/
abbrev NumberChar (c : Char) : Prop := c.isDigit ∨ c ∈ ['-', '+', '.', 'e', 'E']

/-- A float's text is a number's token, and not an integer's. -/
def Number.Printed : Number → Prop
  | .posInt _ | .negInt _ => True
  | .float text =>
    (∀ c ∈ text.toList, NumberChar c) ∧ (∃ c ∈ text.toList.head?, c.isDigit ∨ c = '-') ∧
      ∃ c ∈ text.toList, c ∈ ['.', 'e', 'E']

mutual

/-- Every object has one value for each key, and every number prints as one. -/
def Value.Proper : Value → Prop
  | .null | .bool _ | .string _ => True
  | .number n => n.Printed
  | .array items => ProperItems items
  | .object fields => (fields.map Prod.fst).Nodup ∧ ProperFields fields

def ProperItems : List Value → Prop
  | [] => True
  | item :: rest => item.Proper ∧ ProperItems rest

def ProperFields : List (String × Value) → Prop
  | [] => True
  | (_, value) :: rest => value.Proper ∧ ProperFields rest

end

mutual

/-- Equal up to the order of object keys: as many fields, and for each of them an equal one under its key. -/
def Value.Alike : Value → Value → Prop
  | .null, .null => True
  | .bool b, .bool c => b = c
  | .number n, .number k => n = k
  | .string s, .string t => s = t
  | .array xs, .array ys => AlikeItems xs ys
  | .object xs, .object ys => xs.length = ys.length ∧ AlikeFields xs ys
  | _, _ => False

def AlikeItems : List Value → List Value → Prop
  | [], [] => True
  | x :: xs, y :: ys => x.Alike y ∧ AlikeItems xs ys
  | _, _ => False

def AlikeFields : List (String × Value) → List (String × Value) → Prop
  | [], _ => True
  | (key, value) :: rest, fields =>
    (∃ w, Value.field? key fields = some w ∧ value.Alike w) ∧ AlikeFields rest fields

end

theorem ProperItems.of_mem : ∀ {items : List Value}, ProperItems items → ∀ {v}, v ∈ items → v.Proper
  | _ :: _, h, _, .head _ => h.1
  | _ :: _, h, _, .tail _ hv => ProperItems.of_mem h.2 hv

theorem ProperFields.of_mem : ∀ {fields : List (String × Value)}, ProperFields fields →
    ∀ {key v}, (key, v) ∈ fields → v.Proper
  | _ :: _, h, _, _, .head _ => h.1
  | _ :: _, h, _, _, .tail _ hv => ProperFields.of_mem h.2 hv

theorem alikeItems_iff : ∀ {xs ys : List Value}, AlikeItems xs ys ↔ List.Forall₂ Value.Alike xs ys
  | [], [] => by simp [AlikeItems]
  | [], _ :: _ => ⟨False.elim, nofun⟩
  | _ :: _, [] => ⟨False.elim, nofun⟩
  | x :: xs, y :: ys => by rw [AlikeItems, alikeItems_iff, List.forall₂_cons]

theorem alikeFields_iff {ys : List (String × Value)} : ∀ {xs : List (String × Value)}, AlikeFields xs ys ↔
    ∀ key v, (key, v) ∈ xs → ∃ w, Value.field? key ys = some w ∧ v.Alike w
  | [] => by simp [AlikeFields]
  | (key, v) :: xs => by
    rw [AlikeFields, alikeFields_iff]
    constructor
    · rintro ⟨hhead, htail⟩ key' v' (_ | ⟨_, hmem⟩)
      · exact hhead
      · exact htail key' v' hmem
    · intro h
      exact ⟨h key v List.mem_cons_self, fun key' v' hmem => h key' v' (List.mem_cons_of_mem _ hmem)⟩

variable {key : String} {v : Value}

theorem mem_of_field? : ∀ {fields : List (String × Value)},
    Value.field? key fields = some v → (key, v) ∈ fields
  | (k, w) :: rest, h => by
    unfold Value.field? at h
    split at h
    · next hk => cases h; rw [hk]; exact List.mem_cons_self
    · exact List.mem_cons_of_mem _ (mem_of_field? h)

theorem field?_of_mem : ∀ {fields : List (String × Value)},
    (fields.map Prod.fst).Nodup → (key, v) ∈ fields → Value.field? key fields = some v
  | (k, w) :: rest, hnodup, hmem => by
    obtain ⟨hk, hrest⟩ := List.nodup_cons.mp hnodup
    rcases List.mem_cons.mp hmem with heq | hmem
    · cases heq
      simp [Value.field?]
    · have hne : k ≠ key := by
        rintro rfl
        exact hk (List.mem_map.mpr ⟨(k, v), hmem, rfl⟩)
      rw [Value.field?, if_neg hne]
      exact field?_of_mem hrest hmem

/-! ### Tokens -/

/-- One character of a string's token read back, and what follows it. -/
def readChar : List Char → Option (Char × List Char)
  | '\\' :: 'u' :: '0' :: '0' :: high :: low :: rest =>
    some (Char.ofNat (16 * Sha256.hexDigits.idxOf high + Sha256.hexDigits.idxOf low), rest)
  | '\\' :: 'b' :: rest => some (Char.ofNat 0x08, rest)
  | '\\' :: 't' :: rest => some (Char.ofNat 0x09, rest)
  | '\\' :: 'n' :: rest => some (Char.ofNat 0x0a, rest)
  | '\\' :: 'f' :: rest => some (Char.ofNat 0x0c, rest)
  | '\\' :: 'r' :: rest => some (Char.ofNat 0x0d, rest)
  | '\\' :: c :: rest => some (c, rest)
  | c :: rest => some (c, rest)
  | [] => none

theorem hexDigits_read : ∀ n < 32, 16 * Sha256.hexDigits.idxOf (Sha256.hexDigit (n / 16)) +
    Sha256.hexDigits.idxOf (Sha256.hexDigit (n % 16)) = n := by decide

variable {c : Char} {n : ℕ}

theorem char_eq_of_toNat (h : c.toNat = n) : c = Char.ofNat n := by
  rw [← h, Char.ofNat_toNat]

theorem readChar_escapeChar (c : Char) (rest : List Char) : readChar (escapeChar c ++ rest) = some (c, rest) := by
  unfold escapeChar
  split
  case h_1 h | h_2 h | h_3 h | h_4 h | h_5 h | h_6 h | h_7 h => rw [char_eq_of_toNat h]; rfl
  case h_8 hquote hslash _ _ _ _ _ =>
    split
    · next hlow =>
      simp only [List.cons_append, List.nil_append, readChar, hexDigits_read _ hlow, Char.ofNat_toNat]
    · have hne : c ≠ '\\' := by
        rintro rfl
        exact hslash rfl
      simp [readChar, hne]

theorem escapeChar_delimited (a b : Char) : Delimited (fun _ => True) escapeChar Eq a b := by
  intro x y _ _ htext
  have hread : some (a, x) = some (b, y) := by
    rw [← readChar_escapeChar, ← readChar_escapeChar, htext]
  cases hread
  exact ⟨rfl, rfl⟩

theorem head_escapeChar (c : Char) : ∃ d s, escapeChar c = d :: s ∧ d ≠ '"' := by
  unfold escapeChar
  split
  case h_8 hquote _ _ _ _ _ _ =>
    split
    · exact ⟨'\\', _, rfl, by decide⟩
    · refine ⟨c, [], rfl, ?_⟩
      rintro rfl
      exact hquote rfl
  all_goals exact ⟨'\\', _, rfl, by decide⟩

/-- A string's token, whatever follows. -/
theorem jsonString_delimited (s t : String) : Delimited (fun _ => True) jsonString Eq s t := by
  intro x y _ _ htext
  simp only [jsonString_eq, List.cons_append, List.append_assoc] at htext
  obtain ⟨hchars, hxy⟩ := flatMap_close_inj escapeChar_delimited head_escapeChar _ _ x y (List.cons.inj htext).2
  exact ⟨String.toList_inj.mp hchars, hxy⟩

theorem isDigit_toString (h : c ∈ (toString n).toList) : c.isDigit := by
  simp only [Nat.toString_eq_repr, Nat.toList_repr] at h
  exact Nat.isDigit_of_mem_toDigits (by decide) (by decide) h

variable {k : ℕ}

theorem toString_inj (h : (toString n).toList = (toString k).toList) : n = k := by
  simp only [Nat.toString_eq_repr, Nat.toList_repr] at h
  have hdigits := congrArg (Nat.ofDigitChars 10 · 0) h
  simpa using hdigits

theorem head_toString (n : ℕ) : ∃ c s, (toString n).toList = c :: s ∧ c.isDigit := by
  cases htext : (toString n).toList with
  | nil => simp [Nat.toString_eq_repr] at htext
  | cons c s => exact ⟨c, s, rfl, isDigit_toString (by rw [htext]; exact List.mem_cons_self)⟩

theorem jsonNumber_run {n : Number} (h : n.Printed) : ∀ c ∈ jsonNumber n, NumberChar c := by
  intro c hc
  cases n with
  | posInt n => exact .inl (isDigit_toString hc)
  | negInt n =>
    rcases List.mem_cons.mp hc with rfl | hc
    · exact .inr (by decide)
    · exact .inl (isDigit_toString hc)
  | float text => exact h.1 c hc

theorem head_jsonNumber {n : Number} (h : n.Printed) : ∃ c s, jsonNumber n = c :: s ∧ (c.isDigit ∨ c = '-') := by
  cases n with
  | posInt n =>
    obtain ⟨c, s, htext, hc⟩ := head_toString n
    exact ⟨c, s, htext, .inl hc⟩
  | negInt n => exact ⟨'-', _, rfl, .inr rfl⟩
  | float text =>
    obtain ⟨c, hc, hdigit⟩ := h.2.1
    obtain ⟨s, hs⟩ := List.head?_eq_some_iff.mp hc
    exact ⟨c, s, hs, hdigit⟩

theorem not_integer {text : String} (h : (Number.float text).Printed) {s : List Char} (hs : s = [] ∨ s = ['-']) (heq : text.toList = s ++ (toString n).toList) : False := by
  obtain ⟨c, hc, hmark⟩ := h.2.2
  rw [heq] at hc
  have hdigit : c = '-' ∨ c.isDigit := by
    rcases List.mem_append.mp hc with hc | hc
    · rcases hs with rfl | rfl
      · exact absurd hc List.not_mem_nil
      · exact .inl (List.mem_singleton.mp hc)
    · exact .inr (isDigit_toString hc)
  rcases hdigit with rfl | hdigit
  · exact absurd hmark (by decide)
  · simp only [List.mem_cons, List.not_mem_nil, or_false] at hmark
    rcases hmark with rfl | rfl | rfl <;> exact absurd hdigit (by decide)

theorem jsonNumber_inj {n k : Number} (hn : n.Printed) (hk : k.Printed) (h : jsonNumber n = jsonNumber k) : n = k := by
  cases n with
  | posInt n => cases k with
    | posInt k => rw [toString_inj h]
    | negInt k =>
      obtain ⟨c, s, htext, hc⟩ := head_toString n
      rw [jsonNumber, jsonNumber, htext] at h
      rw [(List.cons.inj h).1] at hc
      exact absurd hc (by decide)
    | float text => exact (not_integer hk (.inl rfl) h.symm).elim
  | negInt n => cases k with
    | posInt k =>
      obtain ⟨c, s, htext, hc⟩ := head_toString k
      rw [jsonNumber, jsonNumber, htext] at h
      rw [← (List.cons.inj h).1] at hc
      exact absurd hc (by decide)
    | negInt k => rw [toString_inj (List.cons.inj h).2]
    | float text => exact (not_integer hk (.inr rfl) h.symm).elim
  | float text => cases k with
    | posInt k => exact (not_integer hn (.inl rfl) h).elim
    | negInt k => exact (not_integer hn (.inr rfl) h).elim
    | float text' => rw [String.toList_inj.mp h]

theorem jsonNumber_delimited {n k : Number} (hn : n.Printed) (hk : k.Printed) :
    Delimited (EndsRun NumberChar) jsonNumber Eq n k :=
  .of_run (jsonNumber_run hn) (jsonNumber_run hk) (jsonNumber_inj hn hk)

/-! ### Texts of values -/

/-- Which kind of value a text that begins with `c` is of. -/
def kindOf (c : Char) : ℕ :=
  if c = 'n' then 0 else if c = 't' ∨ c = 'f' then 1 else if c = '"' then 3 else if c = '[' then 4
  else if c = '\x7b' then 5 else 2

def Value.kind : Value → ℕ
  | .null => 0
  | .bool _ => 1
  | .number _ => 2
  | .string _ => 3
  | .array _ => 4
  | .object _ => 5

theorem kindOf_number (h : c.isDigit ∨ c = '-') : kindOf c = 2 := by
  have hne : ∀ d : Char, ¬ (d.isDigit ∨ d = '-') → c ≠ d := by
    rintro d hd rfl
    exact hd h
  unfold kindOf
  rw [if_neg (hne 'n' (by decide)), if_neg (not_or.mpr ⟨hne 't' (by decide), hne 'f' (by decide)⟩),
    if_neg (hne '"' (by decide)), if_neg (hne '[' (by decide)), if_neg (hne '\x7b' (by decide))]

theorem head_canonicalJson (h : v.Proper) : ∃ c s, canonicalJson v = c :: s ∧ kindOf c = v.kind := by
  cases v with
  | null => exact ⟨'n', _, rfl, rfl⟩
  | bool b => cases b with
    | true => exact ⟨'t', _, rfl, rfl⟩
    | false => exact ⟨'f', _, rfl, rfl⟩
  | number n =>
    obtain ⟨c, s, htext, hc⟩ := head_jsonNumber h
    exact ⟨c, s, htext, kindOf_number hc⟩
  | string s => exact ⟨'"', _, rfl, rfl⟩
  | array items => exact ⟨'[', _, rfl, rfl⟩
  | object fields => exact ⟨'\x7b', _, rfl, rfl⟩

variable {w : Value}

theorem delimited_of_kind {after : List Char → Prop} {R : Value → Value → Prop} (hv : v.Proper)
    (hw : w.Proper) (h : v.kind ≠ w.kind) : Delimited after canonicalJson R v w := by
  obtain ⟨c, s, hc, hkind⟩ := head_canonicalJson hv
  obtain ⟨d, t, hd, hkind'⟩ := head_canonicalJson hw
  refine .of_head_ne hc hd ?_
  rintro rfl
  exact h (hkind.symm.trans hkind')

/-- A field as it is written. -/
def fieldText (field : String × List Char) : List Char := jsonString field.1 ++ ':' :: field.2

theorem commaSeparated_eq : ∀ items : List (List Char), commaSeparated items = separated ',' items
  | [] | [_] => rfl
  | _ :: t :: rest => by rw [separated_cons_cons, commaSeparated, commaSeparated_eq (t :: rest)]; simp

theorem canonicalItems_eq : ∀ items : List Value, canonicalItems items = items.map canonicalJson
  | [] => rfl
  | item :: rest => by rw [canonicalItems, canonicalItems_eq rest, List.map_cons]

theorem canonicalJson_array (items : List Value) :
    canonicalJson (.array items) = '[' :: (separated ',' (items.map canonicalJson) ++ [']']) := by
  rw [canonicalJson, commaSeparated_eq, canonicalItems_eq]

theorem canonicalJson_object (fields : List (String × Value)) : canonicalJson (.object fields) =
    '\x7b' :: (separated ',' ((canonicalFields fields).map fieldText) ++ ['\x7d']) := by
  rw [canonicalJson, commaSeparated_eq]
  rfl

theorem insertRendered_perm (key : String) (text : List Char) :
    ∀ rest, (insertRendered key text rest).Perm ((key, text) :: rest)
  | [] => .refl _
  | (k, t) :: rest => by
    unfold insertRendered
    split
    · exact .refl _
    · exact ((insertRendered_perm key text rest).cons _).trans (.swap _ _ _)

/-- An object's rendered fields are its fields, rendered, in another order. -/
theorem canonicalFields_perm : ∀ fields : List (String × Value),
    (canonicalFields fields).Perm (fields.map fun field => (field.1, canonicalJson field.2))
  | [] => .refl _
  | (key, value) :: rest => by
    rw [canonicalFields, List.map_cons]
    exact (insertRendered_perm _ _ _).trans ((canonicalFields_perm rest).cons _)

theorem mem_canonicalFields {fields : List (String × Value)} {text : List Char} :
    (key, text) ∈ canonicalFields fields ↔ ∃ v, (key, v) ∈ fields ∧ canonicalJson v = text := by
  rw [(canonicalFields_perm fields).mem_iff, List.mem_map]
  constructor
  · rintro ⟨⟨k, v⟩, hmem, heq⟩
    cases heq
    exact ⟨v, hmem, rfl⟩
  · rintro ⟨v, hmem, rfl⟩
    exact ⟨(key, v), hmem, rfl⟩

theorem head_ne_close {v : Value} (h : v.Proper) : ∃ c s, canonicalJson v = c :: s ∧ c ≠ ']' := by
  obtain ⟨c, s, htext, hkind⟩ := head_canonicalJson h
  refine ⟨c, s, htext, ?_⟩
  rintro rfl
  cases v with
  | number n =>
    obtain ⟨d, t, htext', hd⟩ := head_jsonNumber h
    rw [canonicalJson, htext'] at htext
    rw [(List.cons.inj htext).1] at hd
    exact absurd hd (by decide)
  | _ => exact absurd hkind (by simp [kindOf, Value.kind])

/-- Two fields are told apart when the value of one of them is told apart from the other's. -/
theorem fieldText_delimited {field field' : String × List Char}
    (h : ∀ x y, EndsRun NumberChar x → EndsRun NumberChar y → field.2 ++ x = field'.2 ++ y → x = y) :
    Delimited (EndsRun NumberChar) fieldText Eq field field' := by
  intro x y hx hy htext
  simp only [fieldText, List.append_assoc, List.cons_append] at htext
  obtain ⟨hkey, hrest⟩ := jsonString_delimited _ _ _ _ trivial trivial htext
  have htext' := (List.cons.inj hrest).2
  have hxy := h x y hx hy htext'
  rw [hxy] at htext'
  exact ⟨Prod.ext hkey (List.append_cancel_right htext'), hxy⟩

mutual

/-- A proper value's text is told apart from any other's, unless the values are alike. -/
theorem canonicalJson_delimited : ∀ {v : Value}, v.Proper → ∀ {w : Value}, w.Proper →
    Delimited (EndsRun NumberChar) canonicalJson Value.Alike v w
  | .null, hv, w, hw => by
    cases w with
    | null => exact fun x y _ _ htext => ⟨trivial, List.append_cancel_left htext⟩
    | _ => exact delimited_of_kind hv hw (by simp [Value.kind])
  | .bool b, hv, w, hw => by
    cases w with
    | bool c =>
      intro x y _ _ htext
      cases b <;> cases c
      case false.false | true.true => exact ⟨rfl, List.append_cancel_left htext⟩
      all_goals exact absurd (List.cons.inj htext).1 (by decide)
    | _ => exact delimited_of_kind hv hw (by simp [Value.kind])
  | .number n, hv, w, hw => by
    cases w with
    | number k => exact fun x y hx hy htext => jsonNumber_delimited hv hw x y hx hy htext
    | _ => exact delimited_of_kind hv hw (by simp [Value.kind])
  | .string s, hv, w, hw => by
    cases w with
    | string t => exact fun x y _ _ htext => jsonString_delimited s t x y trivial trivial htext
    | _ => exact delimited_of_kind hv hw (by simp [Value.kind])
  | .array xs, hv, w, hw => by
    cases w with
    | array ys =>
      intro x y _ _ htext
      simp only [canonicalJson_array, List.cons_append, List.append_assoc, List.nil_append] at htext
      obtain ⟨hitems, hxy⟩ := separated_close (R := Value.Alike) (P := Value.Proper)
        (fun rest => endsRun_cons.mpr (by decide)) (fun rest => endsRun_cons.mpr (by decide)) (by decide)
        (fun _ => head_ne_close) xs ys (fun _ => ProperItems.of_mem hv) (fun _ => ProperItems.of_mem hw)
        (fun v hmem w hmem' => items_delimited hv hmem (ProperItems.of_mem hw hmem')) x y (List.cons.inj htext).2
      exact ⟨alikeItems_iff.mpr hitems, hxy⟩
    | _ => exact delimited_of_kind hv hw (by simp [Value.kind])
  | .object xs, hv, w, hw => by
    cases w with
    | object ys =>
      intro x y _ _ htext
      simp only [canonicalJson_object, List.cons_append, List.append_assoc, List.nil_append] at htext
      obtain ⟨hfields, hxy⟩ := separated_close (R := Eq) (P := fun _ => True)
        (fun rest => (endsRun_cons.mpr (by decide) : EndsRun NumberChar (',' :: rest)))
        (fun rest => endsRun_cons.mpr (by decide)) (by decide)
        (fun field _ => ⟨'"', _, rfl, by decide⟩) (canonicalFields xs) (canonicalFields ys)
        (fun _ _ => trivial) (fun _ _ => trivial) (fun field hmem field' hmem' => by
          obtain ⟨v, hv', htext⟩ := mem_canonicalFields.mp hmem
          obtain ⟨w, hw', htext'⟩ := mem_canonicalFields.mp hmem'
          refine fieldText_delimited fun x y hx hy heq => ?_
          rw [← htext, ← htext'] at heq
          exact (fields_delimited hv.2 hv' (ProperFields.of_mem hw.2 hw') x y hx hy heq).2)
        x y (List.cons.inj htext).2
      rw [List.forall₂_eq_eq_eq] at hfields
      refine ⟨⟨?_, alikeFields_iff.mpr fun key v hmem => ?_⟩, hxy⟩
      · have hlength := (canonicalFields_perm xs).length_eq.symm.trans
          ((congrArg List.length hfields).trans (canonicalFields_perm ys).length_eq)
        simpa using hlength
      · -- the field's text is among the other's, so its value's text is one of theirs under the same key
        have htext := mem_canonicalFields.mpr ⟨v, hmem, rfl⟩
        rw [hfields] at htext
        obtain ⟨w, hmem', heq⟩ := mem_canonicalFields.mp htext
        have halike := fields_delimited hv.2 hmem (ProperFields.of_mem hw.2 hmem') [] [] endsRun_nil endsRun_nil
          (by rw [heq])
        exact ⟨w, field?_of_mem hw.1 hmem', halike.1⟩
    | _ => exact delimited_of_kind hv hw (by simp [Value.kind])

theorem items_delimited : ∀ {items : List Value}, ProperItems items → ∀ {v : Value}, v ∈ items →
    ∀ {w : Value}, w.Proper → Delimited (EndsRun NumberChar) canonicalJson Value.Alike v w
  | _ :: _, h, _, .head _, _, hw => canonicalJson_delimited h.1 hw
  | _ :: _, h, _, .tail _ hmem, _, hw => items_delimited h.2 hmem hw

theorem fields_delimited : ∀ {fields : List (String × Value)}, ProperFields fields →
    ∀ {key : String} {v : Value}, (key, v) ∈ fields →
      ∀ {w : Value}, w.Proper → Delimited (EndsRun NumberChar) canonicalJson Value.Alike v w
  | (_, _) :: _, h, _, _, .head _, _, hw => canonicalJson_delimited h.1 hw
  | (_, _) :: _, h, _, _, .tail _ hmem, _, hw => fields_delimited h.2 hmem hw

end

/-! ### Alike values have one text -/

theorem insertRendered_sorted (key : String) (text : List Char) : ∀ {rest : List (String × List Char)},
    key ∉ rest.map Prod.fst → rest.Pairwise (fun p q => p.1 < q.1) →
      (insertRendered key text rest).Pairwise fun p q => p.1 < q.1
  | [], _, _ => List.pairwise_singleton _ _
  | (k, t) :: rest, hkey, hsorted => by
    obtain ⟨hfirst, hrest⟩ := List.pairwise_cons.mp hsorted
    obtain ⟨hne, hkey⟩ := not_or.mp (fun h => hkey (List.mem_cons.mpr h))
    unfold insertRendered
    split
    · next hlt =>
      refine List.pairwise_cons.mpr ⟨fun q hq => ?_, hsorted⟩
      rcases List.mem_cons.mp hq with rfl | hq
      · exact hlt
      · exact hlt.trans (hfirst q hq)
    · next hle =>
      refine List.pairwise_cons.mpr ⟨fun q hq => ?_, insertRendered_sorted key text hkey hrest⟩
      rcases List.mem_cons.mp ((insertRendered_perm key text rest).mem_iff.mp hq) with rfl | hq
      · exact lt_of_le_of_ne (not_lt.mp hle) (Ne.symm hne)
      · exact hfirst q hq

theorem keys_canonicalFields (fields : List (String × Value)) :
    ((canonicalFields fields).map Prod.fst).Perm (fields.map Prod.fst) := by
  have hperm := (canonicalFields_perm fields).map Prod.fst
  rwa [List.map_map] at hperm

theorem canonicalFields_sorted : ∀ {fields : List (String × Value)}, (fields.map Prod.fst).Nodup →
    (canonicalFields fields).Pairwise fun p q => p.1 < q.1
  | [], _ => .nil
  | (key, value) :: rest, hnodup => by
    obtain ⟨hkey, hrest⟩ := List.nodup_cons.mp hnodup
    exact insertRendered_sorted key _ (fun hmem => hkey ((keys_canonicalFields rest).mem_iff.mp hmem))
      (canonicalFields_sorted hrest)

/-- Objects of as many fields, each rendered the same way in the other, are rendered the same way. -/
theorem canonicalFields_eq {xs ys : List (String × Value)} (hxs : (xs.map Prod.fst).Nodup)
    (hys : (ys.map Prod.fst).Nodup) (hlength : xs.length = ys.length)
    (hmem : ∀ key v, (key, v) ∈ xs → ∃ w, (key, w) ∈ ys ∧ canonicalJson w = canonicalJson v) :
    canonicalFields xs = canonicalFields ys := by
  have hsub : canonicalFields xs ⊆ canonicalFields ys := by
    rintro ⟨key, text⟩ hfield
    obtain ⟨v, hv, rfl⟩ := mem_canonicalFields.mp hfield
    exact mem_canonicalFields.mpr (hmem key v hv)
  have hnodup : (canonicalFields xs).Nodup := by
    refine (canonicalFields_sorted hxs).imp ?_
    rintro p q hlt rfl
    exact lt_irrefl _ hlt
  have hperm : (canonicalFields xs).Perm (canonicalFields ys) := by
    refine (List.Nodup.subperm hnodup hsub).perm_of_length_le ?_
    rw [(canonicalFields_perm xs).length_eq, (canonicalFields_perm ys).length_eq]
    simp [hlength]
  refine hperm.eq_of_pairwise (fun p q _ _ hpq hqp => ?_) (canonicalFields_sorted hxs) (canonicalFields_sorted hys)
  exact absurd (hpq.trans hqp) (lt_irrefl _)

mutual

theorem canonicalJson_congr : ∀ {v : Value}, v.Proper → ∀ {w : Value}, w.Proper → v.Alike w →
    canonicalJson v = canonicalJson w
  | .null, _, .null, _, _ => rfl
  | .bool _, _, .bool _, _, h | .number _, _, .number _, _, h | .string _, _, .string _, _, h => by
    cases h
    rfl
  | .array xs, hv, .array ys, hw, h => by
    rw [canonicalJson_array, canonicalJson_array, items_congr hv hw h]
  | .object xs, hv, .object ys, hw, ⟨hlength, halike⟩ => by
    rw [canonicalJson_object, canonicalJson_object, canonicalFields_eq hv.1 hw.1 hlength fun key v hmem => ?_]
    exact fields_congr hv.2 hw.2 halike hmem

theorem items_congr : ∀ {xs : List Value}, ProperItems xs → ∀ {ys : List Value}, ProperItems ys → AlikeItems xs ys →
    xs.map canonicalJson = ys.map canonicalJson
  | [], _, [], _, _ => rfl
  | _ :: _, hxs, _ :: _, hys, ⟨h, hrest⟩ => by
    rw [List.map_cons, List.map_cons, canonicalJson_congr hxs.1 hys.1 h, items_congr hxs.2 hys.2 hrest]

theorem fields_congr : ∀ {xs : List (String × Value)}, ProperFields xs → ∀ {ys : List (String × Value)},
    ProperFields ys → AlikeFields xs ys → ∀ {key : String} {v : Value}, (key, v) ∈ xs →
      ∃ w, (key, w) ∈ ys ∧ canonicalJson w = canonicalJson v
  | (key, v) :: _, hxs, _, hys, ⟨⟨w, hfield, h⟩, _⟩, _, _, .head _ =>
    have hmem := mem_of_field? hfield
    ⟨w, hmem, (canonicalJson_congr hxs.1 (hys.of_mem hmem) h).symm⟩
  | (_, _) :: _, hxs, _, hys, ⟨_, hrest⟩, _, _, .tail _ hmem => fields_congr hxs.2 hys hrest hmem

end

/-! ### Bytes -/

theorem toList_loop (bytes : ByteArray) (i : ℕ) (read : List UInt8) :
    ByteArray.toList.loop bytes i read = read.reverse ++ bytes.data.toList.drop i := by
  fun_induction ByteArray.toList.loop bytes i read with
  | case1 i read h ih =>
    have hi : i < bytes.data.toList.length := h
    rw [ih, List.reverse_cons, List.append_assoc, List.singleton_append, List.drop_eq_getElem_cons hi, ByteArray.get!]
    congr 2
    exact getElem!_pos bytes.data i hi
  | case2 i read h => rw [List.drop_eq_nil_of_le (Nat.not_lt.mp h), List.append_nil]

theorem toList_eq (bytes : ByteArray) : bytes.toList = bytes.data.toList := by
  rw [ByteArray.toList, toList_loop]
  rfl

theorem toUTF8_inj {s t : String} (h : s.toUTF8.toList = t.toUTF8.toList) : s = t := by
  rw [toList_eq, toList_eq, Array.toList_inj, ← ByteArray.ext_iff] at h
  exact String.toByteArray_inj.mp h

theorem utf8_inj {s t : List Char} (h : utf8 s = utf8 t) : s = t := String.ofList_injective (toUTF8_inj h)

theorem mod_pow_eq_of_digits : ∀ m, (∀ i < m, n / 256 ^ i % 256 = k / 256 ^ i % 256) →
    n % 256 ^ m = k % 256 ^ m
  | 0, _ => by rw [pow_zero, Nat.mod_one, Nat.mod_one]
  | m + 1, h => by
    rw [Nat.mod_pow_succ, Nat.mod_pow_succ, h m m.lt_succ_self,
      mod_pow_eq_of_digits m fun i hi => h i (Nat.lt_succ_of_lt hi)]

theorem length_toBeBytes (n : ℕ) : (Sha256.toBeBytes n).length = 8 := by simp [Sha256.toBeBytes]

theorem toBeBytes_inj (hn : n < 2 ^ 64) (hk : k < 2 ^ 64) (h : Sha256.toBeBytes n = Sha256.toBeBytes k) :
    n = k := by
  have hdigits : n % 256 ^ 8 = k % 256 ^ 8 := by
    refine mod_pow_eq_of_digits 8 fun i hi => ?_
    have hbyte := List.map_inj_left.mp h i (by simpa using hi)
    simpa using congrArg UInt8.toNat hbyte
  rwa [Nat.mod_eq_of_lt (by omega), Nat.mod_eq_of_lt (by omega)] at hdigits

theorem length_hexSha256 (input : List UInt8) : (hexSha256 input).length = 64 := by
  simp [hexSha256, Sha256.hexWord]

/-- The length of a string in memory fits a `usize`. -/
abbrev Allocated (text : String) : Prop := text.utf8ByteSize < 2 ^ 64

theorem hashField_delimited {s t : String} (hs : Allocated s) (ht : Allocated t) :
    Delimited (fun _ => True) hashField Eq s t := by
  have hsize : ∀ u : String, u.toUTF8.toList.length = u.utf8ByteSize := by
    intro u
    rw [toList_eq]
    rfl
  refine .of_length (fun u : String => u.toUTF8.toList) (fun s => Sha256.toBeBytes s.length)
    (n := 8) (fun _ => length_toBeBytes _) (fun h => ?_) toUTF8_inj
  exact toBeBytes_inj (by rw [hsize]; exact hs) (by rw [hsize]; exact ht) h

/-- The framed bytes say which fields were framed. -/
theorem framed_inj {fields fields' : List String} (h : ∀ s ∈ fields, Allocated s) (h' : ∀ s ∈ fields', Allocated s)
    (hbytes : fields.flatMap hashField = fields'.flatMap hashField) : fields = fields' := by
  refine flatMap_inj (P := Allocated) (fun s t hs ht => hashField_delimited hs ht) (fun s hnil => ?_) _ _ h h' hbytes
  have hlength := congrArg List.length hnil
  rw [hashField, List.length_append, length_toBeBytes] at hlength
  simp at hlength

/-! ### What a digest says -/

/-- Two messages of one digest. -/
def Collision (message message' : List UInt8) : Prop := message ≠ message' ∧ hexSha256 message = hexSha256 message'

theorem eq_or_collision {message message' : List UInt8} (h : hexSha256 message = hexSha256 message') :
    message = message' ∨ Collision message message' := by
  by_cases heq : message = message'
  · exact .inl heq
  · exact .inr ⟨heq, h⟩

/-- The bytes of two values' canonical JSON are the same exactly when the values are. -/
theorem canonicalJson_eq_iff (hv : v.Proper) (hw : w.Proper) :
    utf8 (canonicalJson v) = utf8 (canonicalJson w) ↔ v.Alike w := by
  constructor
  · intro h
    exact (canonicalJson_delimited hv hw [] [] endsRun_nil endsRun_nil (by rw [utf8_inj h])).1
  · intro h
    rw [canonicalJson_congr hv hw h]

theorem stableInputHash_agrees (hv : v.Proper) (hw : w.Proper)
    (h : sha256.stableInputHash v = sha256.stableInputHash w) :
    v.Alike w ∨ Collision (utf8 (canonicalJson v)) (utf8 (canonicalJson w)) := by
  have htext : "sha256:" ++ String.ofList (hexSha256 (utf8 (canonicalJson v))) =
    "sha256:" ++ String.ofList (hexSha256 (utf8 (canonicalJson w))) := h
  have hdigest := String.ofList_injective (String.append_right_inj _ |>.mp htext)
  exact (eq_or_collision hdigest).imp_left (canonicalJson_eq_iff hv hw).mp

theorem stableIdentifier_agrees {ns ns' : String} {parts parts' : List String} (h : ∀ s ∈ ns :: parts, Allocated s)
    (h' : ∀ s ∈ ns' :: parts', Allocated s)
    (hid : sha256.stableIdentifier ns parts = sha256.stableIdentifier ns' parts') :
    (ns = ns' ∧ parts = parts') ∨
      Collision ((ns :: parts).flatMap hashField) ((ns' :: parts').flatMap hashField) := by
  have htext : (ns ++ "_" ++ String.ofList (hexSha256 ((ns :: parts).flatMap hashField))).toList =
    (ns' ++ "_" ++ String.ofList (hexSha256 ((ns' :: parts').flatMap hashField))).toList := congrArg String.toList hid
  simp only [String.toList_append, String.toList_ofList] at htext
  obtain ⟨_, hdigest⟩ := List.append_inj' htext (by rw [length_hexSha256, length_hexSha256])
  refine (eq_or_collision hdigest).imp_left fun hbytes => ?_
  obtain ⟨rfl, rfl⟩ := List.cons.inj (framed_inj h h' hbytes)
  exact ⟨rfl, rfl⟩

/-- Canonical JSON and framed fields are faithful, so ids and hashes that agree are of inputs that agree, up to
collisions of SHA-256. The ids of activities, approvals and events are all made by `stableIdentifier`, and
their input hashes by `stableInputHash`. -/
theorem digests_faithful :
    (∀ v w : Value, v.Proper → w.Proper → (utf8 (canonicalJson v) = utf8 (canonicalJson w) ↔ v.Alike w)) ∧
    (∀ ns ns' parts parts', (∀ s ∈ ns :: parts, Allocated s) → (∀ s ∈ ns' :: parts', Allocated s) →
      ((ns :: parts).flatMap hashField = (ns' :: parts').flatMap hashField ↔ ns = ns' ∧ parts = parts')) ∧
    (∀ v w : Value, v.Proper → w.Proper → sha256.stableInputHash v = sha256.stableInputHash w →
      v.Alike w ∨ Collision (utf8 (canonicalJson v)) (utf8 (canonicalJson w))) ∧
    (∀ ns ns' parts parts', (∀ s ∈ ns :: parts, Allocated s) → (∀ s ∈ ns' :: parts', Allocated s) →
      sha256.stableIdentifier ns parts = sha256.stableIdentifier ns' parts' →
        (ns = ns' ∧ parts = parts') ∨
          Collision ((ns :: parts).flatMap hashField) ((ns' :: parts').flatMap hashField)) := by
  refine ⟨fun v w => canonicalJson_eq_iff, fun ns ns' parts parts' h h' => ⟨fun hbytes => ?_, ?_⟩,
    fun v w => stableInputHash_agrees, fun ns ns' parts parts' => stableIdentifier_agrees⟩
  · exact List.cons.inj (framed_inj h h' hbytes)
  · rintro ⟨rfl, rfl⟩
    rfl

theorem digests_faithful_sample :
    (utf8 (canonicalJson (.object [("b", .array [.null]), ("a", .bool true)])) =
      utf8 (canonicalJson (.object [("a", .bool true), ("b", .array [.null])])) ↔
        (Value.object [("b", .array [.null]), ("a", .bool true)]).Alike
          (.object [("a", .bool true), ("b", .array [.null])])) ∧
    (["event", "ab", "c"].flatMap hashField = ["event", "a", "bc"].flatMap hashField ↔
      "event" = "event" ∧ ["ab", "c"] = ["a", "bc"]) := by
  refine ⟨digests_faithful.1 _ _ ?_ ?_, digests_faithful.2.1 "event" "event" ["ab", "c"] ["a", "bc"] ?_ ?_⟩
  · simp [Value.Proper, ProperFields, ProperItems]
  · simp [Value.Proper, ProperFields, ProperItems]
  · decide
  · decide

end AikitRuntime.Durability
