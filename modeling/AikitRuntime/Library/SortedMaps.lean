import AikitRuntime.Library.Utf8
import Mathlib.Data.List.Basic

/-!
# Maps sorted by their keys

`BTreeMap<String, V>`: at most one value for each key, read in key order. The type is
the standard library's extensional tree map, so two maps with the same entries are
equal, as they are for Rust's `PartialEq`.

Keys are strings, ordered by their characters (which is the order of their UTF-8
bytes). `keyCmp` looks for equality first: it is the same order, and a lookup then
evaluates faster.

What the development reads of a map is which value a key has (`m[k]?`) and which
values there are (`values`), and the lemmas here say what `insert` and `retain` do to
the first, and that the second are the values some key has.
-/

namespace AikitRuntime.Library

open Std

universe u

/-- The order of the keys. -/
def keyCmp (a b : String) : Ordering := if a = b then .eq else if a < b then .lt else .gt

theorem keyCmp_eq_compare : keyCmp = compare := by
  funext a b
  unfold keyCmp
  rw [show compare a b = String.compare a b from rfl, String.compare, compareOfLessAndEq]
  split
  · next h =>
    subst h
    rw [if_neg (String.lt_irrefl a)]
  · simp

instance : TransCmp keyCmp := keyCmp_eq_compare ▸ inferInstance

instance : LawfulEqCmp keyCmp := keyCmp_eq_compare ▸ inferInstance

@[simp] theorem keyCmp_eq_iff {a b : String} : keyCmp a b = .eq ↔ a = b := by
  rw [keyCmp_eq_compare, Std.compare_eq_iff_eq]

/-- `BTreeMap<String, V>`. -/
abbrev BTreeMap (V : Type u) : Type u := ExtTreeMap String V keyCmp

namespace BTreeMap

variable {V : Type u} {m : BTreeMap V} {k a : String} {v w : V}

/-- `map.values()`, in key order. -/
def values (m : BTreeMap V) : List V := m.toList.map Prod.snd

/-- `map.retain(|key, value| keep(key, value))`. -/
def retain (keep : String → V → Bool) (m : BTreeMap V) : BTreeMap V := m.filter keep

theorem get_insert : (m.insert k v)[a]? = if k = a then some v else m[a]? := by
  simp [ExtTreeMap.getElem?_insert]

@[simp] theorem get_insert_self : (m.insert k v)[k]? = some v := by simp

theorem get_insert_of_ne (h : k ≠ a) : (m.insert k v)[a]? = m[a]? := by
  rw [get_insert, if_neg h]

theorem get_erase : (m.erase k)[a]? = if k = a then none else m[a]? := by
  simp [ExtTreeMap.getElem?_erase]

@[simp] theorem get_empty : (∅ : BTreeMap V)[a]? = none := ExtTreeMap.getElem?_empty

theorem get_retain {keep : String → V → Bool} :
    (retain keep m)[a]? = some v ↔ m[a]? = some v ∧ keep a v = true := by
  unfold retain
  rw [ExtTreeMap.getElem?_filter', Option.filter_eq_some_iff]

/-- A map that no value leaves. -/
theorem retain_of_size {keep : String → V → Bool} (h : (retain keep m).size = m.size) :
    retain keep m = m ∧ ∀ (a : String) (v : V), m[a]? = some v → keep a v = true := by
  have hall := ExtTreeMap.size_filter_eq_size_iff.mp h
  refine ⟨ExtTreeMap.filter_eq_self_iff.mpr hall, fun a v hget => ?_⟩
  have hmem : a ∈ m := ExtTreeMap.mem_iff_isSome_getElem?.mpr (by rw [hget]; rfl)
  have hkeep := hall a hmem
  rw [ExtTreeMap.getElem?_eq_some_getElem hmem, Option.some.injEq] at hget
  rwa [ExtTreeMap.getKey_eq, hget] at hkeep

theorem mem_values : v ∈ m.values ↔ ∃ k : String, m[k]? = some v := by
  unfold values
  constructor
  · intro h
    obtain ⟨⟨k, w⟩, hmem, rfl⟩ := List.mem_map.mp h
    exact ⟨k, ExtTreeMap.mem_toList_iff_getElem?_eq_some.mp hmem⟩
  · rintro ⟨k, hk⟩
    exact List.mem_map.mpr ⟨(k, v), ExtTreeMap.mem_toList_iff_getElem?_eq_some.mpr hk, rfl⟩

theorem mem_toList : (k, v) ∈ m.toList ↔ m[k]? = some v :=
  ExtTreeMap.mem_toList_iff_getElem?_eq_some

theorem contains_eq_false : m.contains k = false ↔ m[k]? = none := by
  rw [ExtTreeMap.contains_eq_isSome_getElem?, Option.isSome_eq_false_iff, Option.isNone_iff_eq_none]

variable {p : V → Bool}

/-- A property of every value of a map. -/
theorem all_values : m.values.all p ↔ ∀ (k : String) (v : V), m[k]? = some v → p v := by
  rw [List.all_eq_true]
  exact ⟨fun h k v hk => h v (mem_values.mpr ⟨k, hk⟩), fun h v hv =>
    have ⟨k, hk⟩ := mem_values.mp hv
    h k v hk⟩

/-- Some value of a map has a property. -/
theorem any_values : m.values.any p ↔ ∃ (k : String) (v : V), m[k]? = some v ∧ p v := by
  rw [List.any_eq_true]
  exact ⟨fun ⟨v, hv, hp⟩ =>
    have ⟨k, hk⟩ := mem_values.mp hv
    ⟨k, v, hk, hp⟩, fun ⟨k, v, hk, hp⟩ => ⟨v, mem_values.mpr ⟨k, hk⟩, hp⟩⟩

/-- An entry of a map after an insertion is the inserted one or an older one. -/
theorem get_insert_eq_some (h : (m.insert k v)[a]? = some w) :
    (k = a ∧ v = w) ∨ (k ≠ a ∧ m[a]? = some w) := by
  rw [get_insert] at h
  split at h
  · next heq => exact .inl ⟨heq, Option.some.inj h⟩
  · next hne => exact .inr ⟨hne, h⟩

/-- Inserting a new key keeps what was there. -/
theorem get_insert_of_get (h : m[k]? = none) (ha : m[a]? = some w) :
    (m.insert k v)[a]? = some w := by
  rw [get_insert_of_ne, ha]
  rintro rfl
  rw [h] at ha
  cases ha

/-- A new entry is the only difference that its insertion makes. -/
theorem retain_insert (h : m[k]? = none) : retain (fun a _ => a ≠ k) (m.insert k v) = m := by
  refine ExtTreeMap.ext_getElem? fun a => ?_
  unfold retain
  rw [ExtTreeMap.getElem?_filter', get_insert]
  split
  · next heq =>
    subst heq
    simp [h]
  · next hne =>
    cases m[a]? with
    | none => rfl
    | some w => simp [Option.filter, Ne.symm hne]

/-- A filter that leaves a new value out does not see it. -/
theorem filter_values_insert (h : m[k]? = none) (hv : p v = false) :
    (values (m.insert k v)).filter p = m.values.filter p := by
  conv_rhs => rw [← retain_insert (v := v) h]
  unfold values retain
  rw [ExtTreeMap.toList_filter, List.filter_map, List.filter_map, List.filter_filter]
  congr 1
  refine List.filter_congr fun x hx => ?_
  by_cases hkey : x.1 = k
  · have hget := mem_toList.mp (hkey ▸ hx : (k, x.2) ∈ (m.insert k v).toList)
    rw [get_insert_self, Option.some.injEq] at hget
    simp [← hget, hv]
  · simp [hkey]

theorem find?_values_insert (h : m[k]? = none) (hv : p v = false) :
    (values (m.insert k v)).find? p = m.values.find? p := by
  rw [← List.head?_filter, filter_values_insert h hv, List.head?_filter]

theorem any_values_insert (h : m[k]? = none) (hv : p v = false) :
    (values (m.insert k v)).any p = m.values.any p := by
  rw [Bool.eq_iff_iff, ← List.isSome_find?, ← List.isSome_find?, find?_values_insert h hv]

end BTreeMap

/-! ### Sets -/

/-- `BTreeSet<String>`: a map of nothing. -/
abbrev BTreeSet : Type := BTreeMap Unit

namespace BTreeSet

/-- The elements, in order. -/
def elements (s : BTreeSet) : List String := s.toList.map Prod.fst

/-- `set.extend(items)`. -/
def extend (s : BTreeSet) (items : List String) : BTreeSet := items.foldl (fun s item => s.insert item ()) s

/-- `items.collect()`. -/
def ofList (items : List String) : BTreeSet := extend ∅ items

/-- `a.is_subset(b)`. -/
def isSubset (a b : BTreeSet) : Bool := a.elements.all b.contains

variable {s a b : BTreeSet} {k : String}

theorem mem_elements : k ∈ s.elements ↔ s.contains k = true := by
  rw [ExtTreeMap.contains_eq_isSome_getElem?]
  unfold elements
  constructor
  · intro h
    obtain ⟨⟨_, u⟩, hmem, rfl⟩ := List.mem_map.mp h
    rw [BTreeMap.mem_toList.mp hmem]
    rfl
  · intro h
    obtain ⟨u, hu⟩ := Option.isSome_iff_exists.mp h
    exact List.mem_map.mpr ⟨(k, u), BTreeMap.mem_toList.mpr hu, rfl⟩

theorem isSubset_iff : a.isSubset b = true ↔ ∀ k, a.contains k = true → b.contains k = true := by
  simp only [isSubset, List.all_eq_true, mem_elements]

theorem contains_extend (items : List String) :
    (s.extend items).contains k = true ↔ k ∈ items ∨ s.contains k = true := by
  unfold extend
  induction items generalizing s with
  | nil => simp
  | cons item rest ih =>
    rw [List.foldl_cons, ih, ExtTreeMap.contains_insert, List.mem_cons, Bool.or_eq_true, beq_iff_eq,
      keyCmp_eq_iff, eq_comm (a := item), ← or_assoc, or_comm (a := k ∈ rest)]

/-- What is in a set is in it after more came. -/
theorem isSubset_extend : a.isSubset (b.extend a.elements) = true :=
  isSubset_iff.mpr fun _ hk => (contains_extend _).mpr (.inl (mem_elements.mpr hk))

theorem isSubset_trans {c : BTreeSet} (h : a.isSubset b = true) (h' : b.isSubset c = true) :
    a.isSubset c = true :=
  isSubset_iff.mpr fun k hk => isSubset_iff.mp h' k (isSubset_iff.mp h k hk)

end BTreeSet

end AikitRuntime.Library
