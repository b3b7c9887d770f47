import AikitRuntime.Library.SortedMaps
import Mathlib.Data.List.Perm.Basic
import Mathlib.Algebra.BigOperators.Group.List.Basic
import Mathlib.Algebra.Ring.Nat
import Mathlib.Data.Nat.Cast.Basic

/-!
# Totals over the entries of a map

`total size m` adds up what each entry of a map measures. What an insertion adds is the measure of the new
entry, less that of the one it replaces; a count is the total of ones, and a total over the entries that
have a property is the total of a measure that is zero elsewhere.
-/

namespace AikitRuntime.Library

open Std

variable {κ V : Type} {cmp : κ → κ → Ordering} [TransCmp cmp] [LawfulEqCmp cmp] {m : ExtTreeMap κ V cmp}
  {k a : κ} {v w : V} {size size' : κ → V → Nat}

/-- The sum of what the entries measure. -/
def total (size : κ → V → Nat) (m : ExtTreeMap κ V cmp) : Nat :=
  (m.toList.map fun entry => size entry.1 entry.2).sum

/-! ### The entries after an insertion -/

theorem nodup_toList (m : ExtTreeMap κ V cmp) : m.toList.Nodup := by
  refine (ExtTreeMap.distinct_keys_toList ).imp fun {x y} hne heq => hne ?_
  rw [heq]
  exact ReflCmp.compare_self

section Insertions

variable [DecidableEq κ]

theorem getElem?_insert_map : (m.insert k v)[a]? = if k = a then some v else m[a]? := by
  rw [ExtTreeMap.getElem?_insert]
  by_cases h : k = a
  · rw [if_pos h, if_pos (LawfulEqCmp.compare_eq_iff_eq.mpr h)]
  · rw [if_neg h, if_neg fun heq => h (LawfulEqCmp.compare_eq_iff_eq.mp heq)]

theorem getElem?_erase_map : (m.erase k)[a]? = if k = a then none else m[a]? := by
  rw [ExtTreeMap.getElem?_erase]
  by_cases h : k = a
  · rw [if_pos h, if_pos (LawfulEqCmp.compare_eq_iff_eq.mpr h)]
  · rw [if_neg h, if_neg fun heq => h (LawfulEqCmp.compare_eq_iff_eq.mp heq)]

/-- A new entry beside the others. -/
theorem toList_insert_new (h : m[k]? = none) : (m.insert k v).toList.Perm ((k, v) :: m.toList) := by
  have hnew : (k, v) ∉ m.toList := fun hmem => by
    rw [ExtTreeMap.mem_toList_iff_getElem?_eq_some, h] at hmem
    cases hmem
  refine (List.perm_ext_iff_of_nodup (nodup_toList _) (List.nodup_cons.mpr ⟨hnew, nodup_toList _⟩)).mpr ?_
  rintro ⟨a, w⟩
  rw [List.mem_cons, ExtTreeMap.mem_toList_iff_getElem?_eq_some, ExtTreeMap.mem_toList_iff_getElem?_eq_some,
    getElem?_insert_map, Prod.mk.injEq]
  by_cases hkey : k = a
  · subst hkey
    simp [h, eq_comm]
  · simp [hkey, Ne.symm hkey]

/-- An entry beside the others. -/
theorem toList_erase (h : m[k]? = some w) : m.toList.Perm ((k, w) :: (m.erase k).toList) := by
  have hgone : (k, w) ∉ (m.erase k).toList := fun hmem => by
    rw [ExtTreeMap.mem_toList_iff_getElem?_eq_some, getElem?_erase_map, if_pos rfl] at hmem
    cases hmem
  refine (List.perm_ext_iff_of_nodup (nodup_toList _) (List.nodup_cons.mpr ⟨hgone, nodup_toList _⟩)).mpr ?_
  rintro ⟨a, v⟩
  rw [List.mem_cons, ExtTreeMap.mem_toList_iff_getElem?_eq_some, ExtTreeMap.mem_toList_iff_getElem?_eq_some,
    getElem?_erase_map, Prod.mk.injEq]
  by_cases hkey : k = a
  · subst hkey
    simp [h, eq_comm]
  · simp [hkey, Ne.symm hkey]

theorem insert_erase_self : (m.erase k).insert k v = m.insert k v := by
  refine ExtTreeMap.ext_getElem? fun a => ?_
  rw [getElem?_insert_map, getElem?_insert_map, getElem?_erase_map]
  split <;> rfl

/-! ### Totals -/

theorem total_insert_new (h : m[k]? = none) : total size (m.insert k v) = total size m + size k v := by
  unfold total
  rw [((toList_insert_new h).map _).sum_eq, List.map_cons, List.sum_cons, Nat.add_comm]

theorem total_erase (h : m[k]? = some w) : total size (m.erase k) + size k w = total size m := by
  unfold total
  rw [((toList_erase h).map _).sum_eq, List.map_cons, List.sum_cons, Nat.add_comm]

/-- A replacement takes the place of what was there. -/
theorem total_insert_old (size : κ → V → Nat) (v : V) (h : m[k]? = some w) :
    total size (m.insert k v) + size k w = total size m + size k v := by
  have hgone : (m.erase k)[k]? = none := by rw [getElem?_erase_map, if_pos rfl]
  rw [← insert_erase_self, total_insert_new hgone, ← total_erase h]
  omega

/-- A replacement that measures the same. -/
theorem total_insert_same (h : m[k]? = some w) (hsame : size k v = size k w) :
    total size (m.insert k v) = total size m := by
  have hold := total_insert_old size v h
  omega

end Insertions

omit [LawfulEqCmp cmp] in
@[simp] theorem total_empty : total size (∅ : ExtTreeMap κ V cmp) = 0 := by
  unfold total
  have hnil : (∅ : ExtTreeMap κ V cmp).toList = [] := List.length_eq_zero_iff.mp ExtTreeMap.length_toList
  rw [hnil]
  rfl

theorem total_congr (h : ∀ (k : κ) (v : V), m[k]? = some v → size k v = size' k v) :
    total size m = total size' m := by
  unfold total
  refine congrArg List.sum (List.map_congr_left fun entry hmem => h entry.1 entry.2 ?_)
  exact ExtTreeMap.mem_toList_iff_getElem?_eq_some.mp hmem

omit [LawfulEqCmp cmp] in
theorem total_le_total (h : ∀ (k : κ) (v : V), size k v ≤ size' k v) : total size m ≤ total size' m := by
  unfold total
  induction m.toList with
  | nil => exact Nat.le_refl 0
  | cons entry rest ih => exact Nat.add_le_add (h entry.1 entry.2) ih

omit [LawfulEqCmp cmp] in
theorem size_eq_total (m : ExtTreeMap κ V cmp) : m.size = total (fun _ _ => 1) m := by
  simp [total, ExtTreeMap.length_toList]

/-! ### Entries with a property -/

section Filtered

variable (p : κ × V → Bool)

omit [LawfulEqCmp cmp] in
/-- The total over the entries with a property. -/
theorem sum_filter_toList (size : κ → V → Nat) (m : ExtTreeMap κ V cmp) :
    ((m.toList.filter p).map fun entry => size entry.1 entry.2).sum =
      total (fun k v => if p (k, v) = true then size k v else 0) m := by
  unfold total
  induction m.toList with
  | nil => rfl
  | cons entry rest ih =>
    by_cases h : p entry = true
    · rw [List.filter_cons_of_pos h]
      simp only [List.map_cons, List.sum_cons, ih, h, if_true]
    · rw [List.filter_cons_of_neg h]
      simp only [List.map_cons, List.sum_cons, ih, h, Bool.false_eq_true, if_false, Nat.zero_add]

omit [LawfulEqCmp cmp] in
theorem length_filter_toList (m : ExtTreeMap κ V cmp) :
    (m.toList.filter p).length = total (fun k v => if p (k, v) = true then 1 else 0) m := by
  rw [← sum_filter_toList p (fun _ _ => 1)]
  simp

end Filtered

/-- The sum over the values with a property. -/
theorem sum_filter_values (p : V → Bool) (size : V → Nat) (m : BTreeMap V) :
    ((m.values.filter p).map size).sum = total (fun _ v => if p v = true then size v else 0) m := by
  unfold BTreeMap.values
  rw [List.filter_map, List.map_map]
  exact sum_filter_toList (fun entry => p entry.2) (fun _ v => size v) m

/-- How many values have a property. -/
theorem length_filter_values (p : V → Bool) (m : BTreeMap V) :
    (m.values.filter p).length = total (fun _ v => if p v = true then 1 else 0) m := by
  unfold BTreeMap.values
  rw [List.filter_map, List.length_map, length_filter_toList]
  rfl

/-! ### Values that are there -/

section Listed

variable [DecidableEq κ] {p : V → Prop}

/-- Some value of a map is such. -/
def Listed (m : ExtTreeMap κ V cmp) (p : V → Prop) : Prop := ∃ (k : κ) (v : V), m[k]? = some v ∧ p v

theorem erase_of_none (h : m[k]? = none) : m.erase k = m := by
  refine ExtTreeMap.ext_getElem? fun a => ?_
  rw [getElem?_erase_map]
  split
  · next heq => rw [← heq, h]
  · rfl

/-- What is there after an insertion: the new value, and what was there under other keys. -/
theorem listed_insert : Listed (m.insert k v) p ↔ p v ∨ Listed (m.erase k) p := by
  constructor
  · rintro ⟨a, w, hget, hp⟩
    rw [getElem?_insert_map] at hget
    by_cases hkey : k = a
    · rw [if_pos hkey, Option.some.injEq] at hget
      exact .inl (hget ▸ hp)
    · rw [if_neg hkey] at hget
      exact .inr ⟨a, w, by rw [getElem?_erase_map, if_neg hkey, hget], hp⟩
  · rintro (hp | ⟨a, w, hget, hp⟩)
    · exact ⟨k, v, by rw [getElem?_insert_map, if_pos rfl], hp⟩
    · rw [getElem?_erase_map] at hget
      by_cases hkey : k = a
      · rw [if_pos hkey] at hget
        cases hget
      · rw [if_neg hkey] at hget
        exact ⟨a, w, by rw [getElem?_insert_map, if_neg hkey, hget], hp⟩

/-- What is there without a value that no other shares the property with. -/
theorem listed_erase (hget : m[k]? = some w)
    (hunique : ∀ (a : κ) (v : V), m[a]? = some v → p v → p w → a = k) :
    Listed (m.erase k) p ↔ ¬ p w ∧ Listed m p := by
  constructor
  · rintro ⟨a, v, herased, hp⟩
    rw [getElem?_erase_map] at herased
    by_cases hkey : k = a
    · rw [if_pos hkey] at herased
      cases herased
    · rw [if_neg hkey] at herased
      exact ⟨fun hw => hkey (hunique a v herased hp hw).symm, a, v, herased, hp⟩
  · rintro ⟨hw, a, v, hthere, hp⟩
    refine ⟨a, v, ?_, hp⟩
    rw [getElem?_erase_map, if_neg, hthere]
    rintro rfl
    rw [hget, Option.some.injEq] at hthere
    exact hw (hthere ▸ hp)

omit [DecidableEq κ] [LawfulEqCmp cmp] in
theorem not_listed_empty : ¬ Listed (∅ : ExtTreeMap κ V cmp) p := by
  rintro ⟨_, _, hget, _⟩
  rw [ExtTreeMap.getElem?_empty] at hget
  cases hget

end Listed

end AikitRuntime.Library
