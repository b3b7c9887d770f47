import AikitRuntime.Library.SortedMaps
import Mathlib.Algebra.Ring.Nat

/-!
# Maps with numbers as keys

`BTreeMap<u64, V>`, and `HashMap<u64, V>` where the order of the entries is not looked at. As for
`BTreeMap`, a proof reads which value a key has. What the entries come to together is `total f m`,
the sum of `f` over the values, and the lemmas say what one insertion or removal does to it.
-/

namespace AikitRuntime.Library

open Std

universe u

/-- `BTreeMap<u64, V>`. -/
abbrev NumberMap (V : Type u) : Type u := ExtTreeMap Nat V compare

namespace NumberMap

variable {V : Type u} {m : NumberMap V} {k a : Nat} {v w : V}

/-- `map.values()`, in key order. -/
def values (m : NumberMap V) : List V := m.toList.map Prod.snd

/-- The sum of `f` over the values of a map. -/
def total (f : V → Nat) (m : NumberMap V) : Nat := (m.values.map f).sum

theorem get_insert : (m.insert k v)[a]? = if k = a then some v else m[a]? := by
  simp [ExtTreeMap.getElem?_insert]

theorem get_insert_of_ne (h : k ≠ a) : (m.insert k v)[a]? = m[a]? := by
  rw [get_insert, if_neg h]

theorem get_erase : (m.erase k)[a]? = if k = a then none else m[a]? := by
  simp [ExtTreeMap.getElem?_erase]

/-- Removing the keys of a list. -/
theorem get_foldl_erase (ks : List Nat) :
    (ks.foldl (fun m k => m.erase k) m)[a]? = if a ∈ ks then none else m[a]? := by
  induction ks generalizing m with
  | nil => rfl
  | cons k ks ih =>
    rw [List.foldl_cons, ih, get_erase]
    by_cases hin : a ∈ ks
    · rw [if_pos hin, if_pos (List.mem_cons_of_mem _ hin)]
    · by_cases heq : k = a
      · simp [heq]
      · simp [hin, heq, Ne.symm heq]

theorem contains_eq_false : m.contains k = false ↔ m[k]? = none := by
  rw [ExtTreeMap.contains_eq_isSome_getElem?, Option.isSome_eq_false_iff, Option.isNone_iff_eq_none]

theorem mem_keys : k ∈ m.keys ↔ ∃ v, m[k]? = some v := by
  rw [ExtTreeMap.mem_keys, ExtTreeMap.mem_iff_isSome_getElem?, Option.isSome_iff_exists]

theorem mem_toList : (k, v) ∈ m.toList ↔ m[k]? = some v :=
  ExtTreeMap.mem_toList_iff_getElem?_eq_some

theorem toList_empty : (∅ : NumberMap V).toList = [] := by
  refine List.eq_nil_iff_forall_not_mem.mpr fun ⟨k, v⟩ h => ?_
  rw [mem_toList, ExtTreeMap.getElem?_empty] at h
  cases h

theorem nodup_toList (m : NumberMap V) : m.toList.Nodup := by
  refine List.Pairwise.imp ?_ m.distinct_keys_toList
  rintro x y hne rfl
  exact hne (Nat.compare_eq_eq.mpr rfl)

/-- The entries of a map are one of them and the others. -/
theorem perm_erase (h : m[k]? = some v) : m.toList.Perm ((k, v) :: (m.erase k).toList) := by
  have hnone : (m.erase k)[k]? = none := by rw [get_erase, if_pos rfl]
  have hfresh : (k, v) ∉ (m.erase k).toList := by
    rw [mem_toList, hnone]
    nofun
  refine (List.perm_ext_iff_of_nodup m.nodup_toList (List.nodup_cons.mpr ⟨hfresh, nodup_toList _⟩)).mpr ?_
  rintro ⟨a, w⟩
  rw [List.mem_cons, mem_toList, mem_toList, get_erase, Prod.mk.injEq]
  by_cases heq : k = a
  · subst heq
    rw [h, if_pos rfl, Option.some.injEq]
    simp [eq_comm]
  · rw [if_neg heq]
    simp [Ne.symm heq]

theorem total_erase (f : V → Nat) (h : m[k]? = some v) : total f m = f v + total f (m.erase k) := by
  unfold total values
  rw [List.Perm.sum_nat (((perm_erase h).map Prod.snd).map f)]
  rfl

theorem erase_insert (h : m[k]? = none) : (m.insert k v).erase k = m := by
  refine ExtTreeMap.ext_getElem? fun a => ?_
  rw [get_erase]
  split
  · next heq => rw [← heq, h]
  · next hne => rw [get_insert_of_ne hne]

theorem erase_insert_erase : (m.insert k v).erase k = m.erase k := by
  refine ExtTreeMap.ext_getElem? fun a => ?_
  rw [get_erase, get_erase]
  split
  · rfl
  · next hne => rw [get_insert_of_ne hne]

theorem insert_same (h : m[k]? = some v) : m.insert k v = m := by
  refine ExtTreeMap.ext_getElem? fun a => ?_
  rw [get_insert]
  split
  · next heq => rw [← heq, h]
  · rfl

theorem erase_of_none (h : m[k]? = none) : m.erase k = m := by
  refine ExtTreeMap.ext_getElem? fun a => ?_
  rw [get_erase]
  split
  · next heq => rw [← heq, h]
  · rfl

theorem total_insert (f : V → Nat) (h : m[k]? = none) :
    total f (m.insert k v) = f v + total f m := by
  have hget : (m.insert k v)[k]? = some v := by rw [get_insert, if_pos rfl]
  rw [total_erase f hget, erase_insert h]

theorem total_eq_zero {f : V → Nat} : total f m = 0 ↔ ∀ (k : Nat) (v : V), m[k]? = some v → f v = 0 := by
  constructor
  · intro h k v hget
    rw [total_erase f hget] at h
    omega
  · intro h
    refine List.sum_eq_zero_iff_forall_eq_nat.mpr fun n hn => ?_
    obtain ⟨v, hv, rfl⟩ := List.mem_map.mp hn
    obtain ⟨⟨k, _⟩, hmem, rfl⟩ := List.mem_map.mp hv
    exact h k _ (mem_toList.mp hmem)

/-- A new value of a key that had one. -/
theorem total_replace (f : V → Nat) (h : m[k]? = some v) :
    total f (m.insert k w) + f v = total f m + f w := by
  have hget : (m.insert k w)[k]? = some w := by rw [get_insert, if_pos rfl]
  rw [total_erase f hget, total_erase f h, erase_insert_erase]
  omega

end NumberMap

end AikitRuntime.Library
