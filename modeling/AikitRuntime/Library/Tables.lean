import AikitRuntime.Library.NumberMaps

/-!
# Tables that keep a map

A table is a map of its primary keys to its rows, and a row keeps a value as some other value, its
text for example. A table keyed by texts that keeps `m` by `f` is `m.map f`. One keyed by integers
keeps a map of natural numbers (`IntTable.Keeps`): the keys of all of its rows are not negative, and
a scan in key order lists the entries of the map in their order.
-/

namespace AikitRuntime.Library

open Std

universe u v

/-- Rows by an integer primary key. -/
abbrev IntTable (V : Type u) : Type u := ExtTreeMap Int V compare

namespace BTreeMap

variable {V : Type u} {W : Type v} {m : BTreeMap V} {f : V → W} {k : String} {v : V}

theorem get_map : (m.map fun _ => f)[k]? = m[k]?.map f := ExtTreeMap.getElem?_map

theorem map_empty : (∅ : BTreeMap V).map (fun _ => f) = ∅ := ExtTreeMap.map_eq_empty_iff.mpr rfl

theorem map_insert : (m.insert k v).map (fun _ => f) = (m.map fun _ => f).insert k (f v) := by
  refine ExtTreeMap.ext_getElem? fun a => ?_
  rw [get_map, get_insert, get_insert, get_map]
  split <;> rfl

theorem map_erase : (m.erase k).map (fun _ => f) = (m.map fun _ => f).erase k := by
  refine ExtTreeMap.ext_getElem? fun a => ?_
  rw [get_map, get_erase, get_erase, get_map]
  split <;> rfl

/-- Inserting the entries of a map, one after another. -/
theorem foldl_insert_toList (m : BTreeMap V) :
    m.toList.foldl (fun n entry => n.insert entry.1 entry.2) ∅ = m := by
  rw [← ExtTreeMap.ofList_eq_foldl]
  refine ExtTreeMap.ext_getElem? fun a => ?_
  cases hget : m[a]? with
  | some v =>
    exact ExtTreeMap.getElem?_ofList_of_mem ReflCmp.compare_self m.distinct_keys_toList
      (mem_toList.mpr hget)
  | none =>
    refine ExtTreeMap.getElem?_ofList_of_contains_eq_false ?_
    rw [ExtTreeMap.map_fst_toList_eq_keys, Bool.eq_false_iff]
    intro hin
    have hmem := ExtTreeMap.mem_keys.mp (List.elem_iff.mp hin)
    rw [ExtTreeMap.mem_iff_isSome_getElem?, hget] at hmem
    cases hmem

end BTreeMap

namespace IntTable

variable {V : Type u} {W : Type v} {m : NumberMap V} {rows : IntTable W} {f : V → W} {k : Nat} {v : V}

/-- A table that keeps a map of natural numbers. -/
def Keeps (f : V → W) (m : NumberMap V) (rows : IntTable W) : Prop :=
  ∀ (i : Int) row, rows[i]? = some row ↔ ∃ k : Nat, (k : Int) = i ∧ ∃ v, m[k]? = some v ∧ f v = row

theorem keeps_empty : Keeps f (∅ : NumberMap V) ∅ := by
  intro i row
  simp

theorem Keeps.get (h : Keeps f m rows) (k : Nat) : rows[(k : Int)]? = m[k]?.map f := by
  refine Option.ext fun row => ?_
  rw [h, Option.map_eq_some_iff]
  constructor
  · rintro ⟨n, hn, hv⟩
    rwa [Int.ofNat_inj.mp hn] at hv
  · exact fun hv => ⟨k, rfl, hv⟩

theorem get_insert {i j : Int} {row : W} :
    (rows.insert i row)[j]? = if i = j then some row else rows[j]? := by
  simp [ExtTreeMap.getElem?_insert]

theorem get_erase {i j : Int} : (rows.erase i)[j]? = if i = j then none else rows[j]? := by
  simp [ExtTreeMap.getElem?_erase]

theorem Keeps.insert (h : Keeps f m rows) (k : Nat) (v : V) :
    Keeps f (m.insert k v) (rows.insert (k : Int) (f v)) := by
  intro i row
  rw [get_insert]
  split
  · next heq =>
    constructor
    · rintro ⟨⟩
      exact ⟨k, heq, v, by rw [NumberMap.get_insert, if_pos rfl], rfl⟩
    · rintro ⟨n, hn, w, hw, rfl⟩
      have hkn : k = n := Int.ofNat_inj.mp (heq.trans hn.symm)
      rw [NumberMap.get_insert, if_pos hkn, Option.some.injEq] at hw
      rw [hw]
  · next hne =>
    rw [h]
    refine exists_congr fun n => and_congr_right fun hn => ?_
    have hkn : k ≠ n := fun heq => hne (by rw [heq, hn])
    rw [NumberMap.get_insert_of_ne hkn]

theorem Keeps.erase (h : Keeps f m rows) (k : Nat) : Keeps f (m.erase k) (rows.erase (k : Int)) := by
  intro i row
  rw [get_erase]
  split
  · next heq =>
    refine ⟨nofun, ?_⟩
    rintro ⟨n, hn, w, hw, -⟩
    have hkn : k = n := Int.ofNat_inj.mp (heq.trans hn.symm)
    rw [NumberMap.get_erase, if_pos hkn] at hw
    cases hw
  · next hne =>
    rw [h]
    refine exists_congr fun n => and_congr_right fun hn => ?_
    have hkn : k ≠ n := fun heq => hne (by rw [heq, hn])
    rw [NumberMap.get_erase, if_neg hkn]

theorem Keeps.foldl_erase (h : Keeps f m rows) (ks : List Nat) :
    Keeps f (ks.foldl (fun m k => m.erase k) m)
      ((ks.map Int.ofNat).foldl (fun rows key => rows.erase key) rows) := by
  induction ks generalizing m rows with
  | nil => exact h
  | cons k ks ih => exact ih (h.erase k)

/-- **A scan lists the entries of the map**, in their order. -/
theorem Keeps.toList (h : Keeps f m rows) :
    rows.toList = m.toList.map fun entry => ((entry.1 : Int), f entry.2) := by
  have hordered : (m.toList.map fun entry => ((entry.1 : Int), f entry.2)).Pairwise
      fun a b => compare a.1 b.1 = .lt := by
    refine List.pairwise_map.mpr (m.ordered_keys_toList.imp fun hlt => ?_)
    rw [Nat.compare_eq_lt] at hlt
    rw [Int.compare_eq_lt]
    exact Int.ofNat_lt.mpr hlt
  have hnodup {α : Type _} {l : List (Int × α)} (hl : l.Pairwise fun a b => compare a.1 b.1 = .lt) :
      l.Nodup := by
    refine hl.imp fun hlt heq => ?_
    rw [heq, Int.compare_eq_lt] at hlt
    exact Int.lt_irrefl _ hlt
  refine List.Perm.eq_of_pairwise (fun a b _ _ hab hba => ?_) rows.ordered_keys_toList hordered ?_
  · rw [Int.compare_eq_lt] at hab hba
    exact absurd hab (Int.lt_asymm hba)
  · refine (List.perm_ext_iff_of_nodup (hnodup rows.ordered_keys_toList) (hnodup hordered)).mpr ?_
    rintro ⟨i, row⟩
    rw [ExtTreeMap.mem_toList_iff_getElem?_eq_some, h, List.mem_map]
    constructor
    · rintro ⟨k, rfl, v, hv, rfl⟩
      exact ⟨(k, v), NumberMap.mem_toList.mpr hv, rfl⟩
    · rintro ⟨⟨k, v⟩, hv, heq⟩
      cases heq
      exact ⟨k, rfl, v, NumberMap.mem_toList.mp hv, rfl⟩

end IntTable

end AikitRuntime.Library
