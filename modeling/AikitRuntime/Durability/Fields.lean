import AikitRuntime.Durability.Canonical
import Mathlib.Data.List.Induction

/-!
# Objects by their fields

An object that is built from a list of fields has one value for each key, the last one that was put there
(`get?_ofFields`). Values that are alike both ways (`Same`) have the same fields with the same values, so what was
written into an object can be read off any value that is the same.
-/

namespace AikitRuntime.Durability

open Library

namespace Value

/-- The value under a key, in an object. -/
def get? (key : String) : Value → Option Value
  | .object fields => field? key fields
  | _ => none

/-! ### Building an object -/

variable {fields : List (String × Value)} {key : String}

theorem mem_insertField {k : String} {value v : Value}
    (h : (k, v) ∈ insertField key value fields) : (k, v) = (key, value) ∨ (k, v) ∈ fields := by
  induction fields with
  | nil => exact .inl (List.mem_singleton.mp h)
  | cons first rest ih =>
    obtain ⟨k', v'⟩ := first
    unfold insertField at h
    split at h
    · exact (List.mem_cons.mp h).imp_right (List.mem_cons_of_mem _)
    · split at h
      · exact List.mem_cons.mp h
      · rcases List.mem_cons.mp h with hfirst | hrest
        · exact .inr (hfirst ▸ List.mem_cons_self)
        · exact (ih hrest).imp_right (List.mem_cons_of_mem _)

/-- A field is put in its place. -/
theorem sorted_insertField {value : Value}
    (h : fields.Pairwise fun a b => a.1 < b.1) : (insertField key value fields).Pairwise fun a b => a.1 < b.1 := by
  induction fields with
  | nil => exact List.pairwise_singleton _ _
  | cons first rest ih =>
    obtain ⟨k, v⟩ := first
    rw [List.pairwise_cons] at h
    unfold insertField
    split
    · next hkey =>
      subst hkey
      exact List.pairwise_cons.mpr h
    · next hne =>
      split
      · next hlt =>
        refine List.pairwise_cons.mpr ⟨fun field hmem => ?_, List.pairwise_cons.mpr h⟩
        rcases List.mem_cons.mp hmem with rfl | hrest
        · exact hlt
        · exact lt_trans hlt (h.1 field hrest)
      · next hge =>
        refine List.pairwise_cons.mpr ⟨fun field hmem => ?_, ih h.2⟩
        rcases mem_insertField hmem with hfield | hrest
        · rw [Prod.ext_iff] at hfield
          rw [hfield.1]
          exact lt_of_le_of_ne (not_lt.mp hge) (Ne.symm hne)
        · exact h.1 field hrest

/-- What is under a key is what was put there last. -/
theorem get?_ofFields (key : String) (fields : List (String × Value)) :
    get? key (ofFields fields) =
      fields.foldl (fun found field => if field.1 = key then some field.2 else found) none := by
  induction fields using List.reverseRecOn with
  | nil => rfl
  | append_singleton front last ih =>
    rw [List.foldl_append, ← ih]
    show field? key (List.foldl _ [] (front ++ [last])) = _
    rw [List.foldl_append]
    exact field?_insertField

theorem proper_ofFields (h : ∀ field ∈ fields, field.2.Proper) :
    (ofFields fields).Proper := by
  suffices hsorted : (∀ key v, (key, v) ∈ fields.foldl (fun rest field => insertField field.1 field.2 rest) [] →
      v.Proper) ∧ (fields.foldl (fun rest field => insertField field.1 field.2 rest) []).Pairwise
        fun a b => a.1 < b.1 by
    obtain ⟨hproper, hpairs⟩ := hsorted
    refine ⟨?_, ?_⟩
    · rw [List.nodup_iff_pairwise_ne, List.pairwise_map]
      exact hpairs.imp fun hlt => ne_of_lt hlt
    · generalize fields.foldl (fun rest field => insertField field.1 field.2 rest) [] = built at hproper
      induction built with
      | nil => trivial
      | cons first rest ih =>
        exact ⟨hproper first.1 first.2 List.mem_cons_self, ih fun key v hmem => hproper key v (List.mem_cons_of_mem _ hmem)⟩
  induction fields using List.reverseRecOn with
  | nil => exact ⟨nofun, List.Pairwise.nil⟩
  | append_singleton front last ih =>
    have hfront := ih fun field hmem => h field (List.mem_append_left _ hmem)
    rw [List.foldl_append]
    refine ⟨fun key v hmem => ?_, sorted_insertField hfront.2⟩
    rcases mem_insertField hmem with hlast | hold
    · rw [Prod.mk.injEq] at hlast
      rw [hlast.2]
      exact h last (List.mem_append_right _ (List.mem_singleton_self _))
    · exact hfront.1 key v hold

theorem proper_array {items : List Value} (h : ∀ item ∈ items, item.Proper) : (Value.array items).Proper := by
  show ProperItems items
  induction items with
  | nil => trivial
  | cons first rest ih =>
    rw [List.forall_mem_cons] at h
    exact ⟨h.1, ih h.2⟩

/-! ### Values that are the same -/

/-- Alike, both ways. -/
def Same (v w : Value) : Prop := v.Alike w ∧ w.Alike v

theorem field?_eq_some {v : Value} (h : field? key fields = some v) :
    (key, v) ∈ fields := by
  induction fields with
  | nil => cases h
  | cons first rest ih =>
    obtain ⟨k, w⟩ := first
    unfold field? at h
    split at h
    · next hkey =>
      rw [Option.some.injEq] at h
      rw [h, hkey]
      exact List.mem_cons_self
    · exact List.mem_cons_of_mem _ (ih h)

variable {v w : Value}

/-- What is the same has the same fields. -/
theorem Same.get? (h : Same v w) (key : String) : Option.Rel Same (v.get? key) (w.get? key) := by
  have hfields : ∀ {xs ys : List (String × Value)} {a : Value}, (Value.object xs).Alike (.object ys) →
      field? key xs = some a → ∃ b, field? key ys = some b ∧ a.Alike b := by
    intro xs ys a halike hget
    rw [Value.Alike] at halike
    exact alikeFields_iff.mp halike.2 key a (field?_eq_some hget)
  obtain ⟨hvw, hwv⟩ := h
  cases v with
  | object xs =>
    cases w with
    | object ys =>
      show Option.Rel Same (field? key xs) (field? key ys)
      cases hleft : field? key xs with
      | none =>
        cases hright : field? key ys with
        | none => exact .none
        | some b =>
          obtain ⟨a, hget, -⟩ := hfields hwv hright
          rw [hleft] at hget
          cases hget
      | some a =>
        obtain ⟨b, hright, hab⟩ := hfields hvw hleft
        obtain ⟨a', hget, hba⟩ := hfields hwv hright
        rw [hleft, Option.some.injEq] at hget
        rw [hright]
        exact .some ⟨hab, hget ▸ hba⟩
    | _ => cases hvw
  | _ =>
    cases w with
    | object ys => cases hvw
    | _ => exact .none

theorem Same.string {s t : String} (h : Same (.string s) (.string t)) : s = t := h.1

theorem Same.number {n k : Number} (h : Same (.number n) (.number k)) : n = k := h.1

theorem Same.items {xs ys : List Value} (h : Same (.array xs) (.array ys)) : List.Forall₂ Same xs ys := by
  obtain ⟨hxy, hyx⟩ := h
  rw [Value.Alike, alikeItems_iff] at hxy hyx
  rw [List.forall₂_iff_get] at hxy hyx ⊢
  exact ⟨hxy.1, fun i hi hi' => ⟨hxy.2 i hi hi', hyx.2 i hi' hi⟩⟩

/-- Texts that are there or not. -/
theorem same_texts {s t : Option String} (h : Option.Rel Same (s.map .string) (t.map .string)) : s = t := by
  cases s with
  | none =>
    cases t with
    | none => rfl
    | some _ => cases h
  | some s =>
    cases t with
    | none => cases h
    | some t =>
      cases h with
      | some hsame => rw [hsame.string]

end Value

/-- Values of one input hash are the same, unless their texts collide. -/
theorem same_of_stableInputHash {v w : Value} (hv : v.Proper) (hw : w.Proper)
    (hfree : ¬ Collision (utf8 (canonicalJson v)) (utf8 (canonicalJson w)))
    (h : sha256.stableInputHash v = sha256.stableInputHash w) : Value.Same v w := by
  refine ⟨(stableInputHash_agrees hv hw h).resolve_right hfree, (stableInputHash_agrees hw hv h.symm).resolve_right ?_⟩
  rintro ⟨hne, heq⟩
  exact hfree ⟨hne.symm, heq.symm⟩

end AikitRuntime.Durability
