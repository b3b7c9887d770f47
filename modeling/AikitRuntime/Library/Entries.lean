import AikitRuntime.Library.SortedMaps

/-!
# Tables whose entries are created and moved

A table that never loses an entry: a step leaves the entry under a key, creates one where there was none,
or moves the one that is there. `EntryStep` says so for one key, from what a new entry is like and how an
entry may move, and an insertion into a map is such a step for each of its keys.
-/

namespace AikitRuntime.Library

universe u

variable {V : Type u}

/-- What a step does to the entry under one key. -/
inductive EntryStep (Created : V → Prop) (Moved : V → V → Prop) : Option V → Option V → Prop where
  | same (entry : Option V) : EntryStep Created Moved entry entry
  | created (new : V) (h : Created new) : EntryStep Created Moved none (some new)
  | moved (old new : V) (h : Moved old new) : EntryStep Created Moved (some old) (some new)

namespace EntryStep

variable {Created Created' : V → Prop} {Moved Moved' : V → V → Prop} {before after : Option V} {v w : V}

theorem mono (hcreated : ∀ v, Created v → Created' v) (hmoved : ∀ v w, Moved v w → Moved' v w)
    (h : EntryStep Created Moved before after) : EntryStep Created' Moved' before after := by
  cases h with
  | same => exact .same _
  | created new h => exact .created new (hcreated new h)
  | moved old new h => exact .moved old new (hmoved old new h)

/-- An entry stays in the table. -/
theorem of_some (h : EntryStep Created Moved (some v) after) : ∃ w, after = some w ∧ (w = v ∨ Moved v w) := by
  cases h with
  | same => exact ⟨v, rfl, .inl rfl⟩
  | moved _ new h => exact ⟨new, rfl, .inr h⟩

/-- An entry was there before, or it is new. -/
theorem of_after (h : EntryStep Created Moved before (some w)) :
    before = some w ∨ (before = none ∧ Created w) ∨ ∃ v, before = some v ∧ Moved v w := by
  cases h with
  | same => exact .inl rfl
  | created _ h => exact .inr (.inl ⟨rfl, h⟩)
  | moved old _ h => exact .inr (.inr ⟨old, rfl, h⟩)

/-- What new entries have and moves keep, every entry has after the step. -/
theorem keeps {P : V → Prop} (hcreated : ∀ v, Created v → P v) (hmoved : ∀ v w, P v → Moved v w → P w)
    (hbefore : ∀ v, before = some v → P v) (h : EntryStep Created Moved before after) :
    ∀ w, after = some w → P w := by
  rintro w rfl
  rcases h.of_after with hsame | ⟨_, hnew⟩ | ⟨v, hv, hmove⟩
  · exact hbefore w hsame
  · exact hcreated w hnew
  · exact hmoved v w (hbefore v hv) hmove

end EntryStep

/-! ### Insertions -/

variable {m : BTreeMap V} {k a : String} {v w : V} {C : String → V → Prop}
  {M : String → V → V → Prop}

/-- A new key. -/
theorem entryStep_insert_new (h : m[k]? = none) (hv : C k v) :
    EntryStep (C a) (M a) m[a]? (m.insert k v)[a]? := by
  rw [BTreeMap.get_insert]
  split
  · next heq =>
    subst heq
    rw [h]
    exact .created v hv
  · exact .same _

/-- A key that is there. -/
theorem entryStep_insert_moved (h : m[k]? = some w) (hv : M k w v) :
    EntryStep (C a) (M a) m[a]? (m.insert k v)[a]? := by
  rw [BTreeMap.get_insert]
  split
  · next heq =>
    subst heq
    rw [h]
    exact .moved w v hv
  · exact .same _

end AikitRuntime.Library
