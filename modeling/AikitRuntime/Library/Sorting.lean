import Mathlib.Data.List.Sort
import Mathlib.Data.Prod.Lex

/-!
# Sorting by a key

`sortByKey key l` is a stable sort by a key from a linear order. Where no two items have the same key, the order
in which the items come does not matter, and a filter may be applied before the sort or after it.

A list can also be sorted by a score first and by the key only among equal scores. The first `n` items are then the
first `n` by the key alone exactly when the score never sets an item back: none of these `n` has a lower score than
an item after it.
-/

namespace AikitRuntime.Library

universe u v

variable {α : Type u} {κ : Type v}

/-- No two items have the same key. -/
def Keyed (key : α → κ) (l : List α) : Prop := ∀ a ∈ l, ∀ b ∈ l, key a = key b → a = b

variable {key : α → κ} {l l' : List α} {a b : α} {n : Nat}

theorem Keyed.perm (h : Keyed key l) (hperm : l'.Perm l) : Keyed key l' :=
  fun a ha b hb => h a (hperm.subset ha) b (hperm.subset hb)

theorem Keyed.filter (h : Keyed key l) (p : α → Bool) : Keyed key (l.filter p) :=
  fun a ha b hb => h a (List.mem_of_mem_filter ha) b (List.mem_of_mem_filter hb)

/-! ### The order -/

variable [LinearOrder κ]

/-- `items.sort_by_key(key)`. -/
def sortByKey (key : α → κ) (l : List α) : List α := l.mergeSort fun a b => key a ≤ key b

theorem sortByKey_perm (key : α → κ) (l : List α) : (sortByKey key l).Perm l := List.mergeSort_perm _ _

@[simp] theorem mem_sortByKey : a ∈ sortByKey key l ↔ a ∈ l := (sortByKey_perm key l).mem_iff

@[simp] theorem length_sortByKey : (sortByKey key l).length = l.length := (sortByKey_perm key l).length_eq

theorem pairwise_sortByKey (key : α → κ) (l : List α) : (sortByKey key l).Pairwise fun a b => key a ≤ key b := by
  have hsorted := @List.pairwise_mergeSort α (fun a b => decide (key a ≤ key b))
    (fun a b c hab hbc => by
      rw [decide_eq_true_eq] at hab hbc ⊢
      exact le_trans hab hbc)
    (fun a b => by
      rw [Bool.or_eq_true, decide_eq_true_eq, decide_eq_true_eq]
      exact le_total _ _) l
  exact hsorted.imp of_decide_eq_true

/-- A sorted list of the same items is the sort. -/
theorem sortByKey_unique (h : Keyed key l) (hperm : l'.Perm l) (hsorted : l'.Pairwise fun a b => key a ≤ key b) :
    sortByKey key l = l' := by
  refine List.Perm.eq_of_pairwise (fun a b ha hb hab hba => ?_) (pairwise_sortByKey key l) hsorted
    ((sortByKey_perm key l).trans hperm.symm)
  exact h a (mem_sortByKey.mp ha) b (hperm.subset hb) (le_antisymm hab hba)

/-- **Filters may be applied first.** -/
theorem filter_sortByKey (h : Keyed key l) (p : α → Bool) :
    (sortByKey key l).filter p = sortByKey key (l.filter p) :=
  (sortByKey_unique (h.filter p) ((sortByKey_perm key l).filter p) ((pairwise_sortByKey key l).filter p)).symm

/-- Only the order of the keys matters. -/
theorem sortByKey_eq_of_le {κ' : Type v} [LinearOrder κ'] {key' : α → κ'} (h : Keyed key l)
    (hle : ∀ a ∈ l, ∀ b ∈ l, key a ≤ key b ↔ key' a ≤ key' b) : sortByKey key l = sortByKey key' l := by
  refine sortByKey_unique h (sortByKey_perm key' l) ?_
  exact (pairwise_sortByKey key' l).imp_of_mem fun ha hb hab =>
    (hle _ (mem_sortByKey.mp ha) _ (mem_sortByKey.mp hb)).mpr hab

theorem map_sortByKey {β : Type*} (f : β → α) (l : List β) :
    sortByKey key (l.map f) = (sortByKey (fun b => key (f b)) l).map f := by
  unfold sortByKey
  rw [List.map_mergeSort]
  exact fun _ _ _ _ => rfl

/-- An item is among the first `n` of a sorted list if fewer than `n` items have a lower key. -/
theorem mem_take_iff (h : Keyed key l) (hsorted : l.Pairwise fun a b => key a ≤ key b) (ha : a ∈ l) :
    a ∈ l.take n ↔ l.countP (key · < key a) < n := by
  induction l generalizing n with
  | nil => cases ha
  | cons x rest ih =>
    obtain ⟨hfirst, hrest⟩ := List.pairwise_cons.mp hsorted
    cases n with
    | zero => simp
    | succ n =>
      by_cases hx : a = x
      · subst hx
        have hnone : rest.countP (key · < key a) = 0 :=
          List.countP_eq_zero.mpr fun b hb => by simpa using hfirst b hb
        simp [hnone]
      · have hmem : a ∈ rest := (List.mem_cons.mp ha).resolve_left hx
        have hlt : key x < key a := lt_of_le_of_ne (hfirst a hmem) fun heq =>
          hx (h a ha x List.mem_cons_self heq.symm)
        rw [List.take_succ_cons, List.mem_cons, or_iff_right hx, List.countP_cons_of_pos (by simpa using hlt),
          Nat.succ_lt_succ_iff]
        exact ih (fun a ha b hb => h a (List.mem_cons_of_mem _ ha) b (List.mem_cons_of_mem _ hb)) hrest hmem

theorem mem_take_sortByKey (h : Keyed key l) (ha : a ∈ l) :
    a ∈ (sortByKey key l).take n ↔ l.countP (key · < key a) < n := by
  rw [mem_take_iff (h.perm (sortByKey_perm key l)) (pairwise_sortByKey key l) (mem_sortByKey.mpr ha),
    (sortByKey_perm key l).countP_eq]

/-! ### Scores -/

variable {σ : Type} [LinearOrder σ] {score : α → σ}

/-- The higher score first, and then by the key. -/
def scored (score : α → σ) (key : α → κ) (a : α) : σᵒᵈ ×ₗ κ := toLex (OrderDual.toDual (score a), key a)

theorem scored_le_iff : scored score key a ≤ scored score key b ↔ score b < score a ∨ score a = score b ∧ key a ≤ key b := by
  unfold scored
  rw [Prod.Lex.toLex_le_toLex, OrderDual.toDual_lt_toDual, OrderDual.toDual_inj]

theorem scored_lt_of_score (h : score b < score a) : scored score key a < scored score key b :=
  Prod.Lex.toLex_lt_toLex.mpr (.inl h)

omit [LinearOrder κ] [LinearOrder σ] in
theorem Keyed.scored (h : Keyed key l) (score : α → σ) : Keyed (scored score key) l :=
  fun a ha b hb heq => h a ha b hb (congrArg (fun x => (ofLex x).2) heq)

/-- The score sets no item back that is among the first `n` by the key. -/
def ScoresAgree (score : α → σ) (key : α → κ) (n : Nat) (l : List α) : Prop :=
  ∀ a ∈ l, ∀ b ∈ l, key a < key b → l.countP (key · < key a) < n → score b ≤ score a

/-- Two items of a list that is sorted twice come in the same order both times. -/
theorem not_crossed (hkey : l.Pairwise fun a b => key a ≤ key b)
    (hscored : l.Pairwise fun a b => Library.scored score key a ≤ Library.scored score key b) (ha : a ∈ l) (hb : b ∈ l)
    (hlt : key a < key b) : ¬ score a < score b := by
  have hflip : l.Pairwise (flip fun a b => key a < key b → ¬ score a < score b) :=
    hkey.imp fun hle hlt _ => not_lt.mpr hle hlt
  refine List.Pairwise.forall_of_forall_of_flip (fun a _ hlt => absurd hlt (lt_irrefl _)) (hscored.imp ?_) hflip ha hb hlt
  intro a b hle _ hscore
  exact not_lt.mpr hle (scored_lt_of_score hscore)

/-- **When a score does not change which items come first.** -/
theorem take_scored_iff (h : Keyed key l) :
    (sortByKey (scored score key) l).take n = (sortByKey key l).take n ↔ ScoresAgree score key n l := by
  constructor
  · intro htake a ha b hb hlt hfew
    by_contra hscore
    replace hscore : score a < score b := not_le.mp hscore
    have hfirst : a ∈ (sortByKey key l).take n := (mem_take_sortByKey h ha).mpr hfew
    have hfew' := (mem_take_sortByKey (h.scored score) ha).mp (htake ▸ hfirst)
    have hsecond : b ∈ (sortByKey (scored score key) l).take n := by
      refine (mem_take_sortByKey (h.scored score) hb).mpr (Nat.lt_of_le_of_lt (List.countP_mono_left fun x _ hx => ?_) hfew')
      simp only [decide_eq_true_eq] at hx ⊢
      exact lt_trans hx (scored_lt_of_score hscore)
    refine not_crossed ((pairwise_sortByKey key l).sublist (List.take_sublist n _)) ?_ hfirst (htake ▸ hsecond) hlt hscore
    rw [← htake]
    exact (pairwise_sortByKey (scored score key) l).sublist (List.take_sublist n _)
  · intro hagree
    have hsorted := pairwise_sortByKey key l
    have hkeeps {a b : α} (ha : a ∈ (sortByKey key l).take n) (hb : b ∈ sortByKey key l) (hle : key a ≤ key b) :
        scored score key a ≤ scored score key b := by
      have hal := mem_sortByKey.mp (List.mem_of_mem_take ha)
      rcases hle.lt_or_eq with hlt | heq
      · have hscore := hagree a hal b (mem_sortByKey.mp hb) hlt ((mem_take_sortByKey h hal).mp ha)
        rcases hscore.lt_or_eq with hless | hsame
        · exact (scored_lt_of_score hless).le
        · exact scored_le_iff.mpr (.inr ⟨hsame.symm, hle⟩)
      · rw [h a hal b (mem_sortByKey.mp hb) heq]
    have hsplit : sortByKey (scored score key) l =
        (sortByKey key l).take n ++ sortByKey (scored score key) ((sortByKey key l).drop n) := by
      refine sortByKey_unique (h.scored score) ?_ (List.pairwise_append.mpr ⟨?_, pairwise_sortByKey _ _, ?_⟩)
      · refine ((sortByKey_perm _ _).append_left _).trans ?_
        rw [List.take_append_drop]
        exact sortByKey_perm key l
      · exact (hsorted.sublist (List.take_sublist n _)).imp_of_mem fun ha hb => hkeeps ha (List.mem_of_mem_take hb)
      · intro a ha b hb
        have hb' := mem_sortByKey.mp hb
        rw [← List.take_append_drop n (sortByKey key l)] at hsorted
        exact hkeeps ha (List.mem_of_mem_drop hb') ((List.pairwise_append.mp hsorted).2.2 a ha b hb')
    rw [hsplit]
    rcases Nat.le_total n (sortByKey key l).length with hle | hle
    · exact List.take_left' (List.length_take_of_le hle)
    · have hnone : sortByKey (scored score key) ((sortByKey key l).drop n) = [] := by
        rw [List.drop_eq_nil_of_le hle]
        exact List.mergeSort_nil
      rw [hnone, List.append_nil, List.take_take, Nat.min_self]

/-! ### Items without a score -/

section

variable {score : α → Nat} {p : α → Bool}

/-- The items without a score come last. -/
theorem sortByKey_scored_split (h : Keyed key l) (hp : ∀ a ∈ l, p a = true ↔ 0 < score a) :
    sortByKey (scored score key) l =
      sortByKey (scored score key) (l.filter p) ++ sortByKey (scored score key) (l.filter fun a => !p a) := by
  refine sortByKey_unique (h.scored score) ?_
    (List.pairwise_append.mpr ⟨pairwise_sortByKey _ _, pairwise_sortByKey _ _, fun a ha b hb => ?_⟩)
  · exact ((sortByKey_perm _ _).append (sortByKey_perm _ _)).trans (List.filter_append_perm p l)
  · obtain ⟨ha, hpa⟩ := List.mem_filter.mp (mem_sortByKey.mp ha)
    obtain ⟨hb, hpb⟩ := List.mem_filter.mp (mem_sortByKey.mp hb)
    have hpos := (hp a ha).mp hpa
    have hnone : ¬ 0 < score b := fun hscore => by simp [(hp b hb).mpr hscore] at hpb
    exact scored_le_iff.mpr (.inl (by omega))

/-- The first `n` items by score are the first `n` by the key among those with a score. -/
theorem take_scored_filter_iff (h : Keyed key l) (hp : ∀ a ∈ l, p a = true ↔ 0 < score a) :
    (sortByKey (scored score key) l).take n = (sortByKey key (l.filter p)).take n ↔
      ScoresAgree score key n (l.filter p) ∧ (n ≤ (l.filter p).length ∨ ∀ a ∈ l, p a = true) := by
  by_cases hall : ∀ a ∈ l, p a = true
  · rw [List.filter_eq_self.mpr hall, take_scored_iff h]
    exact ⟨fun hagree => ⟨hagree, .inr hall⟩, And.left⟩
  · rw [sortByKey_scored_split h hp, or_iff_left hall]
    by_cases hn : n ≤ (l.filter p).length
    · rw [List.take_append_of_le_length (hn.trans_eq length_sortByKey.symm), take_scored_iff (h.filter p)]
      exact (and_iff_left hn).symm
    · refine ⟨fun htake => absurd htake fun htake => hall fun a ha => ?_, fun hcond => absurd hcond.2 hn⟩
      have hlength := congrArg List.length htake
      rw [List.length_take, List.length_take, List.length_append, length_sortByKey, length_sortByKey,
        length_sortByKey] at hlength
      have hnone : l.filter (fun a => !p a) = [] := List.length_eq_zero_iff.mp (by omega)
      simpa using List.filter_eq_nil_iff.mp hnone a ha

end

end AikitRuntime.Library
