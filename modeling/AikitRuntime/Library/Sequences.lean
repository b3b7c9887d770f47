import Mathlib.Data.List.Basic

/-!
# Numbered lists

A list whose items are numbered 1, 2, 3, ... in its order, as the events of a log are. The items with a number in an
interval are then a segment of the list, and a reader that goes on after the last number it saw misses nothing.
-/

namespace AikitRuntime.Library

variable {α β : Type} {number : α → Nat} {xs : List α} {x : α}

/-- The numbers are 1, 2, 3, ... -/
def Counted (number : α → Nat) (xs : List α) : Prop := xs.map number = List.range' 1 xs.length

/-- The items with a number above `a`, up to `b`. -/
def between (number : α → Nat) (a b : Nat) (xs : List α) : List α :=
  xs.filter fun x => a < number x ∧ number x ≤ b

namespace Counted

theorem nil : Counted number [] := rfl

/-- One more item, with the next number. -/
theorem push (h : Counted number xs) (hx : number x = xs.length + 1) : Counted number (xs ++ [x]) := by
  unfold Counted at h ⊢
  rw [List.map_append, h, List.length_append, List.length_singleton, List.range'_1_concat, List.map_singleton, hx,
    Nat.add_comm 1]

theorem number_eq (h : Counted number xs) {i : Nat} (hi : xs[i]? = some x) : number x = i + 1 := by
  have hlt := (List.getElem?_eq_some_iff.mp hi).1
  have hget : (xs.map number)[i]? = some (number x) := by
    rw [List.getElem?_map, hi]
    rfl
  rw [h, List.getElem?_range' hlt, Option.some.injEq] at hget
  omega

/-- The numbers grow along the list. -/
theorem pairwise (h : Counted number xs) : xs.Pairwise fun x y => number x < number y := by
  have hrange : (xs.map number).Pairwise (· < ·) := by
    rw [h]
    exact List.pairwise_lt_range'
  exact List.pairwise_map.mp hrange

end Counted

/-- Numbers that start anywhere: the items of an interval are a segment. -/
theorem between_of_range' {start : Nat} (h : xs.map number = List.range' start xs.length) (a b : Nat) :
    between number a b xs = (xs.drop (a + 1 - start)).take (b + 1 - max start (a + 1)) := by
  induction xs generalizing start with
  | nil => simp [between]
  | cons x xs ih =>
    rw [List.map_cons, List.length_cons, List.range'_succ, List.cons.injEq] at h
    obtain ⟨hfirst, hrest⟩ := h
    have hlater := ih hrest
    unfold between at hlater ⊢
    by_cases hlow : a < start
    · by_cases hhigh : start ≤ b
      · rw [List.filter_cons_of_pos (by simp [hfirst, hlow, hhigh]), hlater, show a + 1 - start = 0 by omega,
          show a + 1 - (start + 1) = 0 by omega, List.drop_zero, List.drop_zero,
          show b + 1 - max start (a + 1) = b + 1 - max (start + 1) (a + 1) + 1 by omega, List.take_succ_cons]
      · rw [List.filter_cons_of_neg (by simp [hfirst, hhigh]), hlater,
          show b + 1 - max start (a + 1) = 0 by omega, show b + 1 - max (start + 1) (a + 1) = 0 by omega,
          List.take_zero, List.take_zero]
    · rw [List.filter_cons_of_neg (by simp [hfirst, hlow]), hlater,
        show a + 1 - start = a + 1 - (start + 1) + 1 by omega, List.drop_succ_cons,
        show max (start + 1) (a + 1) = max start (a + 1) by omega]

namespace Counted

/-- The items of an interval are a segment. -/
theorem between_eq (h : Counted number xs) (a b : Nat) : between number a b xs = (xs.drop a).take (b - a) := by
  rw [between_of_range' h, show a + 1 - 1 = a by omega, show b + 1 - max 1 (a + 1) = b - a by omega]

/-- An interval in two parts. -/
theorem between_append (h : Counted number xs) {a b c : Nat} (hab : a ≤ b) (hbc : b ≤ c) :
    between number a b xs ++ between number b c xs = between number a c xs := by
  rw [h.between_eq, h.between_eq, h.between_eq, show c - a = (b - a) + (c - b) by omega, List.take_add,
    List.drop_drop, show a + (b - a) = b by omega]

/-- A part from the beginning of an interval is an interval, up to the number of its last item. -/
theorem prefix_between (h : Counted number xs) {a b : Nat} {page : List α} (hpage : page <+: between number a b xs) :
    page = between number a (a + page.length) xs ∧ (page ≠ [] → (page.getLast?.map number) = some (a + page.length)) ∧
      page.length ≤ b - a := by
  rw [h.between_eq] at hpage
  have hlength : page.length ≤ b - a := Nat.le_trans hpage.length_le (List.length_take_le ..)
  have htake : page = (xs.drop a).take page.length := by
    have := List.prefix_iff_eq_take.mp hpage
    rw [List.take_take, Nat.min_eq_left hlength] at this
    exact this
  refine ⟨?_, fun hne => ?_, hlength⟩
  · rw [h.between_eq, Nat.add_sub_cancel_left]
    exact htake
  · obtain ⟨x, hx⟩ := Option.ne_none_iff_exists'.mp (mt List.getLast?_eq_none_iff.mp hne)
    have hpos : 0 < page.length := List.length_pos_of_ne_nil hne
    have hget : xs[a + (page.length - 1)]? = some x := by
      have hlast := hx
      rw [List.getLast?_eq_getElem?, htake, List.getElem?_take, List.getElem?_drop] at hlast
      rw [← htake] at hlast
      rwa [if_pos (by omega)] at hlast
    rw [hx, Option.map_some, h.number_eq hget]
    congr 1
    omega

/-- The end of a list has the same items in an interval that does not start before it. -/
theorem between_suffix (h : Counted number xs) {ys : List α} (hsuffix : ys <:+ xs) {a b : Nat}
    (hstart : ∀ y, ys.head? = some y → number y ≤ a + 1) (hne : ys ≠ []) :
    between number a b ys = between number a b xs := by
  obtain ⟨front, rfl⟩ := hsuffix
  obtain ⟨y, rest, rfl⟩ := List.exists_cons_of_ne_nil hne
  have hnumber : number y = front.length + 1 := by
    refine h.number_eq ?_
    rw [List.getElem?_append_right (Nat.le_refl _), Nat.sub_self]
    rfl
  have hle := hstart y rfl
  have hnone : between number a b front = [] := by
    refine List.filter_eq_nil_iff.mpr fun x hx => ?_
    obtain ⟨i, hi⟩ := List.mem_iff_getElem?.mp hx
    have hlt := (List.getElem?_eq_some_iff.mp hi).1
    have hx' : number x = i + 1 := h.number_eq (by rw [List.getElem?_append_left hlt, hi])
    simp only [decide_eq_true_eq]
    omega
  unfold between at hnone ⊢
  rw [List.filter_append, hnone, List.nil_append]

end Counted

/-- Items with larger numbers are not in the interval. -/
theorem between_append_of_lt {ys : List α} {a b : Nat} (h : ∀ y ∈ ys, b < number y) :
    between number a b (xs ++ ys) = between number a b xs := by
  have hnone : between number a b ys = [] := by
    refine List.filter_eq_nil_iff.mpr fun y hy => ?_
    have hlt := h y hy
    simp only [decide_eq_true_eq]
    omega
  unfold between at hnone ⊢
  rw [List.filter_append, hnone, List.append_nil]

/-- An interval without numbers. -/
@[simp] theorem between_self (a : Nat) (xs : List α) : between number a a xs = [] := by
  refine List.filter_eq_nil_iff.mpr fun x _ => ?_
  simp only [decide_eq_true_eq]
  omega

/-- An interval that begins earlier has more. -/
theorem mem_between_of_le {a a' b : Nat} (hle : a ≤ a') {x : α} (h : x ∈ between number a' b xs) :
    x ∈ between number a b xs := by
  unfold between at h ⊢
  rw [List.mem_filter, decide_eq_true_eq] at h ⊢
  exact ⟨h.1, Nat.lt_of_le_of_lt hle h.2.1, h.2.2⟩

/-- Nothing is left after a later item either. -/
theorem between_eq_nil_of_le {a a' b : Nat} (hle : a ≤ a') (h : between number a b xs = []) :
    between number a' b xs = [] :=
  List.eq_nil_iff_forall_not_mem.mpr fun _ hx => List.not_mem_nil (h ▸ mem_between_of_le hle hx)

end AikitRuntime.Library
