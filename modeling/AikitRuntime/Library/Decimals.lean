import Mathlib.Data.List.Lex
import Mathlib.Data.String.Basic
import Mathlib.Algebra.Ring.Nat

/-!
# Decimal texts

A number is read from its digits. A column of decimal texts is sorted as the numbers are when the shorter text counts as the lower one, and texts of
one length are compared as texts.
-/

namespace AikitRuntime.Library.Decimals

/-! ### Reading a number -/

/-- The number that digits write. -/
def decimal (digits : List Char) : Nat := digits.foldl (fun n c => 10 * n + (c.toNat - '0'.toNat)) 0

/-- `text.parse::<usize>()`. -/
def parseUsize (text : List Char) : Option Nat :=
  let digits := if text.head? = some '+' then text.tail else text
  if digits = [] ∨ digits.all Char.isDigit = false ∨ 2 ^ 64 ≤ decimal digits then none else some (decimal digits)

/-- A number without a sign is written in digits. -/
theorem parseUsize_digits {text : List Char} {n : Nat} (h : parseUsize text = some n) (hsign : text.head? ≠ some '+') :
    text ≠ [] ∧ (∀ c ∈ text, c.isDigit) ∧ n = decimal text := by
  unfold parseUsize at h
  rw [if_neg hsign] at h
  dsimp only at h
  split at h
  · cases h
  · next hvalid =>
    cases h
    simp only [not_or] at hvalid
    exact ⟨hvalid.1, by simpa using hvalid.2.1, rfl⟩

/-! ### The order of texts -/

theorem digitChar_lt : ∀ a < 10, ∀ b < 10, a < b → Nat.digitChar a < Nat.digitChar b := by decide

/-- Texts of one length that differ do so before what follows them. -/
theorem append_lt_append {s t u v : List Char} (hlength : s.length = t.length) (h : s < t) : s ++ u < t ++ v := by
  induction s generalizing t with
  | nil =>
    rw [List.length_nil, eq_comm, List.length_eq_zero_iff] at hlength
    subst hlength
    exact absurd h (List.lt_irrefl _)
  | cons c s ih =>
    cases t with
    | nil => cases hlength
    | cons d t =>
      rw [List.cons_append, List.cons_append, List.cons_lt_cons_iff]
      rcases List.cons_lt_cons_iff.mp h with hlt | ⟨rfl, hlt⟩
      · exact .inl hlt
      · exact .inr ⟨rfl, ih (Nat.succ.inj hlength) hlt⟩

theorem length_toDigits_mono {a b : Nat} (h : a ≤ b) : (Nat.toDigits 10 a).length ≤ (Nat.toDigits 10 b).length := by
  rw [Nat.length_toDigits_le_iff (by decide) Nat.length_toDigits_pos]
  exact Nat.lt_of_le_of_lt h ((Nat.length_toDigits_le_iff (by decide) Nat.length_toDigits_pos).mp (Nat.le_refl _))

/-- Numbers of as many digits are in the order of their texts. -/
theorem toDigits_lt {a b : Nat} (h : a < b) (hlength : (Nat.toDigits 10 a).length = (Nat.toDigits 10 b).length) :
    Nat.toDigits 10 a < Nat.toDigits 10 b := by
  induction b using Nat.strongRecOn generalizing a with
  | ind b ih =>
    by_cases hb : b < 10
    · rw [Nat.toDigits_of_lt_base (Nat.lt_trans h hb), Nat.toDigits_of_lt_base hb]
      exact List.cons_lt_cons_iff.mpr (.inl (digitChar_lt a (Nat.lt_trans h hb) b hb h))
    · have hten (n : Nat) (hn : 10 ≤ n) := Nat.toDigits_of_base_le (by decide : 1 < 10) hn
      have ha : 10 ≤ a := by
        by_contra hsmall
        rw [Nat.toDigits_of_lt_base (Nat.not_le.mp hsmall), hten b (Nat.not_lt.mp hb), List.length_append] at hlength
        have hpos := @Nat.length_toDigits_pos 10 (b / 10)
        simp only [List.length_singleton] at hlength
        omega
      rw [hten a ha, hten b (Nat.not_lt.mp hb), List.length_append, List.length_append, List.length_singleton,
        List.length_singleton, Nat.add_right_cancel_iff] at hlength
      rw [hten a ha, hten b (Nat.not_lt.mp hb)]
      rcases Nat.lt_or_eq_of_le (Nat.div_le_div_right (c := 10) (Nat.le_of_lt h)) with hlt | heq
      · exact append_lt_append hlength (ih (b / 10) (by omega) hlt hlength)
      · rw [heq]
        refine List.append_left_lt (List.cons_lt_cons_iff.mpr (.inl ?_))
        exact digitChar_lt _ (Nat.mod_lt _ (by decide)) _ (Nat.mod_lt _ (by decide)) (by omega)

/-- **The order of two numbers, by their texts.** -/
theorem lt_iff_repr {a b : Nat} :
    a < b ↔ a.repr.length < b.repr.length ∨ a.repr.length = b.repr.length ∧ a.repr < b.repr := by
  have hlt {a b : Nat} (h : a < b) :
      a.repr.length < b.repr.length ∨ a.repr.length = b.repr.length ∧ a.repr < b.repr := by
    rw [String.lt_iff_toList_lt, ← String.length_toList, ← String.length_toList, Nat.toList_repr, Nat.toList_repr]
    rcases Nat.lt_or_eq_of_le (length_toDigits_mono (Nat.le_of_lt h)) with hless | hsame
    · exact .inl hless
    · exact .inr ⟨hsame, toDigits_lt h hsame⟩
  refine ⟨hlt, fun h => ?_⟩
  by_contra hle
  rcases Nat.lt_or_eq_of_le (Nat.not_lt.mp hle) with hless | rfl
  · rcases hlt hless with hback | ⟨hback, htext⟩
    · omega
    · rcases h with h | ⟨-, h⟩
      · omega
      · exact absurd htext (lt_asymm h)
  · rcases h with h | ⟨-, h⟩
    · exact absurd h (Nat.lt_irrefl _)
    · exact absurd h (lt_irrefl _)

theorem repr_inj {a b : Nat} (h : a.repr = b.repr) : a = b := by
  have hirrefl {a b : Nat} (h : a.repr = b.repr) : ¬ a < b := by
    rw [lt_iff_repr, h]
    exact fun hlt => hlt.elim (Nat.lt_irrefl _) fun hlt => lt_irrefl _ hlt.2
  exact Nat.le_antisymm (Nat.not_lt.mp (hirrefl h.symm)) (Nat.not_lt.mp (hirrefl h))

end AikitRuntime.Library.Decimals
