import Mathlib.Data.List.Basic

/-!
# Lines that arrive in pieces

A stream arrives in pieces, which are never empty. A line is what stands before the first item that ends one. Where the
line is looked for with `findIdx?`, the lemmas say what is found, and that there is only one way to cut a list there.
-/

namespace AikitRuntime.Library

universe u

variable {α : Type u}

/-- What one read brings, or what is left of it. -/
abbrev Piece (α : Type u) : Type u := { items : List α // items ≠ [] }

/-- All items. -/
def joined (pieces : List (Piece α)) : List α := pieces.flatMap Subtype.val

theorem joined_cons (piece : Piece α) (pieces : List (Piece α)) :
    joined (piece :: pieces) = piece.1 ++ joined pieces := rfl

/-- Every list can be cut into pieces. -/
theorem exists_joined (items : List α) : ∃ pieces : List (Piece α), joined pieces = items := by
  by_cases h : items = []
  · exact ⟨[], h.symm⟩
  · exact ⟨[⟨items, h⟩], List.append_nil _⟩

variable [BEq α] [LawfulBEq α] {e : α}

theorem findIdx?_ended {line : List α} (rest : List α) (h : e ∉ line) :
    (line ++ e :: rest).findIdx? (· == e) = some line.length := by
  induction line with
  | nil => rw [List.nil_append, List.findIdx?_cons, BEq.rfl]; rfl
  | cons a line ih =>
    have ha : (a == e) = false := by
      rw [beq_eq_false_iff_ne]
      exact fun heq => h (heq ▸ List.mem_cons_self)
    rw [List.cons_append, List.findIdx?_cons, ha, ih fun hmem => h (List.mem_cons_of_mem _ hmem)]
    rfl

theorem findIdx?_unended {items : List α} (h : e ∉ items) : items.findIdx? (· == e) = none := by
  rw [List.findIdx?_eq_none_iff]
  intro a ha
  rw [beq_eq_false_iff_ne]
  exact fun heq => h (heq ▸ ha)

omit [BEq α] [LawfulBEq α] in
/-- Items up to the first end. -/
theorem exists_ended {items : List α} (h : e ∈ items) : ∃ line rest, items = line ++ e :: rest ∧ e ∉ line := by
  induction items with
  | nil => cases h
  | cons a items ih =>
    by_cases ha : a = e
    · exact ⟨[], items, by rw [ha]; rfl, List.not_mem_nil⟩
    · obtain ⟨line, rest, rfl, hline⟩ := ih ((List.mem_cons.mp h).resolve_left fun heq => ha heq.symm)
      refine ⟨a :: line, rest, rfl, fun hmem => ?_⟩
      rcases List.mem_cons.mp hmem with heq | hmem
      · exact ha heq.symm
      · exact hline hmem

/-- There is only one way to cut at the first end. -/
theorem ended_inj {line line' rest rest' : List α} (h : e ∉ line) (h' : e ∉ line')
    (heq : line ++ e :: rest = line' ++ e :: rest') : line = line' ∧ rest = rest' := by
  have hlength : line.length = line'.length := by
    have hfind := findIdx?_ended rest h
    rw [heq, findIdx?_ended _ h'] at hfind
    exact (Option.some.inj hfind).symm
  obtain ⟨hline, hrest⟩ := List.append_inj heq hlength
  exact ⟨hline, (List.cons.inj hrest).2⟩

end AikitRuntime.Library
