import Mathlib.Data.List.Infix

/-!
# Patterns of wildcards

A pattern is a list of symbols: a letter stands for itself, `one` for any single letter, `run` for any letters at
all, none included. A word fits a pattern as a whole. `accepts` decides it, trying every rest a run may leave.
-/

namespace AikitRuntime.Library

universe u

variable {α : Type u}

/-- A symbol of a pattern. -/
inductive Wildcard (α : Type u) where
  | letter (a : α)
  | one
  | run
  deriving DecidableEq

/-- A word fits a pattern. -/
inductive Fits : List (Wildcard α) → List α → Prop where
  | nil : Fits [] []
  | letter (a : α) {pattern : List (Wildcard α)} {word : List α} (h : Fits pattern word) :
    Fits (.letter a :: pattern) (a :: word)
  | one (a : α) {pattern : List (Wildcard α)} {word : List α} (h : Fits pattern word) :
    Fits (.one :: pattern) (a :: word)
  | run (skipped : List α) {pattern : List (Wildcard α)} {word : List α} (h : Fits pattern word) :
    Fits (.run :: pattern) (skipped ++ word)

/-- Whether a word fits a pattern. -/
def accepts [DecidableEq α] : List (Wildcard α) → List α → Bool
  | [], word => word.isEmpty
  | .letter a :: pattern, b :: word => a = b && accepts pattern word
  | .one :: pattern, _ :: word => accepts pattern word
  | .run :: pattern, word => word.tails.any (accepts pattern)
  | .letter _ :: _, [] | .one :: _, [] => false

theorem accepts_iff [DecidableEq α] : ∀ {pattern : List (Wildcard α)} {word : List α},
    accepts pattern word = true ↔ Fits pattern word
  | [], word => by
    rw [accepts, List.isEmpty_iff]
    constructor
    · rintro rfl
      exact .nil
    · rintro ⟨⟩
      rfl
  | .letter a :: pattern, [] => ⟨nofun, nofun⟩
  | .letter a :: pattern, b :: word => by
    rw [accepts, Bool.and_eq_true, decide_eq_true_eq, accepts_iff]
    constructor
    · rintro ⟨rfl, h⟩
      exact .letter a h
    · rintro ⟨⟩
      exact ⟨rfl, by assumption⟩
  | .one :: pattern, [] => ⟨nofun, nofun⟩
  | .one :: pattern, b :: word => by
    rw [accepts, accepts_iff]
    constructor
    · exact .one b
    · rintro ⟨⟩
      assumption
  | .run :: pattern, word => by
    rw [accepts, List.any_eq_true]
    constructor
    · rintro ⟨rest, hrest, h⟩
      obtain ⟨skipped, rfl⟩ := (List.mem_tails rest word).mp hrest
      exact .run skipped (accepts_iff.mp h)
    · intro h
      generalize hpattern : Wildcard.run :: pattern = full at h
      cases h with
      | nil => cases hpattern
      | letter => cases hpattern
      | one => cases hpattern
      | run skipped h =>
        obtain ⟨_, rfl⟩ := List.cons.inj hpattern
        exact ⟨_, (List.mem_tails _ _).mpr (List.suffix_append _ _), accepts_iff.mpr h⟩

instance [DecidableEq α] (pattern : List (Wildcard α)) (word : List α) : Decidable (Fits pattern word) :=
  decidable_of_iff _ accepts_iff

end AikitRuntime.Library
