import Mathlib.Data.List.Forall2

/-!
# Checks that refuse

A check either lets a computation go on or refuses it with an error: `Except` with
a few ways to refuse. `refuseIf c e` is `if c { return Err(e) }`, `okOr o e` is
`o.ok_or(e)`, `skipIf c x` makes a check only where `c` fails, and `firstRefusal f xs`
makes one check on every item of a list, in order.

Every lemma reads a success back: a sequence of checks succeeds exactly when each
of them does, so a proof about code that returned takes the guards apart and never
looks at the errors.
-/

namespace AikitRuntime.Library

universe u v

variable {ε : Type u} {α β : Type v}

/-- `if c { return Err(e) }`. -/
def refuseIf (c : Prop) [Decidable c] (e : ε) : Except ε Unit :=
  if c then .error e else .ok ()

/-- `if !c { x?; }`. -/
def skipIf (c : Prop) [Decidable c] (x : Except ε Unit) : Except ε Unit := if c then .ok () else x

/-- `o.ok_or(e)`. -/
def okOr : Option α → ε → Except ε α
  | some a, _ => .ok a
  | none, e => .error e

/-- `for x in xs { f(x)?; }`. -/
def firstRefusal {ι : Type*} (f : ι → Except ε Unit) : List ι → Except ε Unit
  | [] => .ok ()
  | x :: xs => f x >>= fun _ => firstRefusal f xs

@[simp] theorem refuseIf_eq_ok {c : Prop} [Decidable c] {e : ε} {u : Unit} :
    refuseIf c e = .ok u ↔ ¬ c := by
  unfold refuseIf
  split <;> simp_all

@[simp] theorem refuseIf_eq_error {c : Prop} [Decidable c] {e e' : ε} :
    refuseIf c e = .error e' ↔ c ∧ e = e' := by
  unfold refuseIf
  split <;> simp_all

@[simp] theorem skipIf_eq_ok {c : Prop} [Decidable c] {x : Except ε Unit} {u : Unit} :
    skipIf c x = .ok u ↔ c ∨ x = .ok u := by
  unfold skipIf
  split <;> simp_all

@[simp] theorem okOr_eq_ok {o : Option α} {e : ε} {a : α} : okOr o e = .ok a ↔ o = some a := by
  cases o <;> simp [okOr]

@[simp] theorem okOr_some (a : α) (e : ε) : okOr (some a) e = .ok a := rfl

@[simp] theorem okOr_none (e : ε) : okOr (none : Option α) e = .error e := rfl

theorem refuseIf_of {c : Prop} [Decidable c] {e : ε} (h : c) : refuseIf c e = .error e := if_pos h

theorem refuseIf_of_not {c : Prop} [Decidable c] {e : ε} (h : ¬ c) : refuseIf c e = .ok () :=
  refuseIf_eq_ok.mpr h

/-- A sequence of checks succeeds when its first check does and the rest, on its value, does. -/
@[simp] theorem bind_eq_ok {x : Except ε α} {f : α → Except ε β} {b : β} :
    (x >>= f) = .ok b ↔ ∃ a, x = .ok a ∧ f a = .ok b := by
  cases x with
  | error e => simp [bind, Except.bind]
  | ok a => simp [bind, Except.bind]

/-- A sequence of checks is refused by its first check or by the rest. -/
theorem bind_eq_error {x : Except ε α} {f : α → Except ε β} {e : ε} :
    (x >>= f) = .error e ↔ x = .error e ∨ ∃ a, x = .ok a ∧ f a = .error e := by
  cases x with
  | error e' => simp [bind, Except.bind]
  | ok a => simp [bind, Except.bind]

/-- What a check returns says nothing. -/
@[simp] theorem exists_unit {p : Unit → Prop} : (∃ u, p u) ↔ p () :=
  ⟨fun ⟨_, h⟩ => h, fun h => ⟨(), h⟩⟩

theorem forall_unit {p : Unit → Prop} : (∀ u, p u) ↔ p () := ⟨fun h => h (), fun h _ => h⟩

@[simp] theorem ok_bind (a : α) (f : α → Except ε β) : (Except.ok a >>= f) = f a := rfl

@[simp] theorem error_bind (e : ε) (f : α → Except ε β) : (Except.error e >>= f) = .error e := rfl

/-- A success is not what an error is mapped to. -/
theorem map_eq_ok {x : Except ε α} {f : α → β} {b : β} : x.map f = .ok b ↔ ∃ a, x = .ok a ∧ f a = b := by
  cases x with
  | error e => simp [Except.map]
  | ok a => simp [Except.map]

theorem mapError_eq_ok {ε' : Type u} {x : Except ε α} {f : ε → ε'} {a : α} :
    x.mapError f = .ok a ↔ x = .ok a := by
  cases x with
  | error e => simp [Except.mapError]
  | ok b => simp [Except.mapError]

/-- A translation of every item succeeds with a translation of each. -/
theorem mapM_eq_ok {ε α β : Type} {f : α → Except ε β} : ∀ {xs : List α} {ys : List β}, xs.mapM f = .ok ys →
    List.Forall₂ (fun x y => f x = .ok y) xs ys
  | [], ys, h => by
    cases h
    exact .nil
  | x :: xs, ys, h => by
    rw [List.mapM_cons] at h
    obtain ⟨y, hy, h⟩ := bind_eq_ok.mp h
    obtain ⟨rest, hrest, h⟩ := bind_eq_ok.mp h
    cases h
    exact .cons hy (mapM_eq_ok hrest)

/-- A check of every item succeeds when it succeeds on each. -/
@[simp] theorem firstRefusal_eq_ok {ι : Type*} {f : ι → Except ε Unit} {xs : List ι} {u : Unit} :
    firstRefusal f xs = .ok u ↔ ∀ x ∈ xs, f x = .ok () := by
  induction xs with
  | nil => simp [firstRefusal]
  | cons x xs ih =>
    have hu : (∃ a : Unit, f x = .ok a ∧ firstRefusal f xs = .ok u) ↔
        f x = .ok () ∧ firstRefusal f xs = .ok u := ⟨fun ⟨_, h⟩ => h, fun h => ⟨(), h⟩⟩
    rw [firstRefusal, bind_eq_ok, hu, ih, List.forall_mem_cons]

/-- Whether a check lets something through that fits. -/
instance decidableOk {x : Except ε α} {p : α → Prop} [DecidablePred p] : Decidable (∃ a, x = .ok a ∧ p a) :=
  match x with
  | .ok a => decidable_of_iff (p a) (by simp)
  | .error _ => isFalse (by simp)

/-- Whether something is there that fits. -/
instance decidableSome {o : Option α} {p : α → Prop} [DecidablePred p] : Decidable (∃ a, o = some a ∧ p a) :=
  match o with
  | some a => decidable_of_iff (p a) (by simp)
  | none => isFalse (by simp)

end AikitRuntime.Library
