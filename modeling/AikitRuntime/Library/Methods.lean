import Mathlib.Order.Defs.Unbundled

/-!
# Methods that change their receiver and may fail

A Rust method on `&mut self` that returns a `Result` changes its receiver as it goes:
when it returns an error, what it had changed so far stays. `Method σ ε α` is that,
Lean's own `EStateM`, which returns the state with the error too. Whether a failed
call leaves the receiver as it was is therefore something to prove of each method
(`FailsClean`), not something the type gives.

* `check` runs a check that does not touch the receiver (`check()?`).
* `read` reads the receiver.
* `build` runs a method on a fresh receiver, to make one.
* `onCandidate` works on a clone and installs it only on success
  (`let mut candidate = self.clone(); …; *self = candidate`).

`Leads R m s` says that from `s` the method takes its receiver along `R`, whether it
succeeds or fails, and `FailsClean m s` that a failure leaves `s` as it was. Each has a
rule for every way a method is put together, so a proof about a method follows its text.
-/

namespace AikitRuntime.Library

universe u

variable {σ ε α β : Type u}

/-- A method on `&mut self` returning a `Result`. -/
abbrev Method (σ ε α : Type u) : Type u := EStateM ε σ α

/-- The receiver after a call. -/
def after (r : EStateM.Result ε σ α) : σ :=
  match r with
  | .ok _ s => s
  | .error _ s => s

@[simp] theorem after_ok (a : α) (s : σ) : after (.ok a s : EStateM.Result ε σ α) = s := rfl

@[simp] theorem after_error (e : ε) (s : σ) : after (.error e s : EStateM.Result ε σ α) = s := rfl

namespace Method

/-- `x?` for a check that does not touch the receiver. -/
def check (x : Except ε α) : Method σ ε α := fun s =>
  match x with
  | .ok a => .ok a s
  | .error e => .error e s

/-- Read the receiver. -/
def read (f : σ → α) : Method σ ε α := fun s => .ok (f s) s

/-- Work on a clone of the receiver, and install it on success only. -/
def onCandidate (m : Method σ ε α) : Method σ ε α := fun s =>
  match m s with
  | .ok a t => .ok a t
  | .error e _ => .error e s

/-- `m.map_err(f)`. -/
def mapError {ε' : Type u} (f : ε → ε') (m : Method σ ε α) : Method σ ε' α := fun s =>
  match m s with
  | .ok a t => .ok a t
  | .error e t => .error (f e) t

/-- `for x in xs { f(x)?; }`. -/
def each (f : β → Method σ ε PUnit) : List β → Method σ ε PUnit
  | [] => pure ⟨⟩
  | x :: xs => f x >>= fun _ => each f xs

/-- Build a value: run a method on a fresh receiver, and keep the receiver if it succeeds. -/
def build (m : Method σ ε α) (s : σ) : Except ε σ :=
  match m s with
  | .ok _ t => .ok t
  | .error e _ => .error e

variable {m : Method σ ε α} {f : α → Method σ ε β}

variable {t : σ}

theorem build_eq_ok {s : σ} : build m s = .ok t ↔ ∃ a, m.run s = .ok a t := by
  unfold build EStateM.run
  cases m s <;> simp

@[simp] theorem run_check_ok (a : α) (s : σ) :
    (check (.ok a) : Method σ ε α).run s = .ok a s := rfl

@[simp] theorem run_check_error (e : ε) (s : σ) :
    (check (.error e) : Method σ ε α).run s = .error e s := rfl

@[simp] theorem run_read (g : σ → α) (s : σ) : (read g : Method σ ε α).run s = .ok (g s) s := rfl

variable {a : α} {x : Except ε α}

theorem run_check_eq_ok {s : σ} :
    (check x : Method σ ε α).run s = .ok a t ↔ x = .ok a ∧ s = t := by
  cases x <;> simp

theorem run_bind_ok {s : σ} (h : m.run s = .ok a t) :
    (m >>= f).run s = (f a).run t := by
  rw [EStateM.run_bind, h]

theorem run_bind_error {s : σ} {e : ε} (h : m.run s = .error e t) :
    (m >>= f).run s = .error e t := by
  rw [EStateM.run_bind, h]

variable {b : β}

/-- A call that succeeded succeeded step by step. -/
theorem run_bind_eq_ok {s u : σ} :
    (m >>= f).run s = .ok b u ↔ ∃ a t, m.run s = .ok a t ∧ (f a).run t = .ok b u := by
  constructor
  · intro h
    rw [EStateM.run_bind] at h
    cases hm : m.run s with
    | ok a t =>
      rw [hm] at h
      exact ⟨a, t, rfl, h⟩
    | error e t =>
      rw [hm] at h
      cases h
  · rintro ⟨a, t, hm, hf⟩
    rw [run_bind_ok hm, hf]

@[simp] theorem run_check_bind_ok (a : α) (f : α → Method σ ε β) (s : σ) :
    (check (.ok a) >>= f : Method σ ε β).run s = (f a).run s := rfl

@[simp] theorem run_check_bind_error (e : ε) (f : α → Method σ ε β) (s : σ) :
    (check (.error e) >>= f : Method σ ε β).run s = .error e s := rfl

@[simp] theorem run_read_bind (g : σ → α) (f : α → Method σ ε β) (s : σ) :
    (read g >>= f : Method σ ε β).run s = (f (g s)).run s := rfl

@[simp] theorem run_modify_bind (g : σ → σ) (f : PUnit → Method σ ε β) (s : σ) :
    ((modify g : Method σ ε PUnit) >>= f).run s = (f ⟨⟩).run (g s) := rfl

/-- A check that passed handed its value on. -/
theorem run_check_bind_eq_ok {s : σ} :
    (check x >>= f).run s = .ok b t ↔ ∃ a, x = .ok a ∧ (f a).run s = .ok b t := by
  cases x <;> simp

theorem run_map (g : α → β) (s : σ) :
    (g <$> m).run s = match m.run s with
      | .ok a t => .ok (g a) t
      | .error e t => .error e t := by
  show EStateM.map g m s = match m s with
    | .ok a t => .ok (g a) t
    | .error e t => .error e t
  unfold EStateM.map
  cases m s <;> rfl

theorem run_map_eq_ok {g : α → β} {s : σ} :
    (g <$> m).run s = .ok b t ↔ ∃ a, m.run s = .ok a t ∧ g a = b := by
  rw [run_map]
  cases m.run s with
  | ok a u =>
    simp only [EStateM.Result.ok.injEq]
    constructor
    · rintro ⟨rfl, rfl⟩
      exact ⟨a, ⟨rfl, rfl⟩, rfl⟩
    · rintro ⟨_, ⟨rfl, rfl⟩, rfl⟩
      exact ⟨rfl, rfl⟩
  | error e u => simp

theorem run_map_eq_error {g : α → β} {s : σ} {e : ε} :
    (g <$> m).run s = .error e t ↔ m.run s = .error e t := by
  rw [run_map]
  cases m.run s <;> simp

theorem run_mapError {ε' : Type u} (g : ε → ε') (m : Method σ ε α) (s : σ) :
    (mapError g m).run s = match m.run s with
      | .ok a t => .ok a t
      | .error e t => .error (g e) t := rfl

theorem run_onCandidate (m : Method σ ε α) (s : σ) :
    (onCandidate m).run s = match m.run s with
      | .ok a t => .ok a t
      | .error e _ => .error e s := rfl

theorem run_onCandidate_eq_ok {s : σ} :
    (onCandidate m).run s = .ok a t ↔ m.run s = .ok a t := by
  rw [run_onCandidate]
  cases m.run s <;> simp

theorem run_each_append_eq_ok {g : β → Method σ ε PUnit} {xs ys : List β} {s u : σ} {x : PUnit} :
    (each g (xs ++ ys)).run s = .ok x u ↔
      ∃ t, (each g xs).run s = .ok x t ∧ (each g ys).run t = .ok x u := by
  induction xs generalizing s with
  | nil => exact ⟨fun h => ⟨s, rfl, h⟩, fun ⟨t, ht, h⟩ => by cases ht; exact h⟩
  | cons y xs ih =>
    simp only [List.cons_append, each, run_bind_eq_ok, ih]
    constructor
    · rintro ⟨a, v, hy, t, hxs, hys⟩
      exact ⟨t, ⟨a, v, hy, hxs⟩, hys⟩
    · rintro ⟨t, ⟨a, v, hy, hxs⟩, hys⟩
      exact ⟨a, v, hy, t, hxs, hys⟩

theorem run_each_singleton {g : β → Method σ ε PUnit} {y : β} {s : σ} :
    (each g [y]).run s = (g y).run s := by
  show (g y >>= fun _ => Pure.pure PUnit.unit).run s = _
  rw [EStateM.run_bind]
  cases (g y).run s <;> rfl

/-- Whether a call succeeds with something that fits. -/
instance decidableRunOk {r : EStateM.Result ε σ α} {p : α → σ → Prop} [∀ a s, Decidable (p a s)] :
    Decidable (∃ a s, r = .ok a s ∧ p a s) :=
  match r with
  | .ok a s => decidable_of_iff (p a s) ⟨fun h => ⟨a, s, rfl, h⟩, by rintro ⟨_, _, ⟨⟩, h⟩; exact h⟩
  | .error _ _ => isFalse (by simp)

/-- Whether a call fails with something that fits. -/
instance decidableRunError {r : EStateM.Result ε σ α} {p : ε → σ → Prop} [∀ e s, Decidable (p e s)] :
    Decidable (∃ e s, r = .error e s ∧ p e s) :=
  match r with
  | .ok _ _ => isFalse (by simp)
  | .error e s => decidable_of_iff (p e s) ⟨fun h => ⟨e, s, rfl, h⟩, by rintro ⟨_, _, ⟨⟩, h⟩; exact h⟩

/-! ### Where a method can lead -/

variable {R : σ → σ → Prop} {s : σ}

/-- From this receiver, the method leads along `R`, however it ends. -/
def Leads (R : σ → σ → Prop) (m : Method σ ε α) (s : σ) : Prop := R s (after (m.run s))

section
variable [Std.Refl R]

theorem Leads.pure (a : α) : Leads R (pure a : Method σ ε α) s := refl_of R s

theorem Leads.throw (e : ε) : Leads R (throw e : Method σ ε α) s := refl_of R s

theorem Leads.check (x : Except ε α) : Leads R (check x : Method σ ε α) s := by
  cases x <;> exact refl_of R s

theorem Leads.check_bind {x : Except ε α} (hf : ∀ a, x = .ok a → Leads R (f a) s) :
    Leads R (Method.check x >>= f) s := by
  cases x with
  | ok a => exact hf a rfl
  | error e => exact refl_of R s

theorem Leads.onCandidate (hm : Leads R m s) : Leads R (onCandidate m) s := by
  unfold Leads at hm ⊢
  rw [run_onCandidate]
  cases hs : m.run s with
  | ok a t =>
    rw [hs] at hm
    exact hm
  | error e t => exact refl_of R s

end

variable {g : σ → α}

theorem Leads.read_bind (hf : Leads R (f (g s)) s) :
    Leads R (Method.read g >>= f) s := hf

theorem Leads.bind [IsTrans σ R] (hm : Leads R m s)
    (hf : ∀ a t, m.run s = .ok a t → Leads R (f a) t) : Leads R (m >>= f) s := by
  unfold Leads at hm ⊢
  cases hs : m.run s with
  | ok a t =>
    rw [hs] at hm
    rw [run_bind_ok hs]
    exact trans_of R hm (hf a t hs)
  | error e t =>
    rw [hs] at hm
    rw [run_bind_error hs]
    exact hm

theorem Leads.each [Std.Refl R] [IsTrans σ R] {g : β → Method σ ε PUnit}
    (hg : ∀ x s, Leads R (g x) s) (xs : List β) (s : σ) : Leads R (each g xs) s := by
  induction xs generalizing s with
  | nil => exact Leads.pure _
  | cons x xs ih => exact Leads.bind (hg x s) fun _ t _ => ih t

/-! ### Methods that fail without a trace -/

/-- From this receiver, a failure leaves the receiver as it was. -/
def FailsClean (m : Method σ ε α) (s : σ) : Prop := ∀ e t, m.run s = .error e t → t = s

theorem FailsClean.pure (a : α) : FailsClean (pure a : Method σ ε α) s := by
  intro e t h
  cases h

theorem FailsClean.throw (e : ε) : FailsClean (throw e : Method σ ε α) s := by
  intro e' t h
  cases h
  rfl

theorem FailsClean.check (x : Except ε α) : FailsClean (check x : Method σ ε α) s := by
  intro e t h
  cases x <;> cases h
  rfl

theorem FailsClean.onCandidate (m : Method σ ε α) : FailsClean (onCandidate m) s := by
  intro e t h
  rw [run_onCandidate] at h
  cases hs : m.run s <;> rw [hs] at h <;> cases h
  rfl

theorem failsClean_check_bind_iff :
    FailsClean (check x >>= f) s ↔ ∀ a, x = .ok a → FailsClean (f a) s := by
  cases x with
  | ok a => simp [FailsClean]
  | error e => simp [FailsClean, eq_comm]

theorem failsClean_read_bind_iff :
    FailsClean (read g >>= f) s ↔ FailsClean (f (g s)) s := Iff.rfl

theorem FailsClean.check_bind (hf : ∀ a, x = .ok a → FailsClean (f a) s) :
    FailsClean (Method.check x >>= f) s := failsClean_check_bind_iff.mpr hf

theorem FailsClean.read_bind (hf : FailsClean (f (g s)) s) :
    FailsClean (Method.read g >>= f) s := hf

/-- A method that ends with a change of the receiver. -/
theorem FailsClean.modify (g : σ → σ) (a : α) :
    FailsClean (do modify g; Pure.pure a : Method σ ε α) s := by
  intro e t h
  cases h

/-- A method whose rest cannot fail once it has changed the receiver. -/
theorem FailsClean.bind (hm : FailsClean m s)
    (hf : ∀ a t, m.run s = .ok a t → ∀ e u, (f a).run t = .error e u → u = s) :
    FailsClean (m >>= f) s := by
  intro e u h
  cases hs : m.run s with
  | ok a t =>
    rw [run_bind_ok hs] at h
    exact hf a t hs e u h
  | error e' t =>
    rw [run_bind_error hs] at h
    cases h
    exact hm _ _ hs

end Method

end AikitRuntime.Library
