import AikitRuntime.Library.Programs

/-!
# A program beside others

A program calls operations on a state that others write too. `serves s op ans s'` says that in `s` the operation `op`
may answer `ans` and leave `s'`, and `disturbs s s'` that the others may take `s` to `s'`, before and after every call
and any number of times. The rules are those of rely and guarantee: what is asserted between two calls has to be stable
under the others, and `Assures I Q p s` says that from `s` the program `p` keeps to states with `I` and ends with `Q`,
whatever the others do.
-/

namespace AikitRuntime.Library

open Relation

variable {Op : Type} {Ans : Op → Type} {α σ : Type}

/-- A program, and the state it runs on. -/
structure Beside (σ Op : Type) (Ans : Op → Type) (α : Type) where
  state : σ
  rest : Prog Op Ans α

/-- What the others keep. -/
def Stable (disturbs : σ → σ → Prop) (P : σ → Prop) : Prop := ∀ s s', P s → disturbs s s' → P s'

namespace Stable

variable {disturbs : σ → σ → Prop} {P P' : σ → Prop}

theorem and (h : Stable disturbs P) (h' : Stable disturbs P') : Stable disturbs fun s => P s ∧ P' s :=
  fun s s' hs hstep => ⟨h s s' hs.1 hstep, h' s s' hs.2 hstep⟩

/-- However often they write. -/
theorem star (h : Stable disturbs P) {s s' : σ} (hs : P s) (hstar : ReflTransGen disturbs s s') : P s' := by
  induction hstar with
  | refl => exact hs
  | tail _ hstep ih => exact h _ _ ih hstep

end Stable

namespace Beside

/-- A call is answered, or the others write. -/
inductive Step (serves : σ → (op : Op) → Ans op → σ → Prop) (disturbs : σ → σ → Prop) :
    Beside σ Op Ans α → Option (Event Op Ans) → Beside σ Op Ans α → Prop where
  | perform {s s' : σ} {op : Op} {next : Ans op → Prog Op Ans α} {ans : Ans op} (served : serves s op ans s') :
    Step serves disturbs ⟨s, .call op next⟩ (some ⟨op, ans⟩) ⟨s', next ans⟩
  | disturb {s s' : σ} {p : Prog Op Ans α} (disturbed : disturbs s s') :
    Step serves disturbs ⟨s, p⟩ none ⟨s', p⟩

variable {serves : σ → (op : Op) → Ans op → σ → Prop} {disturbs : σ → σ → Prop} {I : σ → Prop} {Q : α → σ → Prop}

/-- From `s`, the program keeps to states with `I`, and ends with `Q`. -/
def Assures (serves : σ → (op : Op) → Ans op → σ → Prop) (disturbs : σ → σ → Prop) (I : σ → Prop) (Q : α → σ → Prop) :
    Prog Op Ans α → σ → Prop
  | .ret a, s => ∀ s', ReflTransGen disturbs s s' → I s' ∧ Q a s'
  | .call op next, s => ∀ s', ReflTransGen disturbs s s' →
      I s' ∧ ∀ ans s'', serves s' op ans s'' → Assures serves disturbs I Q (next ans) s''

namespace Assures

/-- **Result**: what is stable, and enough. -/
theorem ret {P : σ → Prop} {a : α} {s : σ} (hstable : Stable disturbs P) (hs : P s)
    (h : ∀ s', P s' → I s' ∧ Q a s') : Assures serves disturbs I Q (Pure.pure a) s :=
  fun s' hstar => h s' (hstable.star hs hstar)

/-- **Call**: what is stable up to the call, and what is known of its answer. -/
theorem perform_bind {β : Type} {Q : β → σ → Prop} {P : σ → Prop} {op : Op} {f : Ans op → Prog Op Ans β} {s : σ}
    (hstable : Stable disturbs P) (hs : P s) (hI : ∀ s', P s' → I s')
    (h : ∀ s' ans s'', P s' → serves s' op ans s'' → Assures serves disturbs I Q (f ans) s'') :
    Assures serves disturbs I Q (Prog.perform op >>= f) s := by
  intro s' hstar
  have hP := hstable.star hs hstar
  exact ⟨hI s' hP, fun ans s'' hserves => h s' ans s'' hP hserves⟩

variable {b b' : Beside σ Op Ans α} {e : Option (Event Op Ans)} {log : List (Option (Event Op Ans))}

/-- **Step**. -/
theorem step (h : Assures serves disturbs I Q b.rest b.state) (hstep : Step serves disturbs b e b') :
    Assures serves disturbs I Q b'.rest b'.state := by
  cases hstep with
  | perform hserved => exact (h _ .refl).2 _ _ hserved
  | @disturb s s' p hdisturbed =>
    cases p with
    | ret a => exact fun t hstar => h t (hstar.head hdisturbed)
    | call op next => exact fun t hstar => h t (hstar.head hdisturbed)

/-- **Run**. -/
theorem path (h : Assures serves disturbs I Q b.rest b.state) (hpath : Path (Step serves disturbs) b log b') :
    Assures serves disturbs I Q b'.rest b'.state :=
  hpath.invariant (P := fun b => Assures serves disturbs I Q b.rest b.state) (fun _ _ _ _ hstep h => h.step hstep) h

/-- What holds at any time. -/
theorem always (h : Assures serves disturbs I Q b.rest b.state) (hpath : Path (Step serves disturbs) b log b') :
    I b'.state := by
  have hnow := h.path hpath
  cases hrest : b'.rest with
  | ret a =>
    rw [hrest] at hnow
    exact (hnow _ .refl).1
  | call op next =>
    rw [hrest] at hnow
    exact (hnow _ .refl).1

/-- What holds at the end. -/
theorem result {a : α} (h : Assures serves disturbs I Q b.rest b.state)
    (hpath : Path (Step serves disturbs) b log b') (hret : b'.rest = .ret a) : Q a b'.state := by
  have hnow := h.path hpath
  rw [hret] at hnow
  exact (hnow _ .refl).2

end Assures

end Beside

end AikitRuntime.Library
