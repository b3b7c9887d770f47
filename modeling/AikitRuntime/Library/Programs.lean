import AikitRuntime.Library.Paths
import Mathlib.Control.Basic

/-!
# Programs that call their environment

A `Prog` is a program that calls operations of its environment and goes on with what they
answer. Nothing is said about the environment: an operation may answer anything of its
type, so a theorem about a program holds for every environment. What has happened so far
is a trace, the list of the operations called with their answers, and `Path Prog.Step`
relates a program, a trace of it, and what is left to run after that trace.

A `Monitor` watches a trace: it keeps a state, says in each state which operations are
allowed, and which answers the environment may give. `Holds M Q p s` says that from the
state `s` the program `p` only calls what the monitor `M` allows, and ends with `Q`. It has
one rule for each way a program is put together, and `Holds.path` carries it along a trace.
`Uses C p` says which operations a program calls at all.
-/

namespace AikitRuntime.Library

/-- A program that calls operations `op`, answered by an `Ans op`. -/
inductive Prog (Op : Type) (Ans : Op → Type) (α : Type) where
  | ret (a : α)
  | call (op : Op) (next : Ans op → Prog Op Ans α)

/-- An operation, and what it answered. -/
structure Event (Op : Type) (Ans : Op → Type) where
  op : Op
  answer : Ans op

variable {Op : Type} {Ans : Op → Type} {α β ε σ : Type}

namespace Prog

/-- Run `p`, and go on with its result. -/
def bind : Prog Op Ans α → (α → Prog Op Ans β) → Prog Op Ans β
  | ret a, f => f a
  | call op next, f => call op fun ans => bind (next ans) f

instance : Monad (Prog Op Ans) where
  pure := ret
  bind := bind

/-- Call one operation. -/
def perform (op : Op) : Prog Op Ans (Ans op) := call op ret

@[simp] theorem ret_bind (a : α) (f : α → Prog Op Ans β) : (ret a >>= f) = f a := rfl

@[simp] theorem call_bind (op : Op) (next : Ans op → Prog Op Ans α) (f : α → Prog Op Ans β) :
    (call op next >>= f) = call op fun ans => next ans >>= f := rfl

theorem bind_ret (p : Prog Op Ans α) : (p >>= ret) = p := by
  induction p with
  | ret a => rfl
  | call op next ih =>
    rw [call_bind]
    exact congrArg (call op) (funext ih)

theorem bind_bind {γ : Type} (p : Prog Op Ans α) (f : α → Prog Op Ans β) (g : β → Prog Op Ans γ) :
    (p >>= f >>= g) = p >>= fun a => f a >>= g := by
  induction p with
  | ret a => rfl
  | call op next ih =>
    simp only [call_bind]
    exact congrArg (call op) (funext ih)

instance : LawfulMonad (Prog Op Ans) := LawfulMonad.mk' _ bind_ret (fun _ _ => rfl) bind_bind

/-- The program has returned. -/
def isRet : Prog Op Ans α → Bool
  | ret _ => true
  | call _ _ => false

theorem eq_ret_of_isRet {p : Prog Op Ans Unit} (h : p.isRet = true) : p = ret () := by
  cases p with
  | ret a => rfl
  | call op next => cases h

/-! ### Traces -/

/-- A call is answered. -/
inductive Step : Prog Op Ans α → Event Op Ans → Prog Op Ans α → Prop where
  | call (op : Op) (next : Ans op → Prog Op Ans α) (ans : Ans op) :
    Step (.call op next) ⟨op, ans⟩ (next ans)

/-- The run in one environment, which answers by what has happened so far, until it answers no
more. -/
def exec (env : List (Event Op Ans) → (op : Op) → Option (Ans op)) :
    Prog Op Ans α → List (Event Op Ans) → List (Event Op Ans) × Prog Op Ans α
  | ret a, tr => (tr, ret a)
  | call op next, tr =>
    match env tr op with
    | none => (tr, call op next)
    | some ans => exec env (next ans) (tr ++ [⟨op, ans⟩])

theorem exec_eq_append (env : List (Event Op Ans) → (op : Op) → Option (Ans op)) (p : Prog Op Ans α)
    (tr : List (Event Op Ans)) :
    ∃ new, (exec env p tr).1 = tr ++ new ∧ Path Step p new (exec env p tr).2 := by
  induction p generalizing tr with
  | ret a => exact ⟨[], (List.append_nil tr).symm, .nil _⟩
  | call op next ih =>
    unfold exec
    cases henv : env tr op with
    | none => exact ⟨[], (List.append_nil tr).symm, .nil _⟩
    | some ans =>
      obtain ⟨new, heq, hpath⟩ := ih ans (tr ++ [⟨op, ans⟩])
      refine ⟨⟨op, ans⟩ :: new, ?_, .cons (.call op next ans) hpath⟩
      rw [heq, List.append_assoc]
      rfl

/-- What an environment makes of a program is one of its traces. -/
theorem exec_path (env : List (Event Op Ans) → (op : Op) → Option (Ans op)) (p : Prog Op Ans α) :
    Path Step p (exec env p []).1 (exec env p []).2 := by
  obtain ⟨new, heq, hpath⟩ := exec_eq_append env p []
  rw [heq]
  exact hpath

/-! ### One environment -/

/-- The run in an environment that has a state, and answers every operation. -/
def runOn (answer : (op : Op) → σ → Ans op × σ) : Prog Op Ans α → σ → α × σ
  | ret a, s => (a, s)
  | call op next, s => runOn answer (next (answer op s).1) (answer op s).2

variable {answer : (op : Op) → σ → Ans op × σ}

@[simp] theorem runOn_ret (a : α) (s : σ) : runOn answer (ret a) s = (a, s) := rfl

@[simp] theorem runOn_pure (a : α) (s : σ) : runOn answer (Pure.pure a : Prog Op Ans α) s = (a, s) := rfl

@[simp] theorem runOn_perform (op : Op) (s : σ) : runOn answer (perform op) s = answer op s := rfl

theorem runOn_bind (p : Prog Op Ans α) (f : α → Prog Op Ans β) (s : σ) :
    runOn answer (p >>= f) s = runOn answer (f (runOn answer p s).1) (runOn answer p s).2 := by
  induction p generalizing s with
  | ret a => rfl
  | call op next ih => exact ih _ _

end Prog

/-! ### Monitors -/

/-- What watches a trace. -/
structure Monitor (Op : Type) (Ans : Op → Type) (σ : Type) where
  /-- The operations that may be called. -/
  allows : σ → Op → Prop
  /-- The answers that are considered. -/
  admits : σ → (op : Op) → Ans op → Prop
  step : σ → (op : Op) → Ans op → σ

namespace Monitor

variable (M : Monitor Op Ans σ)

/-- The state after a trace. -/
def after (s : σ) (tr : List (Event Op Ans)) : σ := tr.foldl (fun s e => M.step s e.op e.answer) s

/-- Every answer of the trace is one that is considered. -/
def Admitted : σ → List (Event Op Ans) → Prop
  | _, [] => True
  | s, e :: tr => M.admits s e.op e.answer ∧ Admitted (M.step s e.op e.answer) tr

@[simp] theorem after_nil (s : σ) : M.after s [] = s := rfl

@[simp] theorem after_cons (s : σ) (e : Event Op Ans) (tr : List (Event Op Ans)) :
    M.after s (e :: tr) = M.after (M.step s e.op e.answer) tr := rfl

theorem admitted_of_forall (h : ∀ s op ans, M.admits s op ans) (s : σ) (tr : List (Event Op Ans)) :
    M.Admitted s tr := by
  induction tr generalizing s with
  | nil => trivial
  | cons e tr ih => exact ⟨h s e.op e.answer, ih _⟩

end Monitor

instance Monitor.decideAdmitted (M : Monitor Op Ans σ) [∀ s op ans, Decidable (M.admits s op ans)] :
    (s : σ) → (tr : List (Event Op Ans)) → Decidable (M.Admitted s tr)
  | _, [] => .isTrue trivial
  | s, e :: tr =>
    have := decideAdmitted M (M.step s e.op e.answer) tr
    inferInstanceAs (Decidable (_ ∧ _))

/-- From this state, the program calls only what is allowed, and ends with `Q`. -/
def Holds (M : Monitor Op Ans σ) (Q : α → σ → Prop) : Prog Op Ans α → σ → Prop
  | .ret a, s => Q a s
  | .call op next, s => M.allows s op ∧ ∀ ans, M.admits s op ans → Holds M Q (next ans) (M.step s op ans)

namespace Holds

variable {M : Monitor Op Ans σ} {Q Q' : α → σ → Prop} {p : Prog Op Ans α} {s : σ}

theorem pure {a : α} (h : Q a s) : Holds M Q (Pure.pure a) s := h

variable {op : Op}

theorem perform {Q : Ans op → σ → Prop} (hop : M.allows s op)
    (h : ∀ ans, M.admits s op ans → Q ans (M.step s op ans)) : Holds M Q (Prog.perform op) s :=
  ⟨hop, h⟩

/-- **Consequence**. -/
theorem mono (h : Holds M Q p s) (hQ : ∀ a t, Q a t → Q' a t) : Holds M Q' p s := by
  induction p generalizing s with
  | ret a => exact hQ a s h
  | call op next ih => exact ⟨h.1, fun ans hans => ih ans (h.2 ans hans)⟩

/-- **Sequence**. -/
theorem bind {Q' : β → σ → Prop} {f : α → Prog Op Ans β} (h : Holds M Q p s)
    (hf : ∀ a t, Q a t → Holds M Q' (f a) t) : Holds M Q' (p >>= f) s := by
  induction p generalizing s with
  | ret a => exact hf a s h
  | call op next ih => exact ⟨h.1, fun ans hans => ih ans (h.2 ans hans)⟩

/-- One operation, and then the rest. -/
theorem perform_bind {Q' : β → σ → Prop} {f : Ans op → Prog Op Ans β}
    (hop : M.allows s op) (hf : ∀ ans, M.admits s op ans → Holds M Q' (f ans) (M.step s op ans)) :
    Holds M Q' (Prog.perform op >>= f) s := ⟨hop, hf⟩

variable {q : Prog Op Ans α}

/-- A case distinction. -/
theorem ite {P : Prop} [Decidable P] (hp : P → Holds M Q p s) (hq : ¬P → Holds M Q q s) :
    Holds M Q (if P then p else q) s := by
  split
  next h => exact hp h
  next h => exact hq h

/-- Both of two results. -/
theorem and (h : Holds M Q p s) (h' : Holds M Q' p s) : Holds M (fun a t => Q a t ∧ Q' a t) p s := by
  induction p generalizing s with
  | ret a => exact ⟨h, h'⟩
  | call op next ih => exact ⟨h.1, fun ans hans => ih ans (h.2 ans hans) (h'.2 ans hans)⟩

/-- **Simulation**: what holds in the eyes of one monitor holds in those of another that it follows. -/
theorem simulate {τ : Type} {M' : Monitor Op Ans τ} {R : σ → τ → Prop} {t : τ} (h : Holds M Q p s)
    (hR : R s t) (hstep : ∀ s t op, R s t → M.allows s op →
      M'.allows t op ∧ ∀ ans, M'.admits t op ans → M.admits s op ans ∧ R (M.step s op ans) (M'.step t op ans)) :
    Holds M' (fun a t => ∃ s, Q a s ∧ R s t) p t := by
  induction p generalizing s t with
  | ret a => exact ⟨s, h, hR⟩
  | call op next ih =>
    obtain ⟨hallows, hnext⟩ := hstep s t op hR h.1
    refine ⟨hallows, fun ans hans => ?_⟩
    obtain ⟨hadmits, hR'⟩ := hnext ans hans
    exact ih ans (h.2 ans hadmits) hR'

variable {tr : List (Event Op Ans)}

/-- Along a trace, what is left to run holds from the state the trace leads to. -/
theorem path (h : Holds M Q p s)
    (hpath : Path Prog.Step p tr q) (hadmitted : M.Admitted s tr) : Holds M Q q (M.after s tr) := by
  induction hpath generalizing s with
  | nil => exact h
  | cons hstep _ ih =>
    cases hstep
    exact ih (h.2 _ hadmitted.1) hadmitted.2

/-- What a trace ends with. -/
theorem result {a : α} {tr : List (Event Op Ans)} (h : Holds M Q p s)
    (hpath : Path Prog.Step p tr (.ret a)) (hadmitted : M.Admitted s tr) : Q a (M.after s tr) :=
  h.path hpath hadmitted

/-- What is called after a trace was allowed. -/
theorem allowed {next : Ans op → Prog Op Ans α}
    (h : Holds M Q p s) (hpath : Path Prog.Step p tr (.call op next)) (hadmitted : M.Admitted s tr) :
    M.allows (M.after s tr) op := (h.path hpath hadmitted).1

end Holds

/-! ### Programs with an early exit -/

/-- The program goes on with `Q`, or exits early with `E`. -/
def Passes (M : Monitor Op Ans σ) (Q : α → σ → Prop) (E : ε → σ → Prop) (x : ExceptT ε (Prog Op Ans) α)
    (s : σ) : Prop :=
  Holds M (fun r t => (∀ a, r = .ok a → Q a t) ∧ ∀ e, r = .error e → E e t) x.run s

namespace Passes

variable {M : Monitor Op Ans σ} {Q Q' : α → σ → Prop} {E : ε → σ → Prop}
  {x : ExceptT ε (Prog Op Ans) α} {s : σ}

theorem pure {a : α} (h : Q a s) : Passes M Q E (Pure.pure a : ExceptT ε (Prog Op Ans) α) s := by
  refine ⟨?_, ?_⟩
  · rintro _ ⟨⟩
    exact h
  · rintro _ ⟨⟩

theorem throw {e : ε} (h : E e s) :
    Passes M Q E (MonadExcept.throw e : ExceptT ε (Prog Op Ans) α) s := by
  refine ⟨?_, ?_⟩
  · rintro _ ⟨⟩
  · rintro _ ⟨⟩
    exact h

theorem mono (h : Passes M Q E x s) (hQ : ∀ a t, Q a t → Q' a t) : Passes M Q' E x s :=
  Holds.mono h fun _ t hr => ⟨fun a ha => hQ a t (hr.1 a ha), hr.2⟩

/-- A weaker exit. -/
theorem weaken {E' : ε → σ → Prop} (h : Passes M Q E x s) (hE : ∀ e t, E e t → E' e t) :
    Passes M Q E' x s :=
  Holds.mono h fun _ t hr => ⟨hr.1, fun e he => hE e t (hr.2 e he)⟩

/-- **Sequence**. -/
theorem bind {f : α → ExceptT ε (Prog Op Ans) β} {Q' : β → σ → Prop} (h : Passes M Q E x s)
    (hf : ∀ a t, Q a t → Passes M Q' E (f a) t) : Passes M Q' E (x >>= f) s := by
  unfold Passes
  rw [ExceptT.run_bind]
  refine Holds.bind h fun r t hr => ?_
  cases r with
  | ok a => exact hf a t (hr.1 a rfl)
  | error e =>
    refine ⟨?_, ?_⟩
    · rintro _ ⟨⟩
    · rintro _ ⟨⟩
      exact hr.2 e rfl

/-- A program inside one with an early exit. -/
theorem lift {p : Prog Op Ans α} (h : Holds M Q p s) :
    Passes M Q E (liftM p : ExceptT ε (Prog Op Ans) α) s :=
  Holds.bind h fun _ _ ha => Passes.pure ha

/-- One operation, and then the rest. -/
theorem perform_bind {op : Op} {f : Ans op → ExceptT ε (Prog Op Ans) β} {Q' : β → σ → Prop}
    (hop : M.allows s op) (hf : ∀ ans, M.admits s op ans → Passes M Q' E (f ans) (M.step s op ans)) :
    Passes M Q' E ((liftM (Prog.perform op) : ExceptT ε (Prog Op Ans) _) >>= f) s := ⟨hop, hf⟩

/-- A program that may exit early, run to its result. -/
theorem run_bind {f : Except ε α → Prog Op Ans β} {Q' : β → σ → Prop} (h : Passes M Q E x s)
    (hok : ∀ a t, Q a t → Holds M Q' (f (.ok a)) t)
    (herror : ∀ e t, E e t → Holds M Q' (f (.error e)) t) : Holds M Q' (x.run >>= f) s := by
  refine Holds.bind h fun r t hr => ?_
  cases r with
  | ok a => exact hok a t (hr.1 a rfl)
  | error e => exact herror e t (hr.2 e rfl)

end Passes

/-! ### The operations a program calls -/

/-- The program only calls operations of the class `C`. -/
def Uses (C : Op → Prop) : Prog Op Ans α → Prop
  | .ret _ => True
  | .call op next => C op ∧ ∀ ans, Uses C (next ans)

namespace Uses

variable {C C' : Op → Prop} {p : Prog Op Ans α}

variable {op : Op}

theorem perform (h : C op) : Uses C (Prog.perform op : Prog Op Ans _) :=
  ⟨h, fun _ => trivial⟩

theorem mono (h : Uses C p) (hC : ∀ op, C op → C' op) : Uses C' p := by
  induction p with
  | ret a => trivial
  | call op next ih => exact ⟨hC op h.1, fun ans => ih ans (h.2 ans)⟩

theorem bind {f : α → Prog Op Ans β} (h : Uses C p) (hf : ∀ a, Uses C (f a)) : Uses C (p >>= f) := by
  induction p with
  | ret a => exact hf a
  | call op next ih => exact ⟨h.1, fun ans => ih ans (h.2 ans)⟩

theorem ite {P : Prop} [Decidable P] {q : Prog Op Ans α} (hp : Uses C p) (hq : Uses C q) :
    Uses C (if P then p else q) := by
  split
  · exact hp
  · exact hq

theorem call {op : Op} {f : Ans op → Prog Op Ans β} (h : C op) (hf : ∀ ans, Uses C (f ans)) :
    Uses C (Prog.perform op >>= f) := ⟨h, hf⟩

variable {f : α → ExceptT ε (Prog Op Ans) β}

/-- A sequence with an early exit. -/
theorem then_run {x : ExceptT ε (Prog Op Ans) α}
    (h : Uses C x.run) (hf : ∀ a, Uses C (f a).run) : Uses C (x >>= f).run := by
  rw [ExceptT.run_bind]
  refine h.bind fun r => ?_
  cases r with
  | ok a => exact hf a
  | error e => trivial

/-- A program, and then one with an early exit. -/
theorem lift_run (h : Uses C p) (hf : ∀ a, Uses C (f a).run) :
    Uses C ((liftM p : ExceptT ε (Prog Op Ans) α) >>= f).run := by
  refine then_run ?_ hf
  exact h.bind fun _ => trivial

theorem call_run {f : Ans op → ExceptT ε (Prog Op Ans) β} (h : C op)
    (hf : ∀ ans, Uses C (f ans).run) :
    Uses C ((liftM (Prog.perform op : Prog Op Ans _) : ExceptT ε (Prog Op Ans) _) >>= f).run :=
  ⟨h, hf⟩

/-- **Frame**: what the operations of a class keep, a program that calls only these keeps. -/
theorem holds {M : Monitor Op Ans σ} {I : σ → Prop} (h : Uses C p)
    (hC : ∀ s op, I s → C op → M.allows s op ∧ ∀ ans, M.admits s op ans → I (M.step s op ans))
    {s : σ} (hs : I s) : Holds M (fun _ t => I t) p s := by
  induction p generalizing s with
  | ret a => exact hs
  | call op next ih =>
    obtain ⟨hop, hstep⟩ := hC s op hs h.1
    exact ⟨hop, fun ans hans => ih ans (h.2 ans) (hstep ans hans)⟩

end Uses

/-! ### What a program returns -/

/-- Whatever the environment answers, the program returns with `P`. -/
def Returns (P : α → Prop) : Prog Op Ans α → Prop
  | .ret a => P a
  | .call _ next => ∀ ans, Returns P (next ans)

namespace Returns

variable {P : α → Prop} {p : Prog Op Ans α}

theorem pure {a : α} (h : P a) : Returns P (Pure.pure a : Prog Op Ans α) := h

theorem mono {P' : α → Prop} (h : Returns P p) (hP : ∀ a, P a → P' a) : Returns P' p := by
  induction p with
  | ret a => exact hP a h
  | call op next ih => exact fun ans => ih ans (h ans)

theorem bind {P' : β → Prop} {f : α → Prog Op Ans β} (h : Returns P p)
    (hf : ∀ a, P a → Returns P' (f a)) : Returns P' (p >>= f) := by
  induction p with
  | ret a => exact hf a h
  | call op next ih => exact fun ans => ih ans (h ans)

theorem trivial (p : Prog Op Ans α) : Returns (fun _ => True) p := by
  induction p with
  | ret a => exact True.intro
  | call op next ih => exact ih

theorem call {op : Op} {P' : β → Prop} {f : Ans op → Prog Op Ans β} (hf : ∀ ans, Returns P' (f ans)) :
    Returns P' (Prog.perform op >>= f) := hf

end Returns

variable {P : α → Prop} {p : Prog Op Ans α}

/-- A sequence, of which it is known what the first part returns. -/
theorem Uses.bind_returns {C : Op → Prop} {f : α → Prog Op Ans β}
    (h : Uses C p) (hp : Returns P p) (hf : ∀ a, P a → Uses C (f a)) : Uses C (p >>= f) := by
  induction p with
  | ret a => exact hf a hp
  | call op next ih => exact ⟨h.1, fun ans => ih ans (h.2 ans) (hp ans)⟩

/-- What holds of a program, with what it returns in any environment. -/
theorem Holds.and_returns {M : Monitor Op Ans σ} {Q : α → σ → Prop}
    {s : σ} (h : Holds M Q p s) (hp : Returns P p) : Holds M (fun a t => Q a t ∧ P a) p s := by
  induction p generalizing s with
  | ret a => exact ⟨h, hp⟩
  | call op next ih => exact ⟨h.1, fun ans hans => ih ans (h.2 ans hans) (hp ans)⟩

end AikitRuntime.Library
