import AikitRuntime.Library.Programs
import Mathlib.Logic.Function.Basic

/-!
# Clients of one store

Several clients run programs on a store, and their calls interleave in any order. `serves s op ans s'` says
that a store in the state `s` may answer `op` with `ans` and be in `s'` then, so a store that loses answers
or fails is one too. A client starts a program at any time, also while it is running one: then it has
crashed, and started again.

The rule is that of rely and guarantee: if every program calls only what its monitor allows, and the store
keeps `I` and answers as the monitors expect wherever that is so, then `I` is an invariant of every run.
-/

namespace AikitRuntime.Library

universe u

variable {Op : Type} {Ans : Op → Type} {α σ : Type} {ι : Type} {A : Type u} [DecidableEq ι]

/-- What happens: a client starts something, or a call of a client is answered. -/
inductive ClientEvent (ι : Type) (A : Type u) (Op : Type) (Ans : Op → Type) where
  | started (client : ι) (what : A)
  | answered (client : ι) (event : Event Op Ans)

/-- What is started. -/
def ClientEvent.start : ClientEvent ι A Op Ans → Option A
  | .started _ what => some what
  | .answered _ _ => none

/-- A store, and what its clients have left to run. -/
structure Clients (σ ι Op : Type) (Ans : Op → Type) (α : Type) where
  store : σ
  running : ι → Prog Op Ans α

namespace Clients

/-- One client takes a step. -/
inductive Step (serves : σ → (op : Op) → Ans op → σ → Prop) (program : A → Prog Op Ans α) :
    Clients σ ι Op Ans α → ClientEvent ι A Op Ans → Clients σ ι Op Ans α → Prop where
  | start (system : Clients σ ι Op Ans α) (client : ι) (what : A) :
    Step serves program system (.started client what)
      { system with running := Function.update system.running client (program what) }
  | call {system : Clients σ ι Op Ans α} {client : ι} {op : Op} {next : Ans op → Prog Op Ans α} {ans : Ans op}
    {store : σ} (runs : system.running client = .call op next) (served : serves system.store op ans store) :
    Step serves program system (.answered client ⟨op, ans⟩)
      ⟨store, Function.update system.running client (next ans)⟩

variable {τ : Type} {M : Monitor Op Ans τ} {I : σ → Prop} {serves : σ → (op : Op) → Ans op → σ → Prop}
  {program : A → Prog Op Ans α} {system system' : Clients σ ι Op Ans α} {e : ClientEvent ι A Op Ans}
  {log : List (ClientEvent ι A Op Ans)}

/-- The store is as it should be, and every client goes on as it should. -/
structure Guarded (M : Monitor Op Ans τ) (I : σ → Prop) (system : Clients σ ι Op Ans α) : Prop where
  store : I system.store
  running : ∀ client, ∃ t, Holds M (fun _ _ => True) (system.running client) t

/-- The store keeps `I` while it does what the monitor allows, and answers what the monitor expects. -/
def Relies (M : Monitor Op Ans τ) (I : σ → Prop) (serves : σ → (op : Op) → Ans op → σ → Prop) : Prop :=
  ∀ t s op ans s', I s → M.allows t op → serves s op ans s' → I s' ∧ M.admits t op ans

theorem Guarded.step (h : Guarded M I system) (hrely : Relies M I serves)
    (hprogram : ∀ what, e.start = some what → ∃ t, Holds M (fun _ _ => True) (program what) t)
    (hstep : Step serves program system e system') : Guarded M I system' := by
  cases hstep with
  | start client what =>
    refine ⟨h.store, fun other => ?_⟩
    by_cases heq : other = client
    · subst heq
      dsimp only
      rw [Function.update_self]
      exact hprogram what rfl
    · dsimp only
      rw [Function.update_of_ne heq]
      exact h.running other
  | @call client op next ans store hruns hserved =>
    obtain ⟨t, hholds⟩ := h.running client
    rw [hruns] at hholds
    obtain ⟨hstore, hadmits⟩ := hrely t _ op ans store h.store hholds.1 hserved
    refine ⟨hstore, fun other => ?_⟩
    by_cases heq : other = client
    · subst heq
      dsimp only
      rw [Function.update_self]
      exact ⟨_, hholds.2 ans hadmits⟩
    · dsimp only
      rw [Function.update_of_ne heq]
      exact h.running other

/-- A client may run alone. -/
theorem alone {answer : (op : Op) → σ → Ans op × σ}
    (hserves : ∀ s op, serves s op (answer op s).1 (answer op s).2) {client : ι} {p : Prog Op Ans α}
    (hruns : system.running client = p) : ∃ log : List (ClientEvent ι A Op Ans), (∀ e ∈ log, e.start = none) ∧
      Path (Step serves program) system log ⟨(p.runOn answer system.store).2,
        Function.update system.running client (.ret (p.runOn answer system.store).1)⟩ := by
  induction p generalizing system with
  | ret a =>
    refine ⟨[], fun _ h => absurd h List.not_mem_nil, ?_⟩
    rw [Prog.runOn_ret, ← hruns, Function.update_eq_self]
    exact .nil system
  | call op next ih =>
    obtain ⟨log, hnone, hpath⟩ := @ih (answer op system.store).1
      ⟨(answer op system.store).2, Function.update system.running client (next (answer op system.store).1)⟩
      (Function.update_self ..)
    rw [Function.update_idem] at hpath
    refine ⟨.answered client ⟨op, (answer op system.store).1⟩ :: log, ?_, .cons (.call hruns (hserves ..)) hpath⟩
    rintro e (_ | ⟨_, he⟩)
    · rfl
    · exact hnone e he

/-- Clients that run nothing yet. -/
def idle (store : σ) (result : α) : Clients σ ι Op Ans α := ⟨store, fun _ => .ret result⟩

omit [DecidableEq ι] in
theorem guarded_idle {store : σ} {result : α} [Nonempty τ] (h : I store) :
    Guarded M I (idle store result : Clients σ ι Op Ans α) :=
  ⟨h, fun _ => ⟨Classical.arbitrary τ, trivial⟩⟩

/-- **Rely and guarantee.** -/
theorem Guarded.run (h : Guarded M I system) (hrely : Relies M I serves)
    (hprogram : ∀ what, (∃ e ∈ log, e.start = some what) → ∃ t, Holds M (fun _ _ => True) (program what) t)
    (hrun : Path (Step serves program) system log system') : Guarded M I system' :=
  hrun.invariant (fun _ e _ he hstep hguarded =>
    hguarded.step hrely (fun what hwhat => hprogram what ⟨e, he, hwhat⟩) hstep) h

end Clients

end AikitRuntime.Library
