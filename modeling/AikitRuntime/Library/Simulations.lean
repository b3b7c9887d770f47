import AikitRuntime.Library.Methods

/-!
# Two stores with the same answers

Two methods match along a relation of their receivers when they give the same answer and leave
related receivers. Stores whose methods match answer every list of calls alike. One of the stores
may make its changes in transactions: a transaction that is not committed leaves no trace.
-/

namespace AikitRuntime.Library

universe u

variable {σ τ ε α β : Type u}

/-- How a transaction ends. -/
inductive Ended (α : Type u) where
  | commit (a : α)
  | drop (a : α)

namespace Method

/-- A transaction: what it changed stays when it commits. -/
def transaction (m : Method σ ε (Ended α)) : Method σ ε α := fun s =>
  match m s with
  | .ok (.commit a) t => .ok a t
  | .ok (.drop a) _ => .ok a s
  | .error e _ => .error e s

theorem run_transaction (m : Method σ ε (Ended α)) (s : σ) :
    (transaction m).run s = match m.run s with
      | .ok (.commit a) t => .ok a t
      | .ok (.drop a) _ => .ok a s
      | .error e _ => .error e s := rfl

@[simp] theorem run_transaction_check_ok (a : β) (f : β → Method σ ε (Ended α)) (s : σ) :
    (transaction (check (.ok a) >>= f)).run s = (transaction (f a)).run s := rfl

@[simp] theorem run_transaction_check_error (e : ε) (f : β → Method σ ε (Ended α)) (s : σ) :
    (transaction (check (.error e) >>= f)).run s = .error e s := rfl

@[simp] theorem run_transaction_read (g : σ → β) (f : β → Method σ ε (Ended α)) (s : σ) :
    (transaction (read g >>= f)).run s = (transaction (f (g s))).run s := rfl

@[simp] theorem run_transaction_drop (a : α) (s : σ) :
    (transaction (Pure.pure (.drop a) : Method σ ε (Ended α))).run s = .ok a s := rfl

variable {a : α}

theorem run_transaction_of_commit {m : Method σ ε (Ended α)} {s t : σ}
    (h : m.run s = .ok (.commit a) t) : (transaction m).run s = .ok a t := by
  rw [run_transaction, h]

/-! ### Answers -/

/-- What a call returned. -/
def answer : EStateM.Result ε σ α → Except ε α
  | .ok a _ => .ok a
  | .error e _ => .error e

variable {κ : Type u}

/-- The answers to a list of calls. -/
def answers (f : κ → Method σ ε α) : σ → List κ → List (Except ε α)
  | _, [] => []
  | s, call :: calls => answer ((f call).run s) :: answers f (after ((f call).run s)) calls

/-- The receiver after a list of calls. -/
def afterCalls (f : κ → Method σ ε α) (s : σ) (calls : List κ) : σ :=
  calls.foldl (fun s call => after ((f call).run s)) s

/-- The same answer, and related receivers. -/
structure Matches (R : σ → τ → Prop) (x : EStateM.Result ε σ α) (y : EStateM.Result ε τ α) :
    Prop where
  answer : answer x = answer y
  after : R (after x) (after y)

variable {R : σ → τ → Prop} {s : σ} {t : τ}

theorem Matches.ok (h : R s t) : Matches (ε := ε) R (.ok a s) (.ok a t) := ⟨rfl, h⟩

theorem Matches.error {e : ε} (h : R s t) : Matches (α := α) R (.error e s) (.error e t) := ⟨rfl, h⟩

/-- What is done with an answer does not matter. -/
theorem Matches.map {m : Method σ ε α} {m' : Method τ ε α} (h : Matches R (m.run s) (m'.run t))
    (g : α → β) : Matches R ((g <$> m).run s) ((g <$> m').run t) := by
  obtain ⟨hanswer, hafter⟩ := h
  rw [run_map, run_map]
  cases hm : m.run s <;> cases hm' : m'.run t <;> rw [hm, hm'] at hanswer hafter <;>
    cases hanswer <;> exact ⟨rfl, hafter⟩

@[simp] theorem after_map (m : Method σ ε α) (g : α → β) (s : σ) : after ((g <$> m).run s) = after (m.run s) := by
  rw [run_map]
  cases m.run s with
  | ok a t => rfl
  | error e t => rfl

variable {ε' : Type u}

@[simp] theorem after_mapError (m : Method σ ε α) (g : ε → ε') (s : σ) :
    after ((mapError g m).run s) = after (m.run s) := by
  rw [run_mapError]
  cases m.run s with
  | ok a t => rfl
  | error e t => rfl

variable {m : Method σ ε α} {m' : Method τ ε α}

/-- What else an error says does not matter. -/
theorem Matches.mapErrors (h : Matches R (m.run s) (m'.run t))
    (g : ε → ε') : Matches R ((mapError g m).run s) ((mapError g m').run t) := by
  obtain ⟨hanswer, hafter⟩ := h
  rw [run_mapError, run_mapError]
  cases hm : m.run s <;> cases hm' : m'.run t <;> rw [hm, hm'] at hanswer hafter <;>
    cases hanswer <;> exact ⟨rfl, hafter⟩

/-- What is done with an answer does not matter, and neither does what else an error says. -/
theorem Matches.mapError_map {g : ε → ε'}
    (h : Matches R ((mapError g m).run s) ((mapError g m').run t)) (f : α → β) :
    Matches R ((mapError g (f <$> m)).run s) ((mapError g (f <$> m')).run t) := by
  obtain ⟨hanswer, hafter⟩ := h
  rw [run_mapError, run_mapError] at hanswer hafter
  rw [run_mapError, run_mapError, run_map, run_map]
  cases hm : m.run s <;> cases hm' : m'.run t <;> rw [hm, hm'] at hanswer hafter <;>
    simp only [Method.answer, Except.ok.injEq, Except.error.injEq, reduceCtorEq] at hanswer
  · subst hanswer
    exact .ok hafter
  · exact ⟨congrArg Except.error hanswer, hafter⟩

variable {f : β → Method σ ε α} {g : β → Method τ ε α} {x : Except ε β}

/-- The same check first. -/
theorem Matches.check_bind
    (h : R s t) (hf : ∀ b, x = .ok b → Matches R ((f b).run s) ((g b).run t)) :
    Matches R ((check x >>= f).run s) ((check x >>= g).run t) := by
  cases x with
  | ok b => exact hf b rfl
  | error e => exact .error h

/-- Checks that differ only in what else their errors say. -/
theorem Matches.mapError_check_bind {e : ε → ε'} {y : Except ε β} (hxy : x.mapError e = y.mapError e) (h : R s t)
    (hf : ∀ b, x = .ok b → y = .ok b → Matches R ((mapError e (f b)).run s) ((mapError e (g b)).run t)) :
    Matches R ((mapError e (check x >>= f)).run s) ((mapError e (check y >>= g)).run t) := by
  cases x with
  | ok b =>
    cases y with
    | ok c =>
      obtain rfl : b = c := Except.ok.inj hxy
      exact hf b rfl rfl
    | error error => cases hxy
  | error error =>
    cases y with
    | ok c => cases hxy
    | error other => exact ⟨congrArg Except.error (Except.error.inj hxy), h⟩

variable {P : List κ → κ → Prop}

/-- What holds of every call of a list, given the ones before it. -/
theorem forall_split_cons {call : κ} {calls : List κ} :
    (∀ pre next post, call :: calls = pre ++ next :: post → P pre next) ↔
      P [] call ∧ ∀ pre next post, calls = pre ++ next :: post → P (call :: pre) next := by
  constructor
  · refine fun h => ⟨h [] call calls rfl, fun pre next post heq => h (call :: pre) next post ?_⟩
    rw [heq, List.cons_append]
  · rintro ⟨hfirst, hrest⟩ pre next post heq
    cases pre with
    | nil =>
      cases heq
      exact hfirst
    | cons first pre =>
      rw [List.cons_append, List.cons.injEq] at heq
      obtain ⟨rfl, heq⟩ := heq
      exact hrest pre next post heq

theorem forall_split_nil :
    (∀ pre next post, ([] : List κ) = pre ++ next :: post → P pre next) ↔ True := by simp

/-- **Stores whose methods match answer alike**, as long as every call is one that they match on. -/
theorem answers_eq {f : κ → Method σ ε α} {g : κ → Method τ ε α} {P : κ → σ → Prop}
    (hstep : ∀ s t call, R s t → P call s → Matches R ((f call).run s) ((g call).run t))
    (calls : List κ) (h : R s t)
    (hcalls : ∀ pre call post, calls = pre ++ call :: post → P call (afterCalls f s pre)) :
    answers f s calls = answers g t calls := by
  induction calls generalizing s t with
  | nil => rfl
  | cons call calls ih =>
    obtain ⟨hanswer, hafter⟩ := hstep s t call h (hcalls [] call calls rfl)
    rw [answers, answers, hanswer, ih hafter]
    intro pre next post heq
    exact hcalls (call :: pre) next post (by rw [heq]; rfl)

end Method

end AikitRuntime.Library
