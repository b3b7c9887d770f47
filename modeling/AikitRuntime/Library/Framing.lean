import Mathlib.Data.List.Basic

/-!
# Texts that say where they end

An encoder writes one value after another, with nothing that says where a value's text stops but the text
itself. `Delimited` is what makes that readable: of two texts that begin with the codes of `a` and of `b`, one
cannot be the other unless the values agree and what follows them does. What may follow is a parameter, since
a token such as a number ends only where something else begins.

Each rule builds a delimited code from delimited parts: runs of symbols of one kind, closed runs of escaped
symbols, lists between separators, and bodies behind a length of fixed width.
-/

namespace AikitRuntime.Library

universe u v

variable {α : Type u} {β : Type v}

/-- When their codes begin one text, with `after` true of what follows, `a` and `b` are related and leave the
same rest. -/
def Delimited (after : List β → Prop) (code : α → List β) (R : α → α → Prop) (a b : α) : Prop :=
  ∀ x y, after x → after y → code a ++ x = code b ++ y → R a b ∧ x = y

/-- What follows is empty, or begins with a symbol of which `p` is false. -/
def EndsRun (p : β → Prop) (rest : List β) : Prop := ∀ c ∈ rest.head?, ¬ p c

variable {p : β → Prop}

@[simp] theorem endsRun_nil : EndsRun p [] := nofun

variable {c : β}

@[simp] theorem endsRun_cons {rest : List β} : EndsRun p (c :: rest) ↔ ¬ p c := by
  simp [EndsRun]

namespace Delimited

variable {after after' : List β → Prop} {code : α → List β} {R S : α → α → Prop} {a b : α}

/-- Two codes that begin differently are never mistaken for each other. -/
theorem of_head_ne {c d : β} {s t : List β} (ha : code a = c :: s) (hb : code b = d :: t) (hcd : c ≠ d) :
    Delimited after code R a b := by
  intro x y _ _ htext
  rw [ha, hb, List.cons_append, List.cons_append] at htext
  exact absurd (List.cons.inj htext).1 hcd

/-- A run of symbols of one kind stops where another kind begins. -/
theorem of_run {p : β → Prop} (ha : ∀ c ∈ code a, p c) (hb : ∀ c ∈ code b, p c)
    (hinj : code a = code b → R a b) : Delimited (EndsRun p) code R a b := by
  suffices hsplit : ∀ s t : List β, (∀ c ∈ s, p c) → (∀ c ∈ t, p c) → ∀ x y, EndsRun p x → EndsRun p y →
      s ++ x = t ++ y → s = t ∧ x = y by
    intro x y hx hy htext
    obtain ⟨hcode, hxy⟩ := hsplit _ _ ha hb x y hx hy htext
    exact ⟨hinj hcode, hxy⟩
  intro s
  induction s with
  | nil =>
    intro t _ ht x y hx hy htext
    cases t with
    | nil => exact ⟨rfl, htext⟩
    | cons d t =>
      -- the rest `x` would begin with a symbol of the run
      rw [List.nil_append, List.cons_append] at htext
      subst htext
      exact absurd (ht d List.mem_cons_self) (endsRun_cons.mp hx)
  | cons c s ih =>
    intro t hs ht x y hx hy htext
    cases t with
    | nil =>
      rw [List.nil_append, List.cons_append] at htext
      subst htext
      exact absurd (hs c List.mem_cons_self) (endsRun_cons.mp hy)
    | cons d t =>
      obtain ⟨rfl, htail⟩ := List.cons.inj htext
      obtain ⟨rfl, hxy⟩ := ih t (fun e he => hs e (List.mem_cons_of_mem _ he))
        (fun e he => ht e (List.mem_cons_of_mem _ he)) x y hx hy htail
      exact ⟨rfl, hxy⟩

end Delimited

variable {close : β} {piece : α → List β}

/-- Codes one after another, up to a closing symbol that begins none of them. -/
theorem flatMap_close_inj
    (hpiece : ∀ a b, Delimited (fun _ => True) piece Eq a b) (hhead : ∀ a, ∃ c s, piece a = c :: s ∧ c ≠ close) :
    ∀ (l m : List α) (x y : List β), l.flatMap piece ++ close :: x = m.flatMap piece ++ close :: y → l = m ∧ x = y
  | [], [], x, y, htext => ⟨rfl, (List.cons.inj htext).2⟩
  | [], b :: m, x, y, htext => by
    obtain ⟨c, s, hb, hc⟩ := hhead b
    rw [List.flatMap_cons, hb] at htext
    exact absurd (List.cons.inj htext).1.symm hc
  | a :: l, [], x, y, htext => by
    obtain ⟨c, s, ha, hc⟩ := hhead a
    rw [List.flatMap_cons, ha] at htext
    exact absurd (List.cons.inj htext).1 hc
  | a :: l, b :: m, x, y, htext => by
    simp only [List.flatMap_cons, List.append_assoc] at htext
    obtain ⟨rfl, hrest⟩ := hpiece a b _ _ trivial trivial htext
    obtain ⟨rfl, hxy⟩ := flatMap_close_inj hpiece hhead l m x y hrest
    exact ⟨rfl, hxy⟩

variable {P : α → Prop}

/-- Codes one after another that fill a text: no code is empty. -/
theorem flatMap_inj
    (hpiece : ∀ a b, P a → P b → Delimited (fun _ => True) piece Eq a b) (hne : ∀ a, piece a ≠ []) :
    ∀ l m : List α, (∀ a ∈ l, P a) → (∀ b ∈ m, P b) → l.flatMap piece = m.flatMap piece → l = m
  | [], [], _, _, _ => rfl
  | [], b :: m, _, _, htext => by
    rw [List.flatMap_nil, List.flatMap_cons] at htext
    exact absurd (List.append_eq_nil_iff.mp htext.symm).1 (hne b)
  | a :: l, [], _, _, htext => by
    rw [List.flatMap_nil, List.flatMap_cons] at htext
    exact absurd (List.append_eq_nil_iff.mp htext).1 (hne a)
  | a :: l, b :: m, hl, hm, htext => by
    rw [List.flatMap_cons, List.flatMap_cons] at htext
    obtain ⟨rfl, hrest⟩ := hpiece a b (hl a List.mem_cons_self) (hm b List.mem_cons_self) _ _ trivial trivial htext
    rw [flatMap_inj hpiece hne l m (fun c hc => hl c (List.mem_cons_of_mem _ hc))
      (fun c hc => hm c (List.mem_cons_of_mem _ hc)) hrest]

/-- Items with a separator between two of them. -/
def separated (sep : β) : List (List β) → List β
  | [] => []
  | [item] => item
  | item :: rest => item ++ sep :: separated sep rest

theorem separated_cons_cons (sep : β) (s t : List β) (rest : List (List β)) :
    separated sep (s :: t :: rest) = s ++ sep :: separated sep (t :: rest) := rfl

theorem separated_cons (sep : β) {s t : List β} (rest : List (List β)) (hs : s = c :: t) :
    ∃ u, separated sep (s :: rest) = c :: u := by
  subst hs
  cases rest with
  | nil => exact ⟨t, rfl⟩
  | cons item rest => exact ⟨t ++ sep :: separated sep (item :: rest), rfl⟩

variable {after : List β → Prop}

/-- A list between separators, up to a closing symbol: items whose codes end at the separator and at the close,
and do not begin with the close, are told apart one by one. -/
theorem separated_close {code : α → List β} {R : α → α → Prop}
    {sep : β} (hsep : ∀ x, after (sep :: x)) (hclose : ∀ x, after (close :: x)) (hne : sep ≠ close)
    (hhead : ∀ a, P a → ∃ c s, code a = c :: s ∧ c ≠ close) :
    ∀ l m : List α, (∀ a ∈ l, P a) → (∀ b ∈ m, P b) → (∀ a ∈ l, ∀ b ∈ m, Delimited after code R a b) →
      ∀ x y : List β, separated sep (l.map code) ++ close :: x = separated sep (m.map code) ++ close :: y →
        List.Forall₂ R l m ∧ x = y
  | [], [], _, _, _, x, y, htext => ⟨.nil, (List.cons.inj htext).2⟩
  | [], b :: m, _, hm, _, x, y, htext => by
    obtain ⟨c, s, hb, hc⟩ := hhead b (hm b List.mem_cons_self)
    obtain ⟨t, ht⟩ := separated_cons sep (m.map code) hb
    rw [List.map_cons, ht] at htext
    exact absurd (List.cons.inj htext).1.symm hc
  | a :: l, [], hl, _, _, x, y, htext => by
    obtain ⟨c, s, ha, hc⟩ := hhead a (hl a List.mem_cons_self)
    obtain ⟨t, ht⟩ := separated_cons sep (l.map code) ha
    rw [List.map_cons, ht] at htext
    exact absurd (List.cons.inj htext).1 hc
  | [a], [b], _, _, h, x, y, htext => by
    obtain ⟨hab, hrest⟩ := h a List.mem_cons_self b List.mem_cons_self _ _ (hclose x) (hclose y) htext
    exact ⟨.cons hab .nil, (List.cons.inj hrest).2⟩
  | [a], b :: b' :: m, _, _, h, x, y, htext => by
    -- one list closes where the other goes on
    simp only [List.map_cons, List.map_nil, separated_cons_cons, List.append_assoc] at htext
    obtain ⟨_, hrest⟩ := h a List.mem_cons_self b List.mem_cons_self _ _ (hclose x) (hsep _) htext
    exact absurd (List.cons.inj hrest).1.symm hne
  | a :: a' :: l, [b], _, _, h, x, y, htext => by
    simp only [List.map_cons, List.map_nil, separated_cons_cons, List.append_assoc] at htext
    obtain ⟨_, hrest⟩ := h a List.mem_cons_self b List.mem_cons_self _ _ (hsep _) (hclose y) htext
    exact absurd (List.cons.inj hrest).1 hne
  | a :: a' :: l, b :: b' :: m, hl, hm, h, x, y, htext => by
    simp only [List.map_cons, separated_cons_cons, List.append_assoc] at htext
    obtain ⟨hab, hrest⟩ := h a List.mem_cons_self b List.mem_cons_self _ _ (hsep _) (hsep _) htext
    obtain ⟨hitems, hxy⟩ := separated_close hsep hclose hne hhead (a' :: l) (b' :: m)
      (fun c hc => hl c (List.mem_cons_of_mem _ hc)) (fun c hc => hm c (List.mem_cons_of_mem _ hc))
      (fun c hc d hd => h c (List.mem_cons_of_mem _ hc) d (List.mem_cons_of_mem _ hd)) x y (List.cons.inj hrest).2
    exact ⟨.cons hab hitems, hxy⟩

/-- A body behind its length, written in a fixed width, ends where the length says. -/
theorem Delimited.of_length (body : α → List β) (width : List β → List β) {a b : α}
    {n : ℕ} (hwidth : ∀ s, (width s).length = n)
    (hlength : width (body a) = width (body b) → (body a).length = (body b).length)
    (hinj : body a = body b → a = b) :
    Delimited after (fun c => width (body c) ++ body c) Eq a b := by
  intro x y _ _ htext
  dsimp only at htext
  rw [List.append_assoc, List.append_assoc] at htext
  obtain ⟨hframe, hrest⟩ := List.append_inj htext (by rw [hwidth, hwidth])
  obtain ⟨hbody, hxy⟩ := List.append_inj hrest (hlength hframe)
  exact ⟨hinj hbody, hxy⟩

end AikitRuntime.Library
