import AikitRuntime.Durability.Governance
import AikitRuntime.Governance.Permissions

/-!
# The order of a policy's rules

A snapshot's rules are a vector, and `evaluate` is documented not to depend on its order. The effect does not: it is
the strictest one of the matching rules. The rules that are named do: rules of one scope rank are taken in the
vector's order, and the last of them decides.
-/

namespace AikitRuntime.Governance

open Durability Library

/-! ### The strictest effect -/

theorem PolicyEffect.eq_of_precedence {e f : PolicyEffect} (h : e.precedence = f.precedence) : e = f := by
  cases e <;> cases f <;> first | rfl | cases h

theorem PolicyEffect.precedence_stricter (e f : PolicyEffect) :
    (e.stricter f).precedence = max e.precedence f.precedence := by
  cases e <;> cases f <;> rfl

theorem PolicyEffect.stricter_mem (e f : PolicyEffect) : e.stricter f = e ∨ e.stricter f = f := by
  unfold PolicyEffect.stricter
  split
  · exact .inl rfl
  · exact .inr rfl

/-- The fold of `max_by_key` ends with an effect that it met and that none of them exceeds. -/
theorem foldl_stricter (effects : List PolicyEffect) (e : PolicyEffect) :
    effects.foldl PolicyEffect.stricter e ∈ e :: effects ∧
      ∀ f ∈ e :: effects, f.precedence ≤ (effects.foldl PolicyEffect.stricter e).precedence := by
  induction effects generalizing e with
  | nil => exact ⟨List.mem_singleton_self e, fun f hf => Nat.le_of_eq (by rw [List.mem_singleton.mp hf]; rfl)⟩
  | cons g rest ih =>
    obtain ⟨hmem, hmax⟩ := ih (e.stricter g)
    have hsplit := PolicyEffect.precedence_stricter e g
    have hfirst := hmax _ List.mem_cons_self
    constructor
    · rcases List.mem_cons.mp hmem with heq | hrest
      · rw [List.foldl_cons, heq]
        rcases PolicyEffect.stricter_mem e g with h | h
        · rw [h]; exact List.mem_cons_self
        · rw [h]; exact List.mem_cons_of_mem _ List.mem_cons_self
      · exact List.mem_cons_of_mem _ (List.mem_cons_of_mem _ hrest)
    · intro f hf
      rw [List.foldl_cons]
      rcases List.mem_cons.mp hf with rfl | hf
      · omega
      · rcases List.mem_cons.mp hf with rfl | hf
        · omega
        · exact hmax f (List.mem_cons_of_mem _ hf)

theorem strictest_eq_some_iff {effects : List PolicyEffect} {e : PolicyEffect} :
    strictest effects = some e ↔ e ∈ effects ∧ ∀ f ∈ effects, f.precedence ≤ e.precedence := by
  cases effects with
  | nil => simp [strictest]
  | cons g rest =>
    obtain ⟨hmem, hmax⟩ := foldl_stricter rest g
    rw [strictest, Option.some.injEq]
    constructor
    · rintro rfl
      exact ⟨hmem, hmax⟩
    · rintro ⟨he, hle⟩
      exact PolicyEffect.eq_of_precedence (Nat.le_antisymm (hle _ hmem) (hmax _ he))

theorem strictest_eq_none_iff {effects : List PolicyEffect} : strictest effects = none ↔ effects = [] := by
  cases effects <;> simp [strictest]

/-! ### The matching rules -/

/-- The rule is one of the snapshot's, and its scope matches. -/
def PolicySnapshot.Matches (snapshot : PolicySnapshot) (context : PolicyEvaluationContext)
    (rule : ScopedPolicyRule) : Prop :=
  rule ∈ snapshot.policy.rules ∧ rule.scope.applies context = true

/-- Among the rules with a property, no two scopes have one rank. -/
def OneRanked (P : ScopedPolicyRule → Prop) : Prop :=
  ∀ a b, P a → P b → a.scope.rank = b.scope.rank → a = b

section
variable {s s' : PolicySnapshot} {context : PolicyEvaluationContext} {rule : ScopedPolicyRule} {e : PolicyEffect}

@[simp] theorem mem_matched : rule ∈ s.matched context ↔ s.Matches context rule := by
  simp [PolicySnapshot.matched, PolicySnapshot.Matches]

theorem pairwise_matched (s : PolicySnapshot) (context : PolicyEvaluationContext) :
    (s.matched context).Pairwise fun a b => a.scope.rank ≤ b.scope.rank := by
  have hsorted := @List.pairwise_mergeSort _ (fun a b : ScopedPolicyRule => decide (a.scope.rank ≤ b.scope.rank))
    (fun a b c hab hbc => by
      rw [decide_eq_true_iff] at hab hbc ⊢
      exact Nat.le_trans hab hbc)
    (fun a b => by
      rw [Bool.or_eq_true, decide_eq_true_iff, decide_eq_true_iff]
      exact Nat.le_total _ _)
    (s.policy.rules.filter fun rule => rule.scope.applies context)
  exact hsorted.imp fun h => of_decide_eq_true h

theorem matched_perm (h : s.policy.rules.Perm s'.policy.rules) : (s.matched context).Perm (s'.matched context) :=
  (List.mergeSort_perm _ _).trans ((h.filter _).trans (List.mergeSort_perm _ _).symm)

/-! ### The effect -/

/-- **The effect of a request that rules match** is the strictest of theirs. -/
theorem effect_eq_iff (h : s.Matches context rule) : (s.evaluate context).effect = e ↔
    (∃ a, s.Matches context a ∧ a.effect = e) ∧
      ∀ a, s.Matches context a → a.effect.precedence ≤ e.precedence := by
  have hsome : (strictest ((s.matched context).map (·.effect))).isSome := by
    rw [Option.isSome_iff_ne_none, ne_eq, strictest_eq_none_iff, List.map_eq_nil_iff]
    exact List.ne_nil_of_mem (mem_matched.mpr h)
  obtain ⟨f, hf⟩ := Option.isSome_iff_exists.mp hsome
  have heffect : (s.evaluate context).effect = f := by
    show (strictest _).getD _ = f
    rw [hf, Option.getD_some]
  have hiff : f = e ↔ strictest ((s.matched context).map (·.effect)) = some e := by rw [hf, Option.some.injEq]
  rw [heffect, hiff, strictest_eq_some_iff]
  simp only [List.mem_map, mem_matched, forall_exists_index, and_imp, forall_apply_eq_imp_iff₂]

/-- **The effect of a request that no rule matches** is the default. -/
theorem effect_of_not_matches (h : ∀ rule, ¬ s.Matches context rule) :
    (s.evaluate context).effect = s.policy.defaultEffect := by
  have hnil : s.matched context = [] :=
    List.eq_nil_iff_forall_not_mem.mpr fun rule hrule => h rule (mem_matched.mp hrule)
  show (strictest _).getD _ = _
  rw [hnil]
  rfl

theorem matches_congr (h : s.policy.rules.Perm s'.policy.rules) :
    s.Matches context rule ↔ s'.Matches context rule := and_congr_left' h.mem_iff

theorem effect_of_perm (hrules : s.policy.rules.Perm s'.policy.rules)
    (hdefault : s.policy.defaultEffect = s'.policy.defaultEffect) :
    (s.evaluate context).effect = (s'.evaluate context).effect := by
  by_cases h : ∃ rule, s.Matches context rule
  · obtain ⟨rule, hrule⟩ := h
    have heq := (effect_eq_iff ((matches_congr hrules).mp hrule)).mp rfl
    simp only [← matches_congr hrules] at heq
    exact (effect_eq_iff hrule).mpr heq
  · have hnone : ∀ rule, ¬ s.Matches context rule := fun rule hrule => h ⟨rule, hrule⟩
    rw [effect_of_not_matches hnone, hdefault]
    refine (effect_of_not_matches fun rule hrule => hnone rule ?_).symm
    exact (matches_congr hrules).mpr hrule

/-! ### The rule that decides -/

/-- The rule decides: it has the effect, and no other rule with that effect has a narrower scope. -/
structure Decides (s : PolicySnapshot) (context : PolicyEvaluationContext) (rule : ScopedPolicyRule) : Prop where
  applies : s.Matches context rule
  effect : rule.effect = (s.evaluate context).effect
  narrowest : ∀ other, s.Matches context other → other.effect = (s.evaluate context).effect →
    other.scope.rank ≤ rule.scope.rank

/-- **The deciding rule**, if a rule matches at all. -/
theorem decidingRuleId_cases (s : PolicySnapshot) (context : PolicyEvaluationContext) :
    (∃ rule, Decides s context rule ∧ (s.evaluate context).decidingRuleId = some rule.id) ∨
      ((∀ rule, ¬ s.Matches context rule) ∧ (s.evaluate context).decidingRuleId = none) := by
  have hid : (s.evaluate context).decidingRuleId =
    ((s.matched context).reverse.find? fun rule => rule.effect = (s.evaluate context).effect).map (·.id) := rfl
  cases hfind : (s.matched context).reverse.find? fun rule => rule.effect = (s.evaluate context).effect with
  | none =>
    refine .inr ⟨fun rule hrule => ?_, by rw [hid, hfind]; rfl⟩
    obtain ⟨⟨a, ha, heffect⟩, -⟩ := (effect_eq_iff hrule).mp rfl
    have hno := List.find?_eq_none.mp hfind a (List.mem_reverse.mpr (mem_matched.mpr ha))
    exact hno (decide_eq_true heffect)
  | some rule =>
    refine .inl ⟨rule, ?_, by rw [hid, hfind]; rfl⟩
    obtain ⟨heffect, before, after, hsplit, hbefore⟩ := List.find?_eq_some_iff_append.mp hfind
    have hmatched : s.matched context = after.reverse ++ rule :: before.reverse := by
      rw [← List.reverse_reverse (s.matched context), hsplit]
      simp
    have hsorted := pairwise_matched s context
    rw [hmatched, List.pairwise_append] at hsorted
    refine ⟨mem_matched.mp ?_, of_decide_eq_true heffect, fun other hother hsame => ?_⟩
    · rw [hmatched]
      exact List.mem_append_right _ List.mem_cons_self
    have hmem := mem_matched.mpr hother
    rw [hmatched, List.mem_append, List.mem_cons] at hmem
    rcases hmem with hafter | rfl | hlate
    · exact hsorted.2.2 other hafter rule List.mem_cons_self
    · exact Nat.le_refl _
    · have hno := hbefore other (List.mem_reverse.mp hlate)
      simp [hsame] at hno

theorem Decides.of_perm (hrules : s.policy.rules.Perm s'.policy.rules)
    (hdefault : s.policy.defaultEffect = s'.policy.defaultEffect) (h : Decides s' context rule) :
    Decides s context rule := by
  have heffect := @effect_of_perm _ _ context hrules hdefault
  exact ⟨(matches_congr hrules).mpr h.applies, h.effect.trans heffect.symm, fun other hother hsame =>
    h.narrowest other ((matches_congr hrules).mp hother) (hsame.trans heffect)⟩

/-- Rules whose scopes have different ranks are matched in one order. -/
theorem matched_eq_of_perm (hrules : s.policy.rules.Perm s'.policy.rules) (hranks : OneRanked (s.Matches context)) :
    s.matched context = s'.matched context := by
  refine (matched_perm hrules).eq_of_pairwise ?_ (pairwise_matched s context) (pairwise_matched s' context)
  intro a b ha hb hab hba
  refine hranks a b (mem_matched.mp ha) ?_ (Nat.le_antisymm hab hba)
  exact mem_matched.mp ((matched_perm hrules).mem_iff.mpr hb)

theorem decidingRuleId_of_perm (hrules : s.policy.rules.Perm s'.policy.rules)
    (hdefault : s.policy.defaultEffect = s'.policy.defaultEffect)
    (hranks : OneRanked fun a => s.Matches context a ∧ a.effect = (s.evaluate context).effect) :
    (s.evaluate context).decidingRuleId = (s'.evaluate context).decidingRuleId := by
  rcases decidingRuleId_cases s context with ⟨a, ha, hid⟩ | ⟨hnone, hid⟩
  · rcases decidingRuleId_cases s' context with ⟨b, hb, hid'⟩ | ⟨hnone', -⟩
    · have hb := hb.of_perm hrules hdefault
      have hrank : a.scope.rank = b.scope.rank :=
        Nat.le_antisymm (hb.narrowest a ha.applies ha.effect) (ha.narrowest b hb.applies hb.effect)
      rw [hid, hid', hranks a b ⟨ha.applies, ha.effect⟩ ⟨hb.applies, hb.effect⟩ hrank]
    · exact absurd ((matches_congr hrules).mp ha.applies) (hnone' a)
  · rcases decidingRuleId_cases s' context with ⟨b, hb, -⟩ | ⟨-, hid'⟩
    · exact absurd ((matches_congr hrules).mpr hb.applies) (hnone b)
    · rw [hid, hid']

/-! ### Another order, and one more rule -/

/-- What two snapshots with the same rules in two orders agree on. -/
structure Reordered (s s' : PolicySnapshot) (context : PolicyEvaluationContext) : Prop where
  effect : (s'.evaluate context).effect = (s.evaluate context).effect
  matched : (s'.evaluate context).matchedRuleIds.Perm (s.evaluate context).matchedRuleIds
  /-- The rule that decides has the effect, and no rule with that effect has a narrower scope. -/
  deciding : ∀ id, (s'.evaluate context).decidingRuleId = some id → ∃ rule, Decides s context rule ∧ rule.id = id
  sameDeciding : OneRanked (fun a => s.Matches context a ∧ a.effect = (s.evaluate context).effect) →
    (s'.evaluate context).decidingRuleId = (s.evaluate context).decidingRuleId
  same : OneRanked (s.Matches context) → s'.evaluate context = s.evaluate context

theorem reordered (hrules : s.policy.rules.Perm s'.policy.rules)
    (hdefault : s.policy.defaultEffect = s'.policy.defaultEffect) : Reordered s s' context where
  effect := (effect_of_perm hrules hdefault).symm
  matched := ((matched_perm hrules).map _).symm
  deciding id hid := by
    rcases decidingRuleId_cases s' context with ⟨rule, hrule, heq⟩ | ⟨-, heq⟩
    · exact ⟨rule, hrule.of_perm hrules hdefault, Option.some.inj (heq.symm.trans hid)⟩
    · rw [heq] at hid
      cases hid
  sameDeciding hranks := (decidingRuleId_of_perm hrules hdefault hranks).symm
  same hranks := by
    unfold PolicySnapshot.evaluate
    rw [matched_eq_of_perm hrules hranks, hdefault]

/-- **A rule more**: a request that a rule denies is denied whatever is added. -/
theorem denied_of_added (hrules : s'.policy.rules.Perm (rule :: s.policy.rules))
    (hdefault : s.policy.defaultEffect = s'.policy.defaultEffect) (hdenied : (s.evaluate context).effect = .deny)
    (h : (∃ other, s.Matches context other) ∨ rule.scope.applies context = false) :
    (s'.evaluate context).effect = .deny := by
  have hkeeps : ∀ other, s.Matches context other → s'.Matches context other := fun other hother =>
    ⟨hrules.mem_iff.mpr (List.mem_cons_of_mem _ hother.1), hother.2⟩
  by_cases hmatches : ∃ other, s.Matches context other
  · obtain ⟨other, hother⟩ := hmatches
    obtain ⟨⟨a, ha, heffect⟩, -⟩ := (effect_eq_iff hother).mp hdenied
    refine (effect_eq_iff (hkeeps other hother)).mpr ⟨⟨a, hkeeps a ha, heffect⟩, fun b _ => ?_⟩
    cases b.effect <;> decide
  · have happlies := h.resolve_left hmatches
    have hnone : ∀ other, ¬ s'.Matches context other := by
      rintro other ⟨hmem, hother⟩
      rcases List.mem_cons.mp (hrules.mem_iff.mp hmem) with rfl | hold
      · rw [happlies] at hother
        cases hother
      · exact hmatches ⟨other, hold, hother⟩
    rw [effect_of_not_matches hnone, ← hdefault, ← hdenied]
    exact (effect_of_not_matches fun other hother => hmatches ⟨other, hother⟩).symm

end

/-! ### Two rules of one rank -/

/-- The rules that `validate_policy` accepts: their ids are neither blank nor repeated. -/
def ValidRules (policy : PolicyDocument) : Prop :=
  (∀ rule ∈ policy.rules, isBlank rule.id = false) ∧ (policy.rules.map (·.id)).Nodup

def shellRule : ScopedPolicyRule := { id := "no-shell", scope := .global, effect := .deny }

def networkRule : ScopedPolicyRule := { id := "no-network", scope := .global, effect := .deny }

def readRule : ScopedPolicyRule := { id := "may-read", scope := .global, effect := .allow }

def snapshotOf (rules : List ScopedPolicyRule) : PolicySnapshot :=
  { policy := { defaultEffect := .deny, rules }, hash := "" }

def readContext : PolicyEvaluationContext := { tenantId := none, agentId := none, runId := none, tool := "read" }

/-- Global rules stay in their order. -/
theorem matched_snapshotOf {rules : List ScopedPolicyRule} (h : ∀ rule ∈ rules, rule.scope = .global) :
    (snapshotOf rules).matched readContext = rules := by
  have hfilter : rules.filter (fun rule => rule.scope.applies readContext) = rules :=
    List.filter_eq_self.mpr fun rule hrule => by rw [h rule hrule]; rfl
  have hsorted : rules.Pairwise fun a b => decide (a.scope.rank ≤ b.scope.rank) = true :=
    List.pairwise_of_forall_mem_list fun a ha b hb => by rw [h a ha, h b hb]; rfl
  show (rules.filter _).mergeSort _ = rules
  rw [hfilter, List.mergeSort_of_pairwise hsorted]

/-- **What does not change with the order of the rules**, and what no added rule changes. -/
theorem evaluate_stable (s : PolicySnapshot) (context : PolicyEvaluationContext) :
    (∀ s' : PolicySnapshot, s.policy.rules.Perm s'.policy.rules →
      s.policy.defaultEffect = s'.policy.defaultEffect → Reordered s s' context) ∧
    ∀ (rule : ScopedPolicyRule) (s' : PolicySnapshot), s'.policy.rules.Perm (rule :: s.policy.rules) →
      s.policy.defaultEffect = s'.policy.defaultEffect → (s.evaluate context).effect = .deny →
        ((∃ other, s.Matches context other) ∨ rule.scope.applies context = false) →
          (s'.evaluate context).effect = .deny :=
  ⟨fun _ hrules hdefault => reordered hrules hdefault, fun _ _ hrules hdefault => denied_of_added hrules hdefault⟩

/-- Two rules that deny, in both orders, and a rule that allows beside one that denies. -/
theorem evaluate_stable_shell :
    Reordered (snapshotOf [shellRule, networkRule]) (snapshotOf [networkRule, shellRule]) readContext ∧
      ((snapshotOf [readRule, shellRule]).evaluate readContext).effect = .deny := by
  constructor
  · exact (evaluate_stable _ _).1 _ (.swap _ _ _) rfl
  · refine (evaluate_stable (snapshotOf [shellRule]) _).2 readRule _ (.refl _) rfl ?_ (.inl ⟨shellRule, ?_⟩)
    · unfold PolicySnapshot.evaluate
      rw [matched_snapshotOf (by decide)]
      rfl
    · exact ⟨List.mem_singleton_self _, rfl⟩

/-- **Order shows, and a default is lifted.** Of two global rules that deny, the later one decides and is named; and
a request that only the default denies is allowed once a rule allows it. -/
theorem not_evaluate_stable :
    (¬ ∀ (s s' : PolicySnapshot) (context : PolicyEvaluationContext), ValidRules s.policy →
      s.policy.rules.Perm s'.policy.rules → s.policy.defaultEffect = s'.policy.defaultEffect →
        s.evaluate context = s'.evaluate context) ∧
    ¬ ∀ (s s' : PolicySnapshot) (rule : ScopedPolicyRule) (context : PolicyEvaluationContext),
      ValidRules s'.policy → s'.policy.rules = s.policy.rules ++ [rule] →
        s.policy.defaultEffect = s'.policy.defaultEffect → (s.evaluate context).effect = .deny →
          (s'.evaluate context).effect ≠ .allow := by
  constructor
  · intro h
    have hsame := h (snapshotOf [shellRule, networkRule]) (snapshotOf [networkRule, shellRule]) readContext
      ⟨by decide, by decide⟩ (.swap _ _ _) rfl
    unfold PolicySnapshot.evaluate at hsame
    rw [matched_snapshotOf (by decide), matched_snapshotOf (by decide)] at hsame
    revert hsame
    decide
  · intro h
    refine h (snapshotOf []) (snapshotOf [readRule]) readRule readContext ⟨by decide, by decide⟩ rfl rfl ?_ ?_
    · unfold PolicySnapshot.evaluate
      rw [matched_snapshotOf (by decide)]
      rfl
    · unfold PolicySnapshot.evaluate
      rw [matched_snapshotOf (by decide)]
      rfl

end AikitRuntime.Governance
