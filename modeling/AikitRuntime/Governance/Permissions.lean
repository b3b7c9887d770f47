import AikitRuntime.Governance.Decisions

/-!
# The static permission decision

A `PermissionEngine` has a mode and ordered rules: a matching deny rule decides, whatever stands
before it; else the first matching rule does; else the mode. A rule may ask that a pattern occurs
in the input, in one of its fields or in any of the texts in it. What a pattern finds is the
business of the regular expressions, so a pattern is any predicate on texts.

A `PolicySnapshot` has rules for scopes: the strictest effect among the matching rules decides, and
the default when none matches.
-/

namespace AikitRuntime.Governance

open Durability

/-! ### The engine -/

/-- `PermissionMode`. -/
inductive PermissionMode where
  | allow | deny | ask
  deriving DecidableEq

/-- `RuleEffect`. -/
inductive RuleEffect where
  | allow | deny | ask
  deriving DecidableEq

/-- `Rule`. -/
structure Rule where
  id : Option String
  effect : RuleEffect
  tool : String
  /-- `Regex::is_match`. -/
  pattern : Option (String → Bool)
  field : Option String

mutual

/-- `collect_strings`: the texts in a value. -/
def collectStrings : Value → List String
  | .string s => [s]
  | .array items => collectItems items
  | .object fields => collectFields fields
  | .null | .bool _ | .number _ => []

def collectItems : List Value → List String
  | [] => []
  | v :: rest => collectStrings v ++ collectItems rest

def collectFields : List (String × Value) → List String
  | [] => []
  | (_, v) :: rest => collectStrings v ++ collectFields rest

end

/-- `Rule::matches`. -/
def Rule.matches (rule : Rule) (tool : String) (input : Value) : Bool :=
  if rule.tool ≠ "*" ∧ rule.tool ≠ tool then false
  else
    match rule.pattern with
    | none => true
    | some pattern =>
      match rule.field with
      | some field => ((input.get field).bind Value.asStr).any pattern
      | none => (collectStrings input).any pattern

/-- `Outcome`. -/
inductive Outcome where
  | allow
  | deny (reason : String)
  | ask
  deriving DecidableEq

/-- The outcome is a denial. -/
def Outcome.Denies (outcome : Outcome) : Prop := ∃ reason, outcome = .deny reason

@[simp] theorem Outcome.denies_deny (reason : String) : (Outcome.deny reason).Denies := ⟨reason, rfl⟩

@[simp] theorem Outcome.not_denies_allow : ¬ Outcome.allow.Denies := nofun

@[simp] theorem Outcome.not_denies_ask : ¬ Outcome.ask.Denies := nofun

/-- `PermissionDecision`. -/
structure PermissionDecision where
  outcome : Outcome
  source : String
  deriving DecidableEq

/-- `PermissionEngine`. -/
structure PermissionEngine where
  mode : PermissionMode
  rules : List Rule

/-- The loop of `evaluate_detailed`, from the rule of this index on. -/
def decideByRules (tool : String) (input : Value) :
    Nat → Option PermissionDecision → List Rule → Option PermissionDecision
  | _, firstNonDeny, [] => firstNonDeny
  | index, firstNonDeny, rule :: rest =>
    if rule.matches tool input then
      let source := rule.id.getD s!"rule:{index}"
      match rule.effect with
      | .deny => some ⟨.deny s!"tool '{tool}' denied by rule", source⟩
      | .allow => decideByRules tool input (index + 1) (firstNonDeny.or (some ⟨.allow, source⟩)) rest
      | .ask => decideByRules tool input (index + 1) (firstNonDeny.or (some ⟨.ask, source⟩)) rest
    else decideByRules tool input (index + 1) firstNonDeny rest

namespace PermissionEngine

/-- What the mode decides. -/
def decideByMode (engine : PermissionEngine) (tool : String) : PermissionDecision where
  outcome := match engine.mode with
    | .allow => .allow
    | .deny => .deny s!"tool '{tool}' denied by default (deny mode)"
    | .ask => .ask
  source := "default_mode"

/-- `PermissionEngine::evaluate_detailed`. -/
def evaluateDetailed (engine : PermissionEngine) (tool : String) (input : Value) : PermissionDecision :=
  (decideByRules tool input 0 none engine.rules).getD (engine.decideByMode tool)

end PermissionEngine

/-! ### Policies -/

/-- `PolicyEffect`. -/
inductive PolicyEffect where
  | allow | ask | deny
  deriving DecidableEq

/-- `PolicyEffect::precedence`. -/
def PolicyEffect.precedence : PolicyEffect → Nat
  | .allow => 0
  | .ask => 1
  | .deny => 2

/-- `PolicyEvaluationContext`. -/
structure PolicyEvaluationContext where
  tenantId : Option String
  agentId : Option String
  runId : Option String
  tool : String
  deriving DecidableEq

/-- `PolicyScope`. -/
inductive PolicyScope where
  | global
  | tenant (tenantId : String)
  | agent (agentId : String)
  | run (runId : String)
  | tool (tool : String)
  deriving DecidableEq

namespace PolicyScope

/-- `PolicyScope::rank`. -/
def rank : PolicyScope → Nat
  | .global => 0
  | .tenant _ => 1
  | .agent _ => 2
  | .run _ => 3
  | .tool _ => 4

/-- `PolicyScope::matches`. -/
def applies (context : PolicyEvaluationContext) : PolicyScope → Bool
  | .global => true
  | .tenant tenantId => context.tenantId = some tenantId
  | .agent agentId => context.agentId = some agentId
  | .run runId => context.runId = some runId
  | .tool name => context.tool = name

end PolicyScope

/-- `ScopedPolicyRule`. -/
structure ScopedPolicyRule where
  id : String
  scope : PolicyScope
  effect : PolicyEffect
  deriving DecidableEq

/-- `PolicyDocument`. -/
structure PolicyDocument where
  defaultEffect : PolicyEffect
  rules : List ScopedPolicyRule
  deriving DecidableEq

/-- `PolicySnapshot`. -/
structure PolicySnapshot where
  policy : PolicyDocument
  hash : String
  deriving DecidableEq

/-- `ScopedPolicyDecision`. -/
structure ScopedPolicyDecision where
  effect : PolicyEffect
  decidingRuleId : Option String
  matchedRuleIds : List String
  deriving DecidableEq

/-- The later of two effects, unless the earlier one is stricter. -/
def PolicyEffect.stricter (e f : PolicyEffect) : PolicyEffect :=
  if f.precedence < e.precedence then e else f

/-- `max_by_key(precedence)`. -/
def strictest : List PolicyEffect → Option PolicyEffect
  | [] => none
  | e :: rest => some (rest.foldl PolicyEffect.stricter e)

namespace PolicySnapshot

/-- The matching rules, in the order of their scopes. A stable sort keeps their own order. -/
def matched (snapshot : PolicySnapshot) (context : PolicyEvaluationContext) : List ScopedPolicyRule :=
  (snapshot.policy.rules.filter fun rule => rule.scope.applies context).mergeSort
    fun a b => a.scope.rank ≤ b.scope.rank

/-- `PolicySnapshot::evaluate`. -/
def evaluate (snapshot : PolicySnapshot) (context : PolicyEvaluationContext) : ScopedPolicyDecision :=
  let rules := snapshot.matched context
  let effect := (strictest (rules.map (·.effect))).getD snapshot.policy.defaultEffect
  { effect
    decidingRuleId := (rules.reverse.find? fun rule => rule.effect = effect).map (·.id)
    matchedRuleIds := rules.map (·.id) }

end PolicySnapshot

end AikitRuntime.Governance
