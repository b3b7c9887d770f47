import AikitRuntime.Library.Programs
import AikitRuntime.Durability.Records
import AikitRuntime.Governance.Permissions

/-!
# Authorizing a tool call

`authorize_detailed_with_context` decides whether a tool call runs, and with which input. The
enforcing hooks see the input first and may block it or rewrite it; the static permission decision
is taken on what they leave. Where it says to ask, a grant that an approver gave before may stand
for the answer, or else the approver is asked: it may allow another input, which the hooks then see
again, and the static decision is taken once more before anything is granted.

Hooks, approvers, the shared registry of bindings and the shared cache of grants are asked for what
they have (`Query`), since other calls may change what is shared between two of these questions. A
lock that is poisoned answers nothing. A hook that times out answers nothing either.
-/

namespace AikitRuntime.Governance

open Library Durability

/-! ### Grants -/

/-- `ApprovedPermission`. -/
structure ApprovedPermission where
  runId : String
  tool : String
  scope : PermissionUpdate
  input : Option Value
  source : String
  deriving DecidableEq

/-- The grant stands for an answer of the approver. -/
def ApprovedPermission.covers (grant : ApprovedPermission) (runId tool : String) (input : Value) : Bool :=
  grant.runId = runId && grant.tool = tool &&
    match grant.scope with
    | .allowTool => true
    | .allowExactInput => grant.input = some input

/-- Two grants of the same, whatever their sources. -/
def ApprovedPermission.same (a b : ApprovedPermission) : Bool :=
  a.runId = b.runId && a.tool = b.tool && a.scope = b.scope && a.input = b.input

/-- `ApprovedPermissionSet`. -/
structure ApprovedPermissionSet where
  grants : List ApprovedPermission

namespace ApprovedPermissionSet

/-- `ApprovedPermissionSet::matching_source`: the latest grant that stands for the answer. -/
def matchingSource (approved : ApprovedPermissionSet) (runId tool : String) (input : Value) :
    Option String :=
  (approved.grants.reverse.find? fun grant => grant.covers runId tool input).map (·.source)

/-- `ApprovedPermissionSet::insert`. -/
def insert (approved : ApprovedPermissionSet) (grant : ApprovedPermission) : ApprovedPermissionSet :=
  if approved.grants.any fun existing => existing.same grant then approved
  else ⟨approved.grants ++ [grant]⟩

/-- `approved.grants.retain(|grant| grant.run_id != run_id)`. -/
def forget (approved : ApprovedPermissionSet) (runId : String) : ApprovedPermissionSet :=
  ⟨approved.grants.filter fun grant => grant.runId ≠ runId⟩

variable {approved : ApprovedPermissionSet}

theorem matchingSource_eq_some {runId tool source : String}
    {input : Value} (h : approved.matchingSource runId tool input = some source) :
    ∃ grant ∈ approved.grants, grant.covers runId tool input = true ∧ grant.source = source := by
  obtain ⟨grant, hfind, hsource⟩ := Option.map_eq_some_iff.mp h
  have hcovers : grant.covers runId tool input = true := by simpa using List.find?_some hfind
  exact ⟨grant, List.mem_reverse.mp (List.mem_of_find?_eq_some hfind), hcovers, hsource⟩

variable {a : ApprovedPermission}

theorem mem_insert {b : ApprovedPermission}
    (h : a ∈ (approved.insert b).grants) : a ∈ approved.grants ∨ a = b := by
  unfold insert at h
  split at h
  · exact .inl h
  · simpa using h

theorem mem_foldl_insert {grants : List ApprovedPermission} (h : a ∈ (grants.foldl insert approved).grants) :
    a ∈ approved.grants ∨ a ∈ grants := by
  induction grants generalizing approved with
  | nil => exact .inl h
  | cons b rest ih =>
    rcases ih h with h | h
    · refine (mem_insert h).imp id ?_
      rintro rfl
      exact List.mem_cons_self
    · exact .inr (List.mem_cons_of_mem _ h)

theorem mem_forget {runId : String} :
    a ∈ (approved.forget runId).grants ↔ a ∈ approved.grants ∧ a.runId ≠ runId := by
  simp [forget]

end ApprovedPermissionSet

/-- `HookMatcher`. -/
structure HookMatcher where
  tool : String
  deriving DecidableEq

/-- `HookMatcher::matches`. -/
def HookMatcher.applies (matcher : HookMatcher) (tool : String) : Bool :=
  matcher.tool = "*" || matcher.tool = tool

end AikitRuntime.Governance

namespace AikitRuntime

open Durability Governance

/-! ### The configuration -/

/-- `Governance`. What it shares with others, and what it calls, goes by number: the approver, the
cache of grants, the durable run and the registry of bindings. -/
structure Governance where
  permissions : PermissionEngine
  /-- The hooks before a tool is used. -/
  hooks : List HookMatcher
  approver : Option Nat
  approvedPermissions : Nat
  policySnapshot : Option PolicySnapshot
  tenantId : Option String
  agentId : Option String
  durableBinding : Option GovernanceBinding
  durableRun : Option Nat
  durableBindings : Nat
  bindingViolation : Option String

end AikitRuntime

namespace AikitRuntime.Governance

open Library Durability

/-- `DurableApproverError`, as far as bindings raise it. -/
inductive DurableApproverError where
  | missingGovernanceBinding
  | bindingMismatch (text : String)
  | bindingRegistryFull (capacity : Nat)
  | runNotTerminal (runId : String) (status : DurableRunStatus)
  deriving DecidableEq

/-- `MAX_REGISTERED_DURABLE_BINDINGS`. -/
def maxRegisteredDurableBindings : Nat := 4096

/-- `register_durable_binding`, on the registry. -/
def registerDurableBinding (binding : GovernanceBinding) (bindings : BTreeMap GovernanceBinding) :
    Except DurableApproverError (BTreeMap GovernanceBinding) :=
  match bindings[binding.runId]? with
  | some existing =>
    if existing ≠ binding then
      .error (.bindingMismatch s!"run `{binding.runId}` is already bound to {existing.bindingHash}")
    else .ok bindings
  | none =>
    if maxRegisteredDurableBindings ≤ bindings.size then
      .error (.bindingRegistryFull maxRegisteredDurableBindings)
    else .ok (bindings.insert binding.runId binding)

/-- The registry without the binding of a retired run. -/
def releaseBinding (run : RunState) (binding : GovernanceBinding)
    (bindings : BTreeMap GovernanceBinding) :
    Except DurableApproverError (BTreeMap GovernanceBinding) :=
  match bindings[run.runId]? with
  | some registered =>
    if registered ≠ binding then
      .error (.bindingMismatch
        s!"terminal run `{run.runId}` does not match registered binding {registered.bindingHash}")
    else .ok (bindings.erase run.runId)
  | none => .ok bindings

/-- The questions an authorization asks of what it shares and calls. -/
inductive Query where
  /-- The registered binding of a run. -/
  | registered (registry : Nat) (runId : String)
  /-- The attached durable run. -/
  | durableRun (run : Nat)
  | preToolUse (hook : Nat) (ctx : PreToolUseContext)
  | matchingSource (cache : Nat) (runId tool : String) (input : Value)
  | approve (approver : Nat) (request : ApprovalRequest)
  /-- To insert grants. -/
  | install (cache : Nat) (grants : List ApprovedPermission)
  deriving DecidableEq

/-- What is answered. `none` is a poisoned lock, or a hook that timed out. -/
def Query.Answer : Query → Type
  | .registered _ _ => Option (Option GovernanceBinding)
  | .durableRun _ => Option RunState
  | .preToolUse _ _ => Option HookOutcome
  | .matchingSource _ _ _ _ => Option (Option String)
  | .approve _ _ => ApprovalDecision
  | .install _ _ => Option Unit

/-- A program that asks. -/
abbrev Asking (α : Type) : Type := Prog Query Query.Answer α

/-! ### The binding -/

section

variable (g : Governance)

/-- The static permission decision: the engine's, and the policy's over it. -/
def evaluatePermission (runId tool : String) (input : Value) : PermissionDecision :=
  let legacy := g.permissions.evaluateDetailed tool input
  match g.policySnapshot with
  | none => legacy
  | some snapshot =>
    let policy := snapshot.evaluate ⟨g.tenantId, g.agentId, some runId, tool⟩
    let policySource := policy.decidingRuleId.getD "policy.default"
    let both := s!"{legacy.source}+policy_snapshot:{snapshot.hash}:{policySource}"
    match legacy.outcome, policy.effect with
    | .deny _, _ => legacy
    | _, .deny =>
      ⟨.deny s!"denied by sealed policy `{policySource}`",
        s!"policy_snapshot:{snapshot.hash}:{policySource}"⟩
    | .ask, _ | _, .ask => ⟨.ask, both⟩
    | .allow, .allow => ⟨.allow, both⟩

/-- The binding that an authorization has to match, if there is one. -/
def bindingFor (registered : Option GovernanceBinding) : Except String (Option GovernanceBinding) :=
  match g.durableBinding, registered with
  | some attached, some registered =>
    if attached ≠ registered then .error "attached and registered durable bindings disagree"
    else .ok (some attached)
  | some _, none => .error "attached durable governance binding is not registered or was retired"
  | none, registered => .ok registered

variable [Digest]

/-- The binding is the one sealed for this run. -/
def checkIdentity (runId : String) (binding : GovernanceBinding) : Except String Unit :=
  match g.policySnapshot with
  | none => .error "durable governance policy snapshot is missing"
  | some snapshot =>
    match GovernanceBinding.seal snapshot.hash g.tenantId g.agentId runId with
    | .error error => .error s!"invalid durable governance identity: {error.text}"
    | .ok expected =>
      refuseIf (expected ≠ binding)
        "authorization context does not match durable governance binding"

/-- The attached run still has the binding. -/
def checkDurableRun (runId : String) (binding : GovernanceBinding) : Asking (Except String Unit) :=
  match g.durableRun with
  | none => pure (.ok ())
  | some run => do
    let answer : Option RunState ← Prog.perform (Query.durableRun run)
    match answer with
    | none => pure (.error "durable governance run state is unavailable")
    | some run =>
      pure (refuseIf (run.governanceBinding ≠ some binding ∨ run.runId ≠ runId)
        "durable run governance binding changed after attachment")

/-- `validate_authorization_binding`, from the registered binding on. -/
def checkBinding (runId : String) (registered : Option GovernanceBinding) :
    Asking (Except String Unit) :=
  match g.bindingFor registered with
  | .error reason => pure (.error reason)
  | .ok none => pure (.ok ())
  | .ok (some binding) =>
    match g.checkIdentity runId binding with
    | .error reason => pure (.error reason)
    | .ok () => g.checkDurableRun runId binding

/-- `validate_authorization_binding`. -/
def validateAuthorizationBinding (runId : String) : Asking (Except String Unit) :=
  match g.bindingViolation with
  | some reason => pure (.error reason)
  | none => do
    let answer : Option (Option GovernanceBinding) ← Prog.perform (Query.registered g.durableBindings runId)
    match answer with
    | none => pure (.error "durable governance binding registry is unavailable")
    | some registered => g.checkBinding runId registered

end

/-! ### The hooks -/

/-- The loop of `run_pre_tool_use`, from the hook of this number on. -/
def runHooks : Nat → List HookMatcher → PreToolUseContext → Bool → Asking HookOutcome
  | _, [], ctx, rewritten => pure (if rewritten then .rewrite ctx.input else .continue)
  | hook, matcher :: rest, ctx, rewritten =>
    if matcher.applies ctx.tool then do
      let answer : Option HookOutcome ← Prog.perform (Query.preToolUse hook ctx)
      match answer with
      | none => pure (.block "PreToolUse hook timed out")
      | some (.block reason) => pure (.block reason)
      | some (.rewrite input) => runHooks (hook + 1) rest { ctx with input } true
      | some .continue => runHooks (hook + 1) rest ctx rewritten
    else runHooks (hook + 1) rest ctx rewritten

/-- What the hooks see of a call. -/
def AuthorizationContext.hookContext (ctx : AuthorizationContext) (input : Value) :
    PreToolUseContext where
  runId := ctx.runId
  turn := ctx.turn
  toolUseId := ctx.toolUseId
  tool := ctx.tool
  input

/-- What the approver sees of a call. -/
def AuthorizationContext.approvalRequest (ctx : AuthorizationContext) (input : Value) :
    ApprovalRequest where
  runId := ctx.runId
  turn := ctx.turn
  toolUseId := ctx.toolUseId
  tool := ctx.tool
  input

/-- `run_pre_tool_use`. -/
def runPreToolUse (g : Governance) (ctx : PreToolUseContext) : Asking HookOutcome :=
  runHooks 0 g.hooks ctx false

/-! ### The decision -/

/-- A normal denial. -/
def Authorization.refused (message : String) : Authorization := .denied message false

section

variable (g : Governance) (ctx : AuthorizationContext)

/-- The grants that an approval makes, for the input that was approved. -/
def grantsFor (permissionSource : String) (approved : Value) (updates : List PermissionUpdate) :
    List ApprovedPermission :=
  updates.map fun update =>
    { runId := ctx.runId
      tool := ctx.tool
      scope := update
      input := if update = .allowExactInput then some approved else none
      source := s!"human_approval:{permissionSource}:{ctx.toolUseId}:{update.asStr}" }

/-- The cache of grants cannot be locked. -/
def approvalStateError (preHookOutcome : String) : AuthorizationReport where
  authorization := .denied "approved permission state is unavailable" true
  interrupt := true
  preHookOutcome
  permissionOutcome := "approval_state_error"
  permissionSource := "human_approval_state:poisoned"

/-- An approval that went through. -/
def askAllowed (permissionSource : String) (approved : Value) (finalPreHookOutcome : String)
    (updates : List PermissionUpdate) : AuthorizationReport where
  authorization := .allowed approved
  interrupt := false
  preHookOutcome := finalPreHookOutcome
  permissionOutcome := "ask_allowed"
  permissionSource :=
    if updates.isEmpty then s!"human_approval:{permissionSource}"
    else
      let granted := ",".intercalate (updates.map (·.asStr))
      s!"human_approval:{permissionSource};updates={granted}"

/-- The end of an approval: the static decision once more, and then the grants. -/
def grantApproval (permissionSource : String) (approved : Value)
    (preHookOutcome finalPreHookOutcome : String) (updates : List PermissionUpdate) :
    Asking AuthorizationReport :=
  let recheck := g.evaluatePermission ctx.runId ctx.tool approved
  match recheck.outcome with
  | .deny reason =>
    pure
      { authorization := .refused reason
        interrupt := false
        preHookOutcome
        permissionOutcome := "ask_allow_rejected"
        permissionSource := s!"static_recheck:{recheck.source}" }
  | .allow | .ask =>
    if updates.isEmpty then pure (askAllowed permissionSource approved finalPreHookOutcome updates)
    else do
      let answer : Option Unit ← Prog.perform (Query.install g.approvedPermissions
        (grantsFor ctx permissionSource approved updates))
      match answer with
      | none => pure (approvalStateError preHookOutcome)
      | some () => pure (askAllowed permissionSource approved finalPreHookOutcome updates)

/-- What comes of an approval: another input is shown to the hooks again. -/
def applyApproval (permissionSource : String) (effective : Value) (preHookOutcome : String)
    (updatedInput : Option Value) (updates : List PermissionUpdate) : Asking AuthorizationReport :=
  match updatedInput with
  | none => g.grantApproval ctx permissionSource effective preHookOutcome preHookOutcome updates
  | some updated => do
    match ← g.runPreToolUse (ctx.hookContext updated) with
    | .block reason =>
      pure
        { authorization := .refused s!"approval-updated input blocked by hook: {reason}"
          interrupt := false
          preHookOutcome := "approval_recheck_block"
          permissionOutcome := "ask_allow_rejected"
          permissionSource := "post_approval_pre_tool_hook" }
    | .rewrite final =>
      g.grantApproval ctx permissionSource final preHookOutcome "approval_recheck_rewrite" updates
    | .continue =>
      g.grantApproval ctx permissionSource updated preHookOutcome "approval_recheck_continue" updates

/-- The approver is asked, where there is one. -/
def askApprover (permissionSource : String) (effective : Value) (preHookOutcome : String) :
    Asking AuthorizationReport :=
  match g.approver with
  | none =>
    pure
      { authorization := .refused s!"tool '{ctx.tool}' requires approval (no approver wired)"
        interrupt := false
        preHookOutcome
        permissionOutcome := "ask_unavailable"
        permissionSource }
  | some approver => do
    let decision : ApprovalDecision ← Prog.perform (Query.approve approver (ctx.approvalRequest effective))
    match decision with
    | .allow updatedInput updates =>
      g.applyApproval ctx permissionSource effective preHookOutcome updatedInput updates
    | .deny message interrupt =>
      pure
        { authorization := .denied message interrupt
          interrupt
          preHookOutcome
          permissionOutcome := if interrupt then "ask_denied_interrupt" else "ask_denied"
          permissionSource := s!"human_approval:{permissionSource}" }

/-- Where the static decision says to ask: a grant, or else the approver. -/
def ask (permissionSource : String) (effective : Value) (preHookOutcome : String) :
    Asking AuthorizationReport := do
  let answer : Option (Option String) ←
    Prog.perform (Query.matchingSource g.approvedPermissions ctx.runId ctx.tool effective)
  match answer with
  | none => pure (approvalStateError preHookOutcome)
  | some (some source) =>
    pure
      { authorization := .allowed effective
        interrupt := false
        preHookOutcome
        permissionOutcome := "approved_permission"
        permissionSource := source }
  | some none => g.askApprover ctx permissionSource effective preHookOutcome

/-- The permission rules, on the input that the hooks left. -/
def permit (effective : Value) (preHookOutcome : String) : Asking AuthorizationReport :=
  let permission := g.evaluatePermission ctx.runId ctx.tool effective
  match permission.outcome with
  | .allow =>
    pure
      { authorization := .allowed effective
        interrupt := false
        preHookOutcome
        permissionOutcome := "allow"
        permissionSource := permission.source }
  | .deny reason =>
    pure
      { authorization := .refused reason
        interrupt := false
        preHookOutcome
        permissionOutcome := "deny"
        permissionSource := permission.source }
  | .ask => g.ask ctx permission.source effective preHookOutcome

/-- The hooks, and then the permission rules. -/
def decideCall : Asking AuthorizationReport := do
  match ← g.runPreToolUse (ctx.hookContext ctx.input) with
  | .block reason =>
    pure
      { authorization := .refused s!"blocked by hook: {reason}"
        interrupt := false
        preHookOutcome := "block"
        permissionOutcome := "not_evaluated"
        permissionSource := "pre_tool_use_hook" }
  | .rewrite input => g.permit ctx input "rewrite"
  | .continue => g.permit ctx ctx.input "continue"

variable [Digest]

/-- `authorize_detailed_with_context`. -/
def authorizeDetailedWithContext : Asking AuthorizationReport := do
  match ← g.validateAuthorizationBinding ctx.runId with
  | .error reason =>
    pure
      { authorization :=
          .denied s!"durable governance binding rejected authorization: {reason}" true
        interrupt := true
        preHookOutcome := "not_evaluated"
        permissionOutcome := "binding_mismatch"
        permissionSource := "durable_governance_binding" }
  | .ok () => g.decideCall ctx

/-- `authorize_with_context`. -/
def authorizeWithContext : Asking Authorization := do
  let report ← g.authorizeDetailedWithContext ctx
  pure report.authorization

/-- `authorize`: a call of no run. -/
def authorize (tool : String) (input : Value) : Asking Authorization :=
  g.authorizeWithContext ⟨"unscoped", 0, "unscoped", tool, input⟩

/-- `retire_durable_run`, on the registry and the cache. -/
def retireDurableRun (run : RunState) (bindings : BTreeMap GovernanceBinding)
    (approved : ApprovedPermissionSet) :
    Except DurableApproverError (BTreeMap GovernanceBinding × ApprovedPermissionSet) := do
  refuseIf (run.projection.status.isTerminal = false)
    (.runNotTerminal run.runId run.projection.status)
  let binding ← okOr run.governanceBinding .missingGovernanceBinding
  binding.validate.mapError fun error => .bindingMismatch error.text
  let released ← releaseBinding run binding bindings
  pure (released, approved.forget run.runId)

/-- `fork_for_run`: the same configuration over a fresh cache. -/
def forkForRun (cache : Nat) : Governance := { g with approvedPermissions := cache }

end

end AikitRuntime.Governance
