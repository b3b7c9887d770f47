import AikitRuntime.Durability.Json

/-!
# What hooks, approvers and governance say

The contexts that lifecycle hooks and approvers are called with, what they answer, and the
report of an authorization. A tool call runs only with the input that its authorization
allowed.
-/

namespace AikitRuntime.Governance

open Durability

/-! ### Hooks -/

/-- `HookOutcome`. -/
inductive HookOutcome where
  | continue
  | block (reason : String)
  | rewrite (input : Value)
  deriving DecidableEq

/-- `PostToolOutcome`. -/
inductive PostToolOutcome where
  | continue
  | rewriteOutput (output : String)
  | markError (error : String)
  deriving DecidableEq

/-- `PromptHookOutcome`. -/
inductive PromptHookOutcome where
  | continue
  | block (reason : String)
  | rewrite (prompt : String)
  deriving DecidableEq

/-- `FailureStage`. -/
inductive FailureStage where
  | configuration | providerStart | providerStream | toolNotAdvertised | preToolUse | permission
  | toolExecution | toolInputValidation | postToolUse | maxTurns | malformedToolCall | budget | audit
  deriving DecidableEq

/-- `FailureStage::as_str`. -/
def FailureStage.asStr : FailureStage → String
  | .configuration => "configuration"
  | .providerStart => "provider_start"
  | .providerStream => "provider_stream"
  | .toolNotAdvertised => "tool_not_advertised"
  | .preToolUse => "pre_tool_use"
  | .permission => "permission"
  | .toolExecution => "tool_execution"
  | .toolInputValidation => "tool_input_validation"
  | .postToolUse => "post_tool_use"
  | .maxTurns => "max_turns"
  | .malformedToolCall => "malformed_tool_call"
  | .budget => "budget"
  | .audit => "audit"

/-- `PromptContext`. -/
structure PromptContext where
  runId : String
  prompt : String
  deriving DecidableEq

/-- `PreToolUseContext`. -/
structure PreToolUseContext where
  runId : String
  turn : Nat
  toolUseId : String
  tool : String
  input : Value
  deriving DecidableEq

/-- `PostToolUseContext`. -/
structure PostToolUseContext where
  runId : String
  turn : Nat
  toolUseId : String
  tool : String
  input : Value
  output : String
  durationMs : Nat
  deriving DecidableEq

/-- `FailureContext`. -/
structure FailureContext where
  runId : String
  turn : Nat
  stage : FailureStage
  toolUseId : Option String
  tool : Option String
  error : String
  deriving DecidableEq

/-- `StopContext`, but for the usage. -/
structure StopContext where
  runId : String
  turns : Nat
  reason : String
  deriving DecidableEq

/-! ### Approvals -/

/-- `ApprovalRequest`. -/
structure ApprovalRequest where
  runId : String
  turn : Nat
  toolUseId : String
  tool : String
  input : Value
  deriving DecidableEq

/-- `PermissionUpdate`. -/
inductive PermissionUpdate where
  | allowExactInput | allowTool
  deriving DecidableEq

/-- The serialized name of an update. -/
def PermissionUpdate.asStr : PermissionUpdate → String
  | .allowExactInput => "allow_exact_input"
  | .allowTool => "allow_tool"

/-- `ApprovalDecision`. -/
inductive ApprovalDecision where
  | allow (updatedInput : Option Value) (updatedPermissions : List PermissionUpdate)
  | deny (message : String) (interrupt : Bool)
  deriving DecidableEq

/-! ### Authorizations -/

/-- `Authorization`. -/
inductive Authorization where
  | allowed (input : Value)
  | denied (message : String) (interrupt : Bool)
  deriving DecidableEq

/-- `AuthorizationContext`. -/
structure AuthorizationContext where
  runId : String
  turn : Nat
  toolUseId : String
  tool : String
  input : Value
  deriving DecidableEq

/-- `AuthorizationReport`. -/
structure AuthorizationReport where
  authorization : Authorization
  interrupt : Bool
  preHookOutcome : String
  permissionOutcome : String
  permissionSource : String
  deriving DecidableEq

end AikitRuntime.Governance
