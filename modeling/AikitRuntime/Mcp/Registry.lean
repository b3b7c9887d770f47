import AikitRuntime.Agent.Environment
import AikitRuntime.Library.Tables
import AikitRuntime.Mcp.Ingress

/-!
# The registry of an MCP server

`McpServerRegistry` holds the tools, resources and prompts that a server offers, and the tasks that
tool calls created. Looking something up yields a governed action for the host to execute; nothing is
executed here. A task is working, waits for an approval, or has ended. It can be cancelled, which the
host confirms, and a new contract of its tool makes it wait for an approval again.
-/

namespace AikitRuntime.Mcp

open Library Durability GovernanceEnvelope
open Agent (JsonSchema)

/-! ### Definitions -/

/-- `McpTaskSupport`. -/
inductive McpTaskSupport where
  | forbidden | optional | required
  deriving DecidableEq

/-- The serialized name. -/
def McpTaskSupport.asStr : McpTaskSupport → String
  | .forbidden => "forbidden"
  | .optional => "optional"
  | .required => "required"

/-- `McpToolDefinition`. -/
structure McpToolDefinition where
  name : String
  description : String
  inputSchema : Value
  requiredScopes : BTreeSet
  requiresApproval : Bool
  taskSupport : McpTaskSupport
  deriving DecidableEq

/-- `McpResourceDefinition`. -/
structure McpResourceDefinition where
  uri : String
  name : String
  description : Option String
  mimeType : Option String
  requiredScopes : BTreeSet
  deriving DecidableEq

/-- `McpPromptArgument`. -/
structure McpPromptArgument where
  name : String
  description : Option String
  required : Bool
  deriving DecidableEq

/-- `McpPromptDefinition`. -/
structure McpPromptDefinition where
  name : String
  description : Option String
  arguments : List McpPromptArgument
  requiredScopes : BTreeSet
  deriving DecidableEq

namespace McpToolDefinition

/-- `McpToolDefinition::validate`. -/
def validate [JsonSchema] (tool : McpToolDefinition) : ProtocolResult Unit := do
  validateIdentifier "MCP tool name" tool.name
  refuseIf (tool.inputSchema.isObject = false)
    (.invalid "MCP tool input_schema must be a JSON object")
  let _ ← (JsonSchema.validatorFor tool.inputSchema).mapError fun error =>
    ProtocolError.invalid s!"MCP tool input_schema is invalid: {error}"
  validateScopeSet tool.requiredScopes

/-- The serialized definition. -/
def json (tool : McpToolDefinition) : Value :=
  .ofFields
    [("name", .string tool.name), ("description", .string tool.description),
      ("input_schema", tool.inputSchema),
      ("required_scopes", .array (tool.requiredScopes.elements.map .string)),
      ("requires_approval", .bool tool.requiresApproval),
      ("task_support", .string tool.taskSupport.asStr)]

/-- `McpToolDefinition::definition_hash`. -/
def definitionHash [Digest] (tool : McpToolDefinition) : String := stableInputHash tool.json

end McpToolDefinition

/-- `McpResourceDefinition::validate`. -/
def McpResourceDefinition.validate (resource : McpResourceDefinition) : ProtocolResult Unit := do
  validateIdentifier "MCP resource URI" resource.uri
  validateIdentifier "MCP resource name" resource.name
  validateScopeSet resource.requiredScopes

/-- The arguments of a prompt, one after another. -/
def validatePromptArguments : List McpPromptArgument → List String → ProtocolResult Unit
  | [], _ => .ok ()
  | argument :: rest, names => do
    validateIdentifier "MCP prompt argument name" argument.name
    refuseIf (argument.name ∈ names) (.invalid s!"duplicate MCP prompt argument: {argument.name}")
    validatePromptArguments rest (argument.name :: names)

/-- `McpPromptDefinition::validate`. -/
def McpPromptDefinition.validate (prompt : McpPromptDefinition) : ProtocolResult Unit := do
  validateIdentifier "MCP prompt name" prompt.name
  validatePromptArguments prompt.arguments []
  validateScopeSet prompt.requiredScopes

/-! ### Tasks -/

/-- `McpToolExecutionMode`. -/
inductive McpToolExecutionMode where
  | direct | task
  deriving DecidableEq

/-- `McpToolCallRequest`. -/
structure McpToolCallRequest where
  name : String
  arguments : Value
  executionMode : McpToolExecutionMode
  deriving DecidableEq

/-- `McpTaskStatus`. -/
inductive McpTaskStatus where
  | working | inputRequired | completed | failed | cancelled
  deriving DecidableEq

/-- `McpTaskStatus::is_terminal`. -/
def McpTaskStatus.isTerminal : McpTaskStatus → Bool
  | .completed | .failed | .cancelled => true
  | .working | .inputRequired => false

/-- `McpCancellationState`. -/
inductive McpCancellationState where
  | requested | reconcileRequired
  deriving DecidableEq

/-- `McpProgress`. -/
structure McpProgress where
  progress : Nat
  total : Option Nat
  message : Option String
  deriving DecidableEq

/-- `McpProgress::validate`. -/
def McpProgress.validate (progress : McpProgress) : ProtocolResult Unit :=
  refuseIf (progress.total.any fun total => total < progress.progress)
    (.invalid "MCP task progress cannot exceed total")

/-- `McpApprovalChallenge`. -/
structure McpApprovalChallenge where
  approvalId : String
  prompt : String
  deriving DecidableEq

/-- `McpApprovalResponse`. -/
structure McpApprovalResponse where
  approvalId : String
  approved : Bool
  deriving DecidableEq

/-- `McpTaskOperation`. -/
inductive McpTaskOperation where
  | toolCall (name : String) (arguments : Value)
  deriving DecidableEq

/-- The name of the tool. -/
def McpTaskOperation.name : McpTaskOperation → String
  | .toolCall name _ => name

/-- The arguments of the tool. -/
def McpTaskOperation.arguments : McpTaskOperation → Value
  | .toolCall _ arguments => arguments

/-- `McpTask`. -/
structure McpTask where
  taskId : String
  status : McpTaskStatus
  operation : McpTaskOperation
  correlation : CorrelationIdentity
  ownerSubject : String
  ownerTenantId : Option String
  requiredScopes : BTreeSet
  definitionHash : String
  advertised : Bool
  createdRevision : Nat
  updatedRevision : Nat
  statusMessage : Option String
  progress : Option McpProgress
  pendingApproval : Option McpApprovalChallenge
  cancellation : Option McpCancellationState
  result : Option Value
  error : Option ProtocolError
  deriving DecidableEq

/-- `McpServerAction`. -/
inductive McpServerAction where
  | listTools (tools : List McpToolDefinition)
  | invokeTool (task : McpTask)
  | awaitApproval (task : McpTask) (challenge : McpApprovalChallenge)
  | listResources (resources : List McpResourceDefinition)
  | readResource (resource : McpResourceDefinition)
  | listPrompts (prompts : List McpPromptDefinition)
  | renderPrompt (prompt : McpPromptDefinition) (arguments : BTreeMap String)
  | getTask (task : McpTask)
  | listTasks (tasks : List McpTask)
  | cancelTask (task : McpTask)
  | approvalDenied (task : McpTask)
  deriving DecidableEq

/-- What the registry decides about a request. -/
abbrev Decision : Type := GovernedAction McpServerAction

/-! ### The registry -/

/-- `McpServerRegistry`. -/
structure McpServerRegistry where
  tools : BTreeMap McpToolDefinition
  resources : BTreeMap McpResourceDefinition
  prompts : BTreeMap McpPromptDefinition
  tasks : BTreeMap McpTask
  nextTaskSequence : Nat
  revision : Nat
  deriving DecidableEq

/-- A number with at least sixteen digits. -/
def padded (n : Nat) : String :=
  String.ofList (List.replicate (16 - (toString n).length) '0') ++ toString n

/-- `format!("mcp-task-{sequence:016}")`. -/
def taskIdOf (sequence : Nat) : String := "mcp-task-" ++ padded sequence

/-- The number that a padded number is. -/
theorem ofDigitChars_padded (n : Nat) : Nat.ofDigitChars 10 (padded n).toList 0 = n := by
  have hzeros (k : Nat) (digits : List Char) :
      Nat.ofDigitChars 10 (List.replicate k '0' ++ digits) 0 = Nat.ofDigitChars 10 digits 0 := by
    induction k with
    | zero => rfl
    | succ k ih =>
      rw [List.replicate_succ, List.cons_append, Nat.ofDigitChars_cons]
      exact ih
  unfold padded
  rw [String.toList_append, String.toList_ofList, hzeros]
  show Nat.ofDigitChars 10 (Nat.repr n).toList 0 = n
  rw [Nat.repr_eq_ofList_toDigits, String.toList_ofList, Nat.ofDigitChars_toDigits (by decide) (by decide)]

theorem taskIdOf_injective : Function.Injective taskIdOf := by
  intro n m h
  have hpadded : padded n = padded m := by
    have hlist := congrArg String.toList h
    unfold taskIdOf at hlist
    rw [String.toList_append, String.toList_append] at hlist
    exact String.toList_inj.mp (List.append_cancel_left hlist)
  rw [← ofDigitChars_padded n, hpadded, ofDigitChars_padded m]

/-- `execution_mode_supported`. -/
def executionModeSupported : McpTaskSupport → McpToolExecutionMode → Bool
  | .forbidden, .direct | .optional, _ | .required, .task => true
  | .forbidden, .task | .required, .direct => false

/-- `correlation_with_task`. -/
def correlationWithTask (correlation : CorrelationIdentity) (task : McpTask) : CorrelationIdentity :=
  { correlation with sessionId := task.correlation.sessionId, runId := task.correlation.runId }

/-- `denied_unknown_task`. -/
def deniedUnknownTask (correlation : CorrelationIdentity) (principal : Option ProtocolPrincipal)
    (operation taskId scope : String) : Decision :=
  .denied ((evaluate correlation principal operation taskId (scopes [scope])).deny
    .unknownTarget "MCP task is not accessible")

namespace McpServerRegistry

variable (reg : McpServerRegistry)

/-- `McpServerRegistry::new`. -/
def new : McpServerRegistry := ⟨∅, ∅, ∅, ∅, 1, 0⟩

/-- `bump_revision`. -/
def bumpRevision : McpServerRegistry := { reg with revision := saturatingAdd reg.revision 1 }

/-- `bump_revision`, and then a change of one task, which is stamped with the new revision. -/
def updateTask (taskId : String) (task : McpTask) : McpServerRegistry :=
  let reg := reg.bumpRevision
  { reg with tasks := reg.tasks.insert taskId { task with updatedRevision := reg.revision } }

/-- The principal owns the task. -/
def owns (principal : Option ProtocolPrincipal) (task : McpTask) : Bool :=
  principal.any fun principal => principal.matchesIdentity task.ownerSubject task.ownerTenantId

/-! #### Contracts -/

section Contracts

variable [JsonSchema] [Digest]

/-- `register_tool`. -/
def registerTool (tool : McpToolDefinition) : ProtocolResult McpServerRegistry := do
  tool.validate
  refuseIf (reg.tools.contains tool.name) (.conflict s!"MCP tool already registered: {tool.name}")
  pure { reg with tools := reg.tools.insert tool.name tool }.bumpRevision

/-- `register_resource`. -/
def registerResource (resource : McpResourceDefinition) : ProtocolResult McpServerRegistry := do
  resource.validate
  refuseIf (reg.resources.contains resource.uri)
    (.conflict s!"MCP resource already registered: {resource.uri}")
  pure { reg with resources := reg.resources.insert resource.uri resource }.bumpRevision

/-- `register_prompt`. -/
def registerPrompt (prompt : McpPromptDefinition) : ProtocolResult McpServerRegistry := do
  prompt.validate
  refuseIf (reg.prompts.contains prompt.name)
    (.conflict s!"MCP prompt already registered: {prompt.name}")
  pure { reg with prompts := reg.prompts.insert prompt.name prompt }.bumpRevision

/-- What a new contract makes of a task that is not over. -/
def underNewContract (tool : McpToolDefinition) (revision : Nat) (task : McpTask) : McpTask :=
  let .toolCall name _ := task.operation
  if name ≠ tool.name ∨ task.status.isTerminal = true ∨ task.definitionHash = tool.definitionHash then task
  else
    { task with
      status := .inputRequired
      requiredScopes := (scopes ["mcp:tools:call"]).extend tool.requiredScopes.elements
      definitionHash := tool.definitionHash
      pendingApproval := some
        { approvalId := s!"{task.taskId}:schema:{revision}"
          prompt :=
            s!"The MCP contract for `{tool.name}` changed; approve the new schema before resuming" }
      statusMessage := some "tool schema changed; renewed approval required"
      updatedRevision := revision }

/-- `upsert_tool`. Nothing comes back where the definition is the one there was. -/
def upsertTool (tool : McpToolDefinition) : ProtocolResult (Option McpServerRegistry) := do
  tool.validate
  if reg.tools[tool.name]? = some tool then pure none
  else
    let reg := { reg with tools := reg.tools.insert tool.name tool }.bumpRevision
    pure (some { reg with tasks := reg.tasks.map fun _ => underNewContract tool reg.revision })

/-- `validate_task_contract`. -/
def validateTaskContract (task : McpTask) : ProtocolResult Unit := do
  let .toolCall name arguments := task.operation
  let tool ← okOr reg.tools[name]? (.notFound "MCP task tool is not registered")
  refuseIf (tool.definitionHash ≠ task.definitionHash)
    (.conflict "MCP task definition hash does not match the current tool contract")
  let validator ← (JsonSchema.validatorFor tool.inputSchema).mapError fun error =>
    ProtocolError.invalid s!"MCP tool input_schema is invalid: {error}"
  (validator arguments).mapError fun _ =>
    ProtocolError.invalid "stored MCP tool arguments no longer match the current schema"

/-- The `input_error` of `call_tool`. -/
def inputError (name : String) (arguments : Value) : Option String :=
  reg.tools[name]?.bind fun tool =>
    match JsonSchema.validatorFor tool.inputSchema with
    | .error _ => none
    | .ok validator =>
      match validator arguments with
      | .error _ => some s!"tool `{name}` arguments do not match its inputSchema"
      | .ok _ => none

end Contracts

/-! #### Lists -/

section Lists

variable (correlation : CorrelationIdentity) (principal : Option ProtocolPrincipal)

/-- `prepare_list_tools`. -/
def prepareListTools : Decision :=
  .fromEnvelope
    (.evaluate correlation principal "tools/list" "tools" (scopes ["mcp:tools:list"]))
    (.listTools (principal.elim [] fun principal =>
      reg.tools.values.filter fun tool => principal.allows tool.requiredScopes))

/-- `prepare_list_resources`. -/
def prepareListResources : Decision :=
  .fromEnvelope
    (.evaluate correlation principal "resources/list" "resources" (scopes ["mcp:resources:list"]))
    (.listResources (principal.elim [] fun principal =>
      reg.resources.values.filter fun resource => principal.allows resource.requiredScopes))

/-- `prepare_list_prompts`. -/
def prepareListPrompts : Decision :=
  .fromEnvelope
    (.evaluate correlation principal "prompts/list" "prompts" (scopes ["mcp:prompts:list"]))
    (.listPrompts (principal.elim [] fun principal =>
      reg.prompts.values.filter fun prompt => principal.allows prompt.requiredScopes))

/-- `prepare_list_tasks`. -/
def prepareListTasks : Decision :=
  .fromEnvelope
    (.evaluate correlation principal "tasks/list" "tasks" (scopes ["mcp:tasks:read"]))
    (.listTasks (reg.tasks.values.filter fun task => task.advertised && owns principal task))

/-- `prepare_read_resource`. -/
def prepareReadResource (uri : String) : Decision :=
  match reg.resources[uri]? with
  | none =>
    .denied ((evaluate correlation principal "resources/read" uri
      (scopes ["mcp:resources:read"])).deny .unknownTarget "MCP resource is not registered")
  | some resource =>
    .fromEnvelope
      (.evaluate correlation principal "resources/read" uri
        ((scopes ["mcp:resources:read"]).extend resource.requiredScopes.elements))
      (.readResource resource)

/-- `prepare_render_prompt`. -/
def prepareRenderPrompt (name : String) (arguments : BTreeMap String) : Decision :=
  match reg.prompts[name]? with
  | none =>
    .denied ((evaluate correlation principal "prompts/get" name
      (scopes ["mcp:prompts:get"])).deny .unknownTarget "MCP prompt is not registered")
  | some prompt =>
    let envelope := evaluate correlation principal "prompts/get" name
      ((scopes ["mcp:prompts:get"]).extend prompt.requiredScopes.elements)
    let missing := prompt.arguments.any fun argument =>
      argument.required && !arguments.contains argument.name
    .fromEnvelope
      (if envelope.authorization.isAllowed && missing then
        envelope.deny .stateConflict "MCP prompt is missing a required argument"
      else envelope)
      (.renderPrompt prompt arguments)

end Lists

/-! #### Tasks -/

section Tasks

variable (correlation : CorrelationIdentity) (principal : Option ProtocolPrincipal)

/-- The envelope, which a principal that does not own the task is denied. -/
def ofOwner (envelope : GovernanceEnvelope) (task : McpTask) : GovernanceEnvelope :=
  if envelope.authorization.isAllowed && !owns principal task then
    envelope.deny .principalMismatch "MCP task is not accessible"
  else envelope

/-- `task_envelope`. -/
def taskEnvelope (task : McpTask) (operation scope : String) : GovernanceEnvelope :=
  ofOwner principal
    (.evaluate (correlationWithTask correlation task) principal operation task.taskId (scopes [scope]))
    task

/-- `prepare_get_task`. -/
def prepareGetTask (taskId : String) : Decision :=
  match reg.tasks[taskId]?.filter (·.advertised) with
  | none => deniedUnknownTask correlation principal "tasks/get" taskId "mcp:tasks:read"
  | some task =>
    .fromEnvelope (taskEnvelope correlation principal task "tasks/get" "mcp:tasks:read") (.getTask task)

/-- The task with a cancellation requested. -/
def requestCancellation (task : McpTask) : McpTask :=
  { task with
    cancellation := some .requested
    statusMessage := some "cancellation requested; awaiting host confirmation" }

/-- The registry after `prepare_cancel_task` let the cancellation of a task through. -/
def afterCancelRequest (taskId : String) (task : McpTask) : McpServerRegistry :=
  if task.cancellation.isNone then reg.updateTask taskId (requestCancellation task) else reg

/-- `prepare_cancel_task`. -/
def prepareCancelTask (taskId : String) : McpServerRegistry × Decision :=
  match reg.tasks[taskId]? with
  | none => (reg, deniedUnknownTask correlation principal "tasks/cancel" taskId "mcp:tasks:cancel")
  | some existing =>
    let envelope := taskEnvelope correlation principal existing "tasks/cancel" "mcp:tasks:cancel"
    if envelope.authorization.isAllowed = false then (reg, .denied envelope)
    else if existing.status.isTerminal = true then
      (reg, .denied (envelope.deny .stateConflict "terminal MCP task cannot be cancelled"))
    else
      let next := reg.afterCancelRequest taskId existing
      (next, .fromEnvelope envelope (.cancelTask (next.tasks[taskId]?.getD existing)))

variable [Digest]

/-- The task that a tool call creates. -/
def newTask (tool : McpToolDefinition) (request : McpToolCallRequest)
    (correlation : CorrelationIdentity) (principal : ProtocolPrincipal) (required : BTreeSet) : McpTask :=
  let taskId := taskIdOf reg.nextTaskSequence
  let revision := reg.bumpRevision.revision
  { taskId
    status := if tool.requiresApproval then .inputRequired else .working
    operation := .toolCall tool.name request.arguments
    correlation
    ownerSubject := principal.subject
    ownerTenantId := principal.tenantId
    requiredScopes := required
    definitionHash := tool.definitionHash
    advertised := request.executionMode = .task
    createdRevision := revision
    updatedRevision := revision
    statusMessage := none
    progress := none
    pendingApproval :=
      if tool.requiresApproval then
        some ⟨s!"{taskId}:approval", s!"Approve MCP tool call `{tool.name}`"⟩
      else none
    cancellation := none
    result := none
    error := none }

/-- What the host has to do about a new task. -/
def newTaskAction (task : McpTask) : McpServerAction :=
  match task.pendingApproval with
  | some challenge => .awaitApproval task challenge
  | none => .invokeTool task

/-- The identities of a new task. -/
def newTaskCorrelation (correlation : CorrelationIdentity) : CorrelationIdentity :=
  { correlation with
    sessionId := correlation.sessionId.or (some s!"mcp-session-{padded ((reg.revision + 1) % 2 ^ 64)}")
    runId := some (taskIdOf reg.nextTaskSequence) }

/-- `prepare_tool_call`. -/
def prepareToolCall (request : McpToolCallRequest) : McpServerRegistry × Decision :=
  match reg.tools[request.name]? with
  | none =>
    (reg, .denied ((evaluate correlation principal "tools/call" request.name
      (scopes ["mcp:tools:call"])).deny .unknownTarget "MCP tool is not registered"))
  | some tool =>
    let required := (scopes ["mcp:tools:call"]).extend tool.requiredScopes.elements
    let envelope := evaluate correlation principal "tools/call" tool.name required
    match principal with
    | none => (reg, .denied envelope)
    | some owner =>
      if envelope.authorization.isAllowed = false then (reg, .denied envelope)
      else if executionModeSupported tool.taskSupport request.executionMode = false then
        (reg, .denied (envelope.deny .stateConflict
          "requested MCP task execution mode is not supported by this tool"))
      else
        let correlation := reg.newTaskCorrelation correlation
        let task := reg.newTask tool request correlation owner required
        ({ reg.bumpRevision with
            nextTaskSequence := saturatingAdd reg.nextTaskSequence 1
            tasks := reg.tasks.insert task.taskId task },
          .fromEnvelope { envelope with correlation } (newTaskAction task))

variable [JsonSchema]

/-- What an answer to an approval makes of the task, and the action. -/
def resumed (existing : McpTask) (approved : Bool) : McpTask :=
  if approved then
    match reg.validateTaskContract existing with
    | .error error =>
      { existing with
        status := .failed
        pendingApproval := none
        statusMessage := some error.message
        error := some error }
    | .ok _ => { existing with status := .working, pendingApproval := none, statusMessage := none }
  else
    { existing with
      status := .cancelled
      pendingApproval := none
      statusMessage := some "approval denied" }

/-- Why an approval is refused, if it is. -/
def approvalRefusal (existing : McpTask) (response : McpApprovalResponse) :
    Option (GovernanceDenialCode × String) :=
  if owns principal existing = false then some (.principalMismatch, "MCP task is not accessible")
  else match existing.pendingApproval with
    | none => some (.invalidApproval, "MCP task has no pending approval")
    | some challenge =>
      if existing.status ≠ .inputRequired ∨ challenge.approvalId ≠ response.approvalId then
        some (.invalidApproval, "MCP approval does not match the pending challenge")
      else if existing.cancellation.isSome then
        some (.stateConflict,
          "MCP task cancellation must be reconciled before approval can resume")
      else none

/-- `prepare_resume_approval`. -/
def prepareResumeApproval (taskId : String) (response : McpApprovalResponse) :
    McpServerRegistry × Decision :=
  match reg.tasks[taskId]? with
  | none => (reg, deniedUnknownTask correlation principal "tasks/update" taskId "mcp:tools:call")
  | some existing =>
    let envelope := evaluate (correlationWithTask correlation existing) principal
      "tasks/update" taskId existing.requiredScopes
    if envelope.authorization.isAllowed = false then (reg, .denied envelope)
    else match approvalRefusal principal existing response with
      | some (code, reason) => (reg, .denied (envelope.deny code reason))
      | none =>
        let next := reg.updateTask taskId (reg.resumed existing response.approved)
        let task := next.tasks[taskId]?.getD existing
        (next, .fromEnvelope envelope
          (if task.status = .working then .invokeTool task else .approvalDenied task))

/-- What recovers a task. -/
def recoveryAction (task : McpTask) : Except String McpServerAction :=
  if task.cancellation.isSome then .ok (.cancelTask task)
  else match task.status, task.pendingApproval with
    | .working, _ =>
      if (reg.validateTaskContract task).isOk then .ok (.invokeTool task)
      else .error "only a working or input-required MCP task can be recovered"
    | .inputRequired, some challenge =>
      if (reg.validateTaskContract task).isOk then .ok (.awaitApproval task challenge)
      else .error "stored MCP tool arguments no longer match the current schema"
    | _, _ => .error "only a working or input-required MCP task can be recovered"

/-- `prepare_recover_task`. -/
def prepareRecoverTask (taskId : String) : Decision :=
  match reg.tasks[taskId]? with
  | none => deniedUnknownTask correlation principal "tasks/recover" taskId "mcp:tools:call"
  | some task =>
    let envelope := ofOwner principal
      (.evaluate (correlationWithTask correlation task) principal "tasks/recover" taskId
        task.requiredScopes) task
    match reg.recoveryAction task with
    | .ok action => .fromEnvelope envelope action
    | .error reason => .denied (envelope.deny .stateConflict reason)

end Tasks

/-! #### What the host reports -/

/-- The task of a report. -/
def reported (taskId : String) : ProtocolResult McpTask :=
  okOr reg.tasks[taskId]? (.notFound "MCP task is not registered")

/-- `confirm_cancel_task`. -/
def confirmCancelTask (taskId : String) : ProtocolResult McpServerRegistry := do
  let task ← reg.reported taskId
  refuseIf (task.status.isTerminal = true)
    (.invalidTransition "terminal MCP task cannot confirm cancellation")
  refuseIf (task.cancellation = none) (.invalidTransition "MCP task has no pending cancellation")
  pure (reg.updateTask taskId
    { task with
      status := .cancelled
      cancellation := none
      pendingApproval := none
      statusMessage := some "cancellation confirmed by host" })

/-- `mark_cancel_reconcile_required`. -/
def markCancelReconcileRequired (taskId reason : String) : ProtocolResult McpServerRegistry := do
  let task ← reg.reported taskId
  if task.status.isTerminal = true then pure reg
  else
    refuseIf (task.cancellation = none) (.invalidTransition "MCP task has no pending cancellation")
    pure (reg.updateTask taskId
      { task with
        cancellation := some .reconcileRequired
        statusMessage := some s!"cancellation requires reconciliation: {reason}" })

/-- `expire_task`. -/
def expireTask (taskId : String) : ProtocolResult McpServerRegistry := do
  let task ← reg.reported taskId
  if task.status.isTerminal = true then pure reg
  else
    pure (reg.updateTask taskId
      { task with
        status := .failed
        cancellation := none
        pendingApproval := none
        statusMessage := some "MCP task TTL expired"
        error := some (.conflict "MCP task TTL expired") })

/-- `remove_terminal_task`. -/
def removeTerminalTask (taskId : String) : ProtocolResult McpServerRegistry :=
  match reg.tasks[taskId]? with
  | none => .ok reg
  | some task => do
    refuseIf (task.status.isTerminal = false)
      (.invalidTransition "non-terminal MCP task cannot be garbage collected")
    pure { reg with tasks := reg.tasks.erase taskId }.bumpRevision

/-- `record_progress`. -/
def recordProgress (taskId : String) (progress : McpProgress) : ProtocolResult McpServerRegistry := do
  progress.validate
  let task ← reg.reported taskId
  refuseIf (task.status ≠ .working) (.invalidTransition "progress requires a working MCP task")
  refuseIf (task.progress.any fun previous => progress.progress < previous.progress)
    (.invalidTransition "MCP task progress must be monotonic")
  pure (reg.updateTask taskId { task with progress := some progress })

/-- `finish_task`. -/
def finishTask (taskId : String) (status : McpTaskStatus) (result : Option Value)
    (error : Option ProtocolError) : ProtocolResult McpServerRegistry := do
  let task ← reg.reported taskId
  refuseIf (task.status ≠ .working) (.invalidTransition "only a working MCP task may finish")
  pure (reg.updateTask taskId { task with status, cancellation := none, result, error })

/-- `complete_tool_result`. -/
def completeToolResult (taskId : String) (result : Value) (isError : Bool) :
    ProtocolResult McpServerRegistry :=
  reg.finishTask taskId (if isError then .failed else .completed) (some result) none

/-- `fail_task`. -/
def failTask (taskId : String) (error : ProtocolError) : ProtocolResult McpServerRegistry :=
  reg.finishTask taskId .failed none (some error)

end McpServerRegistry

end AikitRuntime.Mcp
