import AikitRuntime.Mcp.Registry

/-!
# Runs of the registry

The operations of `McpServerRegistry` in any order, by any callers. A log lists the operations with
the registries that they found, so what an operation changed, which challenge it offered and which one
it answered are read off its entry. `TaskStep` says all that an operation does to a task.

A call goes through `call_tool`: what the registry decides about it is issued if the arguments match
the input schema.
-/

namespace AikitRuntime.Mcp

open Library Durability
open Agent (JsonSchema)

/-! ### Operations -/

/-- Who asks, and under which identities. -/
structure Caller where
  correlation : CorrelationIdentity
  principal : Option ProtocolPrincipal
  deriving DecidableEq

/-- What is asked without changing anything. -/
inductive RegistryQuery where
  | listTools
  | listResources
  | listPrompts
  | listTasks
  | readResource (uri : String)
  | renderPrompt (name : String) (arguments : BTreeMap String)
  | getTask (taskId : String)
  | recoverTask (taskId : String)

/-- What is reported of a task. -/
inductive TaskReport where
  | cancelled
  | cancellationUnclear (reason : String)
  | expired
  | collected
  | progress (made : McpProgress)
  | result (value : Value) (isError : Bool)
  | failed (error : ProtocolError)

/-- The operations of a registry. -/
inductive RegistryOp where
  | registerTool (tool : McpToolDefinition)
  | upsertTool (tool : McpToolDefinition)
  | registerResource (resource : McpResourceDefinition)
  | registerPrompt (prompt : McpPromptDefinition)
  | callTool (request : McpToolCallRequest) (caller : Caller)
  | resumeApproval (taskId : String) (response : McpApprovalResponse) (caller : Caller)
  | cancelTask (taskId : String) (caller : Caller)
  | query (asked : RegistryQuery) (caller : Caller)
  | report (taskId : String) (told : TaskReport)

/-- What a report makes of the registry. -/
def TaskReport.apply (reg : McpServerRegistry) (taskId : String) :
    TaskReport → ProtocolResult McpServerRegistry
  | .cancelled => reg.confirmCancelTask taskId
  | .cancellationUnclear reason => reg.markCancelReconcileRequired taskId reason
  | .expired => reg.expireTask taskId
  | .collected => reg.removeTerminalTask taskId
  | .progress made => reg.recordProgress taskId made
  | .result value isError => reg.completeToolResult taskId value isError
  | .failed error => reg.failTask taskId error

/-- A refused operation leaves the registry as it is. -/
def keeping (reg : McpServerRegistry) (next : ProtocolResult McpServerRegistry) : McpServerRegistry :=
  match next with
  | .ok reg' => reg'
  | .error _ => reg

/-! ### Reports -/

/-- What a request about a task leaves as it is. -/
structure SameStanding (task task' : McpTask) : Prop where
  taskId : task'.taskId = task.taskId
  status : task'.status = task.status
  operation : task'.operation = task.operation
  requiredScopes : task'.requiredScopes = task.requiredScopes
  definitionHash : task'.definitionHash = task.definitionHash
  pendingApproval : task'.pendingApproval = task.pendingApproval

section Reports

variable {reg : McpServerRegistry} {taskId : String} {task : McpTask}

namespace McpServerRegistry

@[simp] theorem tools_bumpRevision : reg.bumpRevision.tools = reg.tools := rfl

@[simp] theorem tasks_bumpRevision : reg.bumpRevision.tasks = reg.tasks := rfl

@[simp] theorem tools_updateTask : (reg.updateTask taskId task).tools = reg.tools := rfl

theorem get_updateTask {a : String} : (reg.updateTask taskId task).tasks[a]? =
    if taskId = a then some { task with updatedRevision := reg.bumpRevision.revision }
    else reg.tasks[a]? := BTreeMap.get_insert

end McpServerRegistry

variable {reg' : McpServerRegistry}

@[simp] theorem keeping_ok : keeping reg (.ok reg') = reg' := rfl

@[simp] theorem keeping_error {error : ProtocolError} : keeping reg (.error error) = reg := rfl

/-- What a refused operation leaves, and what one that succeeds leaves, is left. -/
theorem keeping_cases {P : McpServerRegistry → Prop} {next : ProtocolResult McpServerRegistry} (hreg : P reg)
    (hnext : ∀ reg', next = .ok reg' → P reg') : P (keeping reg next) := by
  cases next with
  | error error => exact hreg
  | ok reg' => exact hnext reg' rfl

/-- What a report makes of the tasks. -/
inductive ReportStep (reg : McpServerRegistry) (taskId : String) (task : McpTask) (report : TaskReport) :
    McpServerRegistry → Prop where
  | nothing : ReportStep reg taskId task report reg
  | updated {task' : McpTask} (running : task.status.isTerminal = false)
    (h : SameStanding task task' ∨
      task'.status.isTerminal = true ∧ task'.taskId = task.taskId ∧ task'.cancellation = none) :
    ReportStep reg taskId task report (reg.updateTask taskId task')
  | removed (terminal : task.status.isTerminal = true) (collects : report = .collected) :
    ReportStep reg taskId task report { reg with tasks := reg.tasks.erase taskId }.bumpRevision

/-- A report of a task that is registered. -/
theorem TaskReport.apply_step {report : TaskReport}
    (hget : reg.tasks[taskId]? = some task) (h : report.apply reg taskId = .ok reg') :
    ReportStep reg taskId task report reg' := by
  have hfound : reg.reported taskId = .ok task := okOr_eq_ok.mpr hget
  cases report with
  | cancelled =>
    simp only [apply, McpServerRegistry.confirmCancelTask, hfound, ok_bind, bind_eq_ok, refuseIf_eq_ok,
      exists_unit, pure, Except.pure, Except.ok.injEq] at h
    obtain ⟨hrunning, _, rfl⟩ := h
    exact .updated (by simpa using hrunning) (.inr ⟨rfl, rfl, rfl⟩)
  | cancellationUnclear reason =>
    simp only [apply, McpServerRegistry.markCancelReconcileRequired, hfound, ok_bind] at h
    split at h
    · cases h
      exact .nothing
    · next hrunning =>
      simp only [bind_eq_ok, refuseIf_eq_ok, exists_unit, pure, Except.pure, Except.ok.injEq] at h
      obtain ⟨_, rfl⟩ := h
      exact .updated (by simpa using hrunning) (.inl ⟨rfl, rfl, rfl, rfl, rfl, rfl⟩)
  | expired =>
    simp only [apply, McpServerRegistry.expireTask, hfound, ok_bind] at h
    split at h
    · cases h
      exact .nothing
    · next hrunning =>
      cases h
      exact .updated (by simpa using hrunning) (.inr ⟨rfl, rfl, rfl⟩)
  | collected =>
    simp only [apply, McpServerRegistry.removeTerminalTask, hget, bind_eq_ok, refuseIf_eq_ok, exists_unit,
      pure, Except.pure, Except.ok.injEq] at h
    obtain ⟨hover, rfl⟩ := h
    exact .removed (by simpa using hover) rfl
  | progress made =>
    simp only [apply, McpServerRegistry.recordProgress, hfound, ok_bind, bind_eq_ok, refuseIf_eq_ok,
      exists_unit, pure, Except.pure, Except.ok.injEq] at h
    obtain ⟨_, hworking, _, rfl⟩ := h
    rw [Classical.not_not] at hworking
    exact .updated (by rw [hworking]; rfl) (.inl ⟨rfl, rfl, rfl, rfl, rfl, rfl⟩)
  | result value isError =>
    simp only [apply, McpServerRegistry.completeToolResult, McpServerRegistry.finishTask, hfound, ok_bind,
      bind_eq_ok, refuseIf_eq_ok, exists_unit, pure, Except.pure, Except.ok.injEq] at h
    obtain ⟨hworking, rfl⟩ := h
    rw [Classical.not_not] at hworking
    refine .updated (by rw [hworking]; rfl) (.inr ⟨?_, rfl, rfl⟩)
    cases isError <;> rfl
  | failed error =>
    simp only [apply, McpServerRegistry.failTask, McpServerRegistry.finishTask, hfound, ok_bind,
      bind_eq_ok, refuseIf_eq_ok, exists_unit, pure, Except.pure, Except.ok.injEq] at h
    obtain ⟨hworking, rfl⟩ := h
    rw [Classical.not_not] at hworking
    exact .updated (by rw [hworking]; rfl) (.inr ⟨rfl, rfl, rfl⟩)

/-- A report of a task that is not registered changes nothing. -/
theorem TaskReport.apply_unknown {report : TaskReport}
    (hget : reg.tasks[taskId]? = none) (h : report.apply reg taskId = .ok reg') : reg' = reg := by
  have hunknown : reg.reported taskId = .error (.notFound "MCP task is not registered") := by
    unfold McpServerRegistry.reported
    rw [hget]
    rfl
  cases report with
  | collected =>
    simp only [apply, McpServerRegistry.removeTerminalTask, hget, Except.ok.injEq] at h
    exact h.symm
  | cancelled => simp [apply, McpServerRegistry.confirmCancelTask, hunknown] at h
  | cancellationUnclear reason => simp [apply, McpServerRegistry.markCancelReconcileRequired, hunknown] at h
  | expired => simp [apply, McpServerRegistry.expireTask, hunknown] at h
  | progress made => simp [apply, McpServerRegistry.recordProgress, hunknown] at h
  | result value isError =>
    simp [apply, McpServerRegistry.completeToolResult, McpServerRegistry.finishTask, hunknown] at h
  | failed error => simp [apply, McpServerRegistry.failTask, McpServerRegistry.finishTask, hunknown] at h

end Reports

/-! ### Inversion -/

section Inversion

variable {reg : McpServerRegistry} {taskId : String} {task : McpTask} {correlation : CorrelationIdentity}
  {principal : Option ProtocolPrincipal}

/-- What an approval needs, less the contract. -/
structure Answerable (principal : Option ProtocolPrincipal) (task : McpTask)
    (response : McpApprovalResponse) : Prop where
  owned : McpServerRegistry.owns principal task = true
  awaits : task.status = .inputRequired
  challenge : ∃ challenge, task.pendingApproval = some challenge ∧
    challenge.approvalId = response.approvalId
  notCancelled : task.cancellation = none

theorem answerable_of_refusal {response : McpApprovalResponse}
    (h : McpServerRegistry.approvalRefusal principal task response = none) :
    Answerable principal task response := by
  unfold McpServerRegistry.approvalRefusal at h
  split at h
  · cases h
  · next howned =>
    split at h
    · cases h
    · next challenge hchallenge =>
      split at h
      · cases h
      · next hmatches =>
        split at h
        · cases h
        · next hcancel =>
          rw [not_or, Classical.not_not, Classical.not_not] at hmatches
          exact ⟨by simpa using howned, hmatches.1, ⟨challenge, hchallenge, hmatches.2⟩, by simpa using hcancel⟩

/-- What `prepare_cancel_task` does. -/
theorem cancelTask_cases (reg : McpServerRegistry) (correlation : CorrelationIdentity)
    (principal : Option ProtocolPrincipal) (taskId : String) :
    ((reg.prepareCancelTask correlation principal taskId).1 = reg ∧
      (reg.prepareCancelTask correlation principal taskId).2.action = none) ∨
    ∃ existing, reg.tasks[taskId]? = some existing ∧
      (McpServerRegistry.taskEnvelope correlation principal existing "tasks/cancel"
        "mcp:tasks:cancel").authorization.isAllowed = true ∧
      existing.status.isTerminal = false ∧
      (reg.prepareCancelTask correlation principal taskId).1 = reg.afterCancelRequest taskId existing ∧
      (reg.prepareCancelTask correlation principal taskId).2.action =
        some (.cancelTask ((reg.afterCancelRequest taskId existing).tasks[taskId]?.getD existing)) := by
  unfold McpServerRegistry.prepareCancelTask
  cases hget : reg.tasks[taskId]? with
  | none => exact .inl ⟨rfl, rfl⟩
  | some existing =>
    dsimp only
    split
    · exact .inl ⟨rfl, rfl⟩
    · next hallowed =>
      split
      · exact .inl ⟨rfl, rfl⟩
      · next hrunning =>
        rw [Bool.not_eq_false] at hallowed
        rw [Bool.not_eq_true] at hrunning
        exact .inr ⟨existing, rfl, hallowed, hrunning, rfl,
          GovernedAction.action_fromEnvelope.mpr ⟨hallowed, rfl⟩⟩

section

variable [Digest]

/-- What `prepare_tool_call` does. -/
theorem callTool_cases (reg : McpServerRegistry) (correlation : CorrelationIdentity)
    (principal : Option ProtocolPrincipal) (request : McpToolCallRequest) :
    ((reg.prepareToolCall correlation principal request).1 = reg ∧
      (reg.prepareToolCall correlation principal request).2.action = none) ∨
    ∃ tool owner task, reg.tools[request.name]? = some tool ∧ principal = some owner ∧
      (GovernanceEnvelope.evaluate correlation principal "tools/call" tool.name
        ((scopes ["mcp:tools:call"]).extend tool.requiredScopes.elements)).authorization.isAllowed = true ∧
      task = reg.newTask tool request (reg.newTaskCorrelation correlation) owner
        ((scopes ["mcp:tools:call"]).extend tool.requiredScopes.elements) ∧
      (reg.prepareToolCall correlation principal request).1 =
        { reg.bumpRevision with
          nextTaskSequence := saturatingAdd reg.nextTaskSequence 1
          tasks := reg.tasks.insert (taskIdOf reg.nextTaskSequence) task } ∧
      (reg.prepareToolCall correlation principal request).2.action =
        some (McpServerRegistry.newTaskAction task) := by
  unfold McpServerRegistry.prepareToolCall
  cases htool : reg.tools[request.name]? with
  | none => exact .inl ⟨rfl, rfl⟩
  | some tool =>
    cases principal with
    | none => exact .inl ⟨rfl, rfl⟩
    | some owner =>
      dsimp only
      split
      · exact .inl ⟨rfl, rfl⟩
      · next hallowed =>
        split
        · exact .inl ⟨rfl, rfl⟩
        · rw [Bool.not_eq_false] at hallowed
          exact .inr ⟨tool, owner, _, rfl, rfl, hallowed, rfl, rfl,
            GovernedAction.action_fromEnvelope.mpr ⟨hallowed, rfl⟩⟩

variable [JsonSchema]

/-- What `prepare_resume_approval` does. -/
theorem resumeApproval_cases (reg : McpServerRegistry) (correlation : CorrelationIdentity)
    (principal : Option ProtocolPrincipal) (taskId : String) (response : McpApprovalResponse) :
    ((reg.prepareResumeApproval correlation principal taskId response).1 = reg ∧
      (reg.prepareResumeApproval correlation principal taskId response).2.action = none) ∨
    ∃ existing, reg.tasks[taskId]? = some existing ∧
      (GovernanceEnvelope.evaluate (correlationWithTask correlation existing) principal "tasks/update" taskId
        existing.requiredScopes).authorization.isAllowed = true ∧
      Answerable principal existing response ∧
      (reg.prepareResumeApproval correlation principal taskId response).1 =
        reg.updateTask taskId (reg.resumed existing response.approved) ∧
      (reg.prepareResumeApproval correlation principal taskId response).2.action =
        some (
          let task := { reg.resumed existing response.approved with
            updatedRevision := reg.bumpRevision.revision }
          if task.status = .working then McpServerAction.invokeTool task else .approvalDenied task) := by
  unfold McpServerRegistry.prepareResumeApproval
  cases hget : reg.tasks[taskId]? with
  | none => exact .inl ⟨rfl, rfl⟩
  | some existing =>
    dsimp only
    split
    · exact .inl ⟨rfl, rfl⟩
    · next hallowed =>
      rw [Bool.not_eq_false] at hallowed
      cases hrefusal : McpServerRegistry.approvalRefusal principal existing response with
      | some refusal => exact .inl ⟨rfl, rfl⟩
      | none =>
        refine .inr ⟨existing, rfl, hallowed, answerable_of_refusal hrefusal, rfl, ?_⟩
        rw [GovernedAction.action_fromEnvelope]
        refine ⟨hallowed, ?_⟩
        rw [McpServerRegistry.get_updateTask, if_pos rfl]
        rfl

end

end Inversion

variable [JsonSchema] [Digest]

/-! ### Operations, and what they do -/

/-- What a query is answered. -/
def RegistryQuery.answer (reg : McpServerRegistry) (caller : Caller) : RegistryQuery → Decision
  | .listTools => reg.prepareListTools caller.correlation caller.principal
  | .listResources => reg.prepareListResources caller.correlation caller.principal
  | .listPrompts => reg.prepareListPrompts caller.correlation caller.principal
  | .listTasks => reg.prepareListTasks caller.correlation caller.principal
  | .readResource uri => reg.prepareReadResource caller.correlation caller.principal uri
  | .renderPrompt name arguments =>
    reg.prepareRenderPrompt caller.correlation caller.principal name arguments
  | .getTask taskId => reg.prepareGetTask caller.correlation caller.principal taskId
  | .recoverTask taskId => reg.prepareRecoverTask caller.correlation caller.principal taskId

namespace RegistryOp

/-- The registry after an operation. -/
def apply (reg : McpServerRegistry) : RegistryOp → McpServerRegistry
  | .registerTool tool => keeping reg (reg.registerTool tool)
  | .upsertTool tool => keeping reg ((reg.upsertTool tool).map (·.getD reg))
  | .registerResource resource => keeping reg (reg.registerResource resource)
  | .registerPrompt prompt => keeping reg (reg.registerPrompt prompt)
  | .callTool request caller => (reg.prepareToolCall caller.correlation caller.principal request).1
  | .resumeApproval taskId response caller =>
    (reg.prepareResumeApproval caller.correlation caller.principal taskId response).1
  | .cancelTask taskId caller => (reg.prepareCancelTask caller.correlation caller.principal taskId).1
  | .query _ _ => reg
  | .report taskId told => keeping reg (told.apply reg taskId)

/-- The action that an operation issues, and the principal that it is issued to. -/
def issues (reg : McpServerRegistry) : RegistryOp → Option (ProtocolPrincipal × McpServerAction)
  | .callTool request caller =>
    if (reg.inputError request.name request.arguments).isSome then none
    else issuedTo caller (reg.prepareToolCall caller.correlation caller.principal request).2
  | .resumeApproval taskId response caller =>
    issuedTo caller (reg.prepareResumeApproval caller.correlation caller.principal taskId response).2
  | .cancelTask taskId caller =>
    issuedTo caller (reg.prepareCancelTask caller.correlation caller.principal taskId).2
  | .query asked caller => issuedTo caller (asked.answer reg caller)
  | .registerTool _ | .upsertTool _ | .registerResource _ | .registerPrompt _ | .report _ _ => none
where
  /-- An action has a principal. -/
  issuedTo (caller : Caller) (decision : Decision) : Option (ProtocolPrincipal × McpServerAction) :=
    caller.principal.bind fun principal => decision.action.map (principal, ·)

end RegistryOp

/-- An answer that an operation takes for an approval of a task. -/
structure Accepts (reg : McpServerRegistry) (taskId : String) (task : McpTask)
    (response : McpApprovalResponse) (caller : Caller) : Prop where
  approved : response.approved = true
  answerable : Answerable caller.principal task response
  contract : reg.validateTaskContract task = .ok ()
  authorized : (GovernanceEnvelope.evaluate (correlationWithTask caller.correlation task) caller.principal
    "tasks/update" taskId task.requiredScopes).authorization.isAllowed = true

/-- What an operation may make of a task that is registered. -/
inductive TaskStep (reg : McpServerRegistry) (taskId : String) (task : McpTask) :
    RegistryOp → Option McpTask → Prop where
  | kept {op : RegistryOp} : TaskStep reg taskId task op (some task)
  /-- It goes on, with the standing that it has. -/
  | continued {op : RegistryOp} {task' : McpTask} (running : task.status.isTerminal = false)
    (same : SameStanding task task') : TaskStep reg taskId task op (some task')
  /-- It ends. -/
  | ended {op : RegistryOp} {task' : McpTask} (running : task.status.isTerminal = false)
    (terminal : task'.status.isTerminal = true) (taskId_eq : task'.taskId = task.taskId)
    (settled : task'.cancellation = none) : TaskStep reg taskId task op (some task')
  | removed (terminal : task.status.isTerminal = true) :
    TaskStep reg taskId task (.report taskId .collected) none
  /-- Its contract changed. -/
  | renewed {tool : McpToolDefinition} {revision : Nat} (running : task.status.isTerminal = false)
    (named : task.operation.name = tool.name) (differs : task.definitionHash ≠ tool.definitionHash) :
    TaskStep reg taskId task (.upsertTool tool)
      (some (McpServerRegistry.underNewContract tool revision task))
  /-- Its owner approved it. -/
  | resumed {response : McpApprovalResponse} {caller : Caller} {revision : Nat}
    (accepted : Accepts reg taskId task response caller) :
    TaskStep reg taskId task (.resumeApproval taskId response caller)
      (some { task with
        status := .working
        pendingApproval := none
        statusMessage := none
        updatedRevision := revision })

/-- The id of a new task is not in use. -/
def RegistryOp.Fresh (reg : McpServerRegistry) : RegistryOp → Prop
  | .callTool _ _ => reg.tasks[taskIdOf reg.nextTaskSequence]? = none
  | _ => True

namespace RegistryOp

variable {reg : McpServerRegistry} {taskId : String} {task : McpTask}

variable {revision : Nat}

/-- What an answer to an approval makes of the task. -/
theorem resumed_step {response : McpApprovalResponse} {caller : Caller}
    (hanswerable : Answerable caller.principal task response)
    (hauthorized : (GovernanceEnvelope.evaluate (correlationWithTask caller.correlation task)
      caller.principal "tasks/update" taskId task.requiredScopes).authorization.isAllowed = true) :
    TaskStep reg taskId task (.resumeApproval taskId response caller)
      (some { reg.resumed task response.approved with updatedRevision := revision }) := by
  have hrunning : task.status.isTerminal = false := by
    rw [hanswerable.awaits]
    rfl
  unfold McpServerRegistry.resumed
  split
  · next happroved =>
    split
    · exact .ended hrunning rfl rfl hanswerable.notCancelled
    · next hcontract => exact .resumed ⟨happroved, hanswerable, hcontract, hauthorized⟩
  · exact .ended hrunning rfl rfl hanswerable.notCancelled

/-- The registry that a new contract leaves. -/
def renewed (reg : McpServerRegistry) (tool : McpToolDefinition) : McpServerRegistry :=
  let reg := { reg with tools := reg.tools.insert tool.name tool }.bumpRevision
  { reg with tasks := reg.tasks.map fun _ => McpServerRegistry.underNewContract tool reg.revision }

variable {tool : McpToolDefinition}

omit [JsonSchema] in
theorem get_renewed : (renewed reg tool).tasks[taskId]? =
    reg.tasks[taskId]?.map (McpServerRegistry.underNewContract tool (renewed reg tool).revision) :=
  BTreeMap.get_map

/-- What `upsert_tool` does. -/
theorem upsertTool_cases (reg : McpServerRegistry) (tool : McpToolDefinition) :
    apply reg (.upsertTool tool) = reg ∨
      tool.validate = .ok () ∧ reg.tools[tool.name]? ≠ some tool ∧
        apply reg (.upsertTool tool) = renewed reg tool := by
  refine keeping_cases (P := fun next => next = reg ∨ _ ∧ _ ∧ next = _) (.inl rfl) fun reg' h => ?_
  unfold McpServerRegistry.upsertTool at h
  cases hvalid : tool.validate with
  | error error =>
    rw [hvalid] at h
    cases h
  | ok u =>
    rw [hvalid, ok_bind] at h
    split at h
    · cases h
      exact .inl rfl
    · next hdiffers =>
      cases h
      exact .inr ⟨rfl, hdiffers, rfl⟩

/-- What `register_tool` does. -/
theorem registerTool_cases (reg : McpServerRegistry) (tool : McpToolDefinition) :
    apply reg (.registerTool tool) = reg ∨
      tool.validate = .ok () ∧ reg.tools[tool.name]? = none ∧
        apply reg (.registerTool tool) =
          { reg with tools := reg.tools.insert tool.name tool }.bumpRevision := by
  refine keeping_cases (P := fun next => next = reg ∨ _ ∧ _ ∧ next = _) (.inl rfl) fun reg' h => ?_
  simp only [McpServerRegistry.registerTool, bind_eq_ok, refuseIf_eq_ok, exists_unit, pure, Except.pure,
    Except.ok.injEq] at h
  obtain ⟨hvalid, hnew, rfl⟩ := h
  rw [Bool.not_eq_true, BTreeMap.contains_eq_false] at hnew
  exact .inr ⟨hvalid, hnew, rfl⟩

omit [JsonSchema] in
theorem operation_underNewContract :
    (McpServerRegistry.underNewContract tool revision task).operation = task.operation := by
  unfold McpServerRegistry.underNewContract
  dsimp only
  split <;> rfl

omit [JsonSchema] in
theorem taskId_underNewContract :
    (McpServerRegistry.underNewContract tool revision task).taskId = task.taskId := by
  unfold McpServerRegistry.underNewContract
  dsimp only
  split <;> rfl

omit [JsonSchema] in
/-- A task whose contract changed has to be approved again. -/
theorem status_underNewContract
    (hrunning : task.status.isTerminal = false) (hnamed : task.operation.name = tool.name)
    (hdiffers : task.definitionHash ≠ tool.definitionHash) :
    (McpServerRegistry.underNewContract tool revision task).status = .inputRequired := by
  have hcond : ¬ (task.operation.name ≠ tool.name ∨ task.status.isTerminal = true ∨
      task.definitionHash = tool.definitionHash) := by
    rw [hrunning]
    simp [hnamed, hdiffers]
  have hnew : McpServerRegistry.underNewContract tool revision task = _ := if_neg hcond
  rw [hnew]

/-- What a new contract makes of a task. -/
theorem underNewContract_step :
    TaskStep reg taskId task (.upsertTool tool)
      (some (McpServerRegistry.underNewContract tool revision task)) := by
  by_cases hsame : task.operation.name ≠ tool.name ∨ task.status.isTerminal = true ∨
      task.definitionHash = tool.definitionHash
  · have hkept : McpServerRegistry.underNewContract tool revision task = task := if_pos hsame
    rw [hkept]
    exact .kept
  · rw [not_or, not_or, Classical.not_not, Bool.not_eq_true] at hsame
    exact .renewed hsame.2.1 hsame.1 hsame.2.2

/-- What an operation makes of the registry. -/
inductive OpStep (reg : McpServerRegistry) : RegistryOp → McpServerRegistry → Prop where
  | kept {op : RegistryOp} {reg' : McpServerRegistry} (tools : reg'.tools = reg.tools)
    (tasks : reg'.tasks = reg.tasks) (sequence : reg'.nextTaskSequence = reg.nextTaskSequence) :
    OpStep reg op reg'
  | registered {tool : McpToolDefinition} (valid : tool.validate = .ok ()) (new : reg.tools[tool.name]? = none) :
    OpStep reg (.registerTool tool) { reg with tools := reg.tools.insert tool.name tool }.bumpRevision
  | renewed {tool : McpToolDefinition} (valid : tool.validate = .ok ()) (differs : reg.tools[tool.name]? ≠ some tool) :
    OpStep reg (.upsertTool tool) (renewed reg tool)
  | called {request : McpToolCallRequest} {caller : Caller} {tool : McpToolDefinition} {owner : ProtocolPrincipal}
    (known : reg.tools[request.name]? = some tool) :
    OpStep reg (.callTool request caller) { reg.bumpRevision with
      nextTaskSequence := saturatingAdd reg.nextTaskSequence 1
      tasks := reg.tasks.insert (taskIdOf reg.nextTaskSequence)
        (reg.newTask tool request (reg.newTaskCorrelation caller.correlation) owner
          ((scopes ["mcp:tools:call"]).extend tool.requiredScopes.elements)) }
  | updated {op : RegistryOp} {id : String} {task task' : McpTask} (known : reg.tasks[id]? = some task)
    (step : TaskStep reg id task op (some { task' with updatedRevision := reg.bumpRevision.revision })) :
    OpStep reg op (reg.updateTask id task')
  | removed {id : String} {task : McpTask} (known : reg.tasks[id]? = some task)
    (terminal : task.status.isTerminal = true) :
    OpStep reg (.report id .collected) { reg with tasks := reg.tasks.erase id }.bumpRevision

/-- **What an operation does.** -/
theorem apply_step (reg : McpServerRegistry) (op : RegistryOp) : OpStep reg op (op.apply reg) := by
  have hkept (op : RegistryOp) : OpStep reg op reg := .kept rfl rfl rfl
  cases op with
  | registerTool tool =>
    rcases registerTool_cases reg tool with hreg | ⟨hvalid, hnew, hreg⟩ <;> rw [hreg]
    · exact hkept _
    · exact .registered hvalid hnew
  | upsertTool tool =>
    rcases upsertTool_cases reg tool with hreg | ⟨hvalid, hdiffers, hreg⟩ <;> rw [hreg]
    · exact hkept _
    · exact .renewed hvalid hdiffers
  | registerResource resource =>
    refine keeping_cases (P := OpStep reg _) (hkept _) fun reg' h => ?_
    simp only [McpServerRegistry.registerResource, bind_eq_ok, exists_unit, pure, Except.pure,
      Except.ok.injEq] at h
    obtain ⟨_, _, rfl⟩ := h
    exact .kept rfl rfl rfl
  | registerPrompt prompt =>
    refine keeping_cases (P := OpStep reg _) (hkept _) fun reg' h => ?_
    simp only [McpServerRegistry.registerPrompt, bind_eq_ok, exists_unit, pure, Except.pure,
      Except.ok.injEq] at h
    obtain ⟨_, _, rfl⟩ := h
    exact .kept rfl rfl rfl
  | callTool request caller =>
    rcases callTool_cases reg caller.correlation caller.principal
      request with ⟨hreg, _⟩ | ⟨tool, owner, new, htool, _, _, rfl, hreg, _⟩ <;> rw [apply, hreg]
    · exact hkept _
    · exact .called htool
  | resumeApproval id response caller =>
    rcases resumeApproval_cases reg caller.correlation caller.principal id response with
      ⟨hreg, _⟩ | ⟨existing, hid, hauthorized, hanswerable, hreg, _⟩ <;> rw [apply, hreg]
    · exact hkept _
    · exact .updated hid (resumed_step hanswerable hauthorized)
  | cancelTask id caller =>
    rcases cancelTask_cases reg caller.correlation caller.principal id with
      ⟨hreg, _⟩ | ⟨existing, hid, _, hrunning, hreg, _⟩ <;> rw [apply, hreg]
    · exact hkept _
    · unfold McpServerRegistry.afterCancelRequest
      split
      · exact .updated hid (.continued hrunning ⟨rfl, rfl, rfl, rfl, rfl, rfl⟩)
      · exact hkept _
  | query asked caller => exact hkept _
  | report id told =>
    refine keeping_cases (P := OpStep reg _) (hkept _) fun reg' h => ?_
    cases hid : reg.tasks[id]? with
    | none =>
      obtain rfl := told.apply_unknown hid h
      exact hkept _
    | some existing =>
      cases told.apply_step hid h with
      | nothing => exact hkept _
      | updated hrunning hupdate =>
        rcases hupdate with hsame | ⟨hover, hkey, hsettled⟩
        · exact .updated hid (.continued hrunning ⟨hsame.taskId, hsame.status, hsame.operation,
            hsame.requiredScopes, hsame.definitionHash, hsame.pendingApproval⟩)
        · exact .updated hid (.ended hrunning hover hkey hsettled)
      | removed hover hcollects =>
        subst hcollects
        exact .removed hid hover

/-- **What an operation does to a task.** -/
theorem task_step {op : RegistryOp} (hget : reg.tasks[taskId]? = some task) (hfresh : op.Fresh reg) :
    TaskStep reg taskId task op (op.apply reg).tasks[taskId]? := by
  have hkept : TaskStep reg taskId task op reg.tasks[taskId]? := by
    rw [hget]
    exact .kept
  have hstep := apply_step reg op
  generalize op.apply reg = next at hstep ⊢
  cases hstep with
  | kept _ htasks _ => rwa [htasks]
  | registered _ _ => exact hkept
  | renewed _ _ =>
    rw [get_renewed, hget]
    exact underNewContract_step
  | called _ =>
    have hne : taskIdOf reg.nextTaskSequence ≠ taskId := by
      rintro rfl
      rw [hfresh] at hget
      cases hget
    rw [BTreeMap.get_insert_of_ne hne]
    exact hkept
  | @updated _ id _ _ hid hstep =>
    rw [McpServerRegistry.get_updateTask]
    by_cases heq : id = taskId
    · subst heq
      cases hget.symm.trans hid
      rwa [if_pos rfl]
    · rwa [if_neg heq]
  | @removed id _ hid hover =>
    rw [McpServerRegistry.tasks_bumpRevision, BTreeMap.get_erase]
    by_cases heq : id = taskId
    · subst heq
      cases hget.symm.trans hid
      rw [if_pos rfl]
      exact .removed hover
    · rwa [if_neg heq]

/-- **What an operation does to the definition of a tool.** -/
theorem tools_step (reg : McpServerRegistry) (op : RegistryOp) (name : String) :
    (op.apply reg).tools[name]? = reg.tools[name]? ∨
      ∃ tool, tool.name = name ∧ tool.validate = .ok () ∧ (op.apply reg).tools[name]? = some tool ∧
        (reg.tools[name]? = none ∨ op = .upsertTool tool ∧ reg.tools[name]? ≠ some tool) := by
  have hinsert (tool : McpToolDefinition) :
      (reg.tools.insert tool.name tool)[name]? = reg.tools[name]? ∨
        tool.name = name ∧ (reg.tools.insert tool.name tool)[name]? = some tool := by
    rw [BTreeMap.get_insert]
    by_cases heq : tool.name = name
    · exact .inr ⟨heq, if_pos heq⟩
    · exact .inl (if_neg heq)
  have hstep := apply_step reg op
  generalize op.apply reg = next at hstep ⊢
  cases hstep with
  | kept htools _ _ => exact .inl (by rw [htools])
  | @registered tool hvalid hnew =>
    rcases hinsert tool with hkept | ⟨rfl, hget⟩
    · exact .inl hkept
    · exact .inr ⟨tool, rfl, hvalid, hget, .inl hnew⟩
  | @renewed tool hvalid hdiffers =>
    rcases hinsert tool with hkept | ⟨rfl, hget⟩
    · exact .inl hkept
    · exact .inr ⟨tool, rfl, hvalid, hget, .inr ⟨rfl, hdiffers⟩⟩
  | called _ | updated _ _ | removed _ _ => exact .inl rfl

/-- A task that comes to be is one that a call created. -/
theorem created_step {op : RegistryOp} (hget : reg.tasks[taskId]? = none)
    (hafter : (op.apply reg).tasks[taskId]? = some task) :
    ∃ request caller tool owner, op = .callTool request caller ∧ taskId = taskIdOf reg.nextTaskSequence ∧
      reg.tools[request.name]? = some tool ∧
      task = reg.newTask tool request (reg.newTaskCorrelation caller.correlation) owner
        ((scopes ["mcp:tools:call"]).extend tool.requiredScopes.elements) ∧
      (op.apply reg).nextTaskSequence = saturatingAdd reg.nextTaskSequence 1 := by
  have hstep := apply_step reg op
  generalize op.apply reg = next at hstep hafter ⊢
  cases hstep with
  | kept _ htasks _ =>
    rw [htasks, hget] at hafter
    cases hafter
  | registered _ _ => cases hget.symm.trans hafter
  | renewed _ _ =>
    rw [get_renewed, hget] at hafter
    cases hafter
  | @called request caller tool owner htool =>
    rcases BTreeMap.get_insert_eq_some hafter with ⟨hid, hnew⟩ | ⟨_, hold⟩
    · exact ⟨request, caller, tool, owner, rfl, hid.symm, htool, hnew.symm, rfl⟩
    · cases hget.symm.trans hold
  | updated hid _ =>
    rw [McpServerRegistry.get_updateTask, if_neg, hget] at hafter
    · cases hafter
    · rintro rfl
      cases hget.symm.trans hid
  | removed _ _ =>
    rw [McpServerRegistry.tasks_bumpRevision, BTreeMap.get_erase] at hafter
    split at hafter
    · cases hafter
    · cases hget.symm.trans hafter

/-- The sequence of task ids goes on, or stays. -/
theorem sequence_step (reg : McpServerRegistry) (op : RegistryOp) :
    (op.apply reg).nextTaskSequence = reg.nextTaskSequence ∨
      (op.apply reg).nextTaskSequence = saturatingAdd reg.nextTaskSequence 1 := by
  have hstep := apply_step reg op
  generalize op.apply reg = next at hstep ⊢
  cases hstep with
  | kept _ _ hsequence => exact .inl hsequence
  | called _ => exact .inr rfl
  | registered _ _ | renewed _ _ | updated _ _ | removed _ _ => exact .inl rfl

end RegistryOp

/-! ### Entries of the log -/

/-- An operation, and the registry that it found. -/
structure RegistryEntry where
  before : McpServerRegistry
  op : RegistryOp

namespace RegistryEntry

variable (e : RegistryEntry)

/-- The registry that the operation left. -/
def after : McpServerRegistry := e.op.apply e.before

/-- The definition of a tool changed. -/
def Changes (name : String) : Prop := e.after.tools[name]? ≠ e.before.tools[name]?

/-- A task came to be. -/
def Creates (taskId : String) : Prop :=
  e.before.tasks[taskId]? = none ∧ ∃ task, e.after.tasks[taskId]? = some task

/-- A challenge was offered to the owner of a task, for what its tool now is. -/
def Offers (taskId : String) (challenge : McpApprovalChallenge) : Prop :=
  ∃ task, e.after.tasks[taskId]? = some task ∧ task.pendingApproval = some challenge ∧
    (e.Creates taskId ∨ e.Changes task.operation.name)

/-- The owner of a task approved the challenge that it was offered. -/
def Approves (taskId : String) (challenge : McpApprovalChallenge) : Prop :=
  ∃ response caller task,
    e.op = .resumeApproval taskId response caller ∧ response.approved = true ∧
      e.before.tasks[taskId]? = some task ∧ task.pendingApproval = some challenge ∧
      response.approvalId = challenge.approvalId ∧
      McpServerRegistry.owns caller.principal task = true

end RegistryEntry

/-- One operation. -/
def RegistryStep (reg : McpServerRegistry) (e : RegistryEntry) (reg' : McpServerRegistry) : Prop :=
  e.before = reg ∧ reg' = e.after

/-- What an owner approved in a run: a challenge for what the tool has been since. -/
def Approved (log : List RegistryEntry) (taskId name : String) : Prop :=
  ∃ before offer between approval after challenge,
    log = before ++ offer :: (between ++ approval :: after) ∧
      offer.Offers taskId challenge ∧ approval.Approves taskId challenge ∧
      ∀ e ∈ between ++ approval :: after, ¬ e.Changes name

/-- The tool is as it was when the task came to be. -/
def Unchanged (log : List RegistryEntry) (taskId name : String) : Prop :=
  ∃ before creation after,
    log = before ++ creation :: after ∧ creation.Creates taskId ∧
      ∀ e ∈ after, ¬ e.Creates taskId ∧ ¬ e.Changes name

end AikitRuntime.Mcp
