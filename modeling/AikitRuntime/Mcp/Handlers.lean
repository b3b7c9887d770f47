import AikitRuntime.Mcp.Contracts
import AikitRuntime.Mcp.Releases

/-!
# What a request does

Every handler does the same few things: it may let tasks expire, it may create a task or request the
cancellation of one, and it leaves a receipt that has its response or waits for it. `Served` says so for
any request that was authorized, and `dispatchInitialized_served` that every handler is of this kind.
-/

namespace AikitRuntime.Mcp

open Library Durability McpJsonRpcServer McpServerRegistry McpServerState
open Agent (JsonSchema)

section Moves

/-! ### Steps -/

/-- The operations of a registry that a server performs on tasks that exist. The results that it stores
fit. -/
inductive Tending (Fits : Value → Prop) : RegistryOp → Prop where
  | upsertTool (tool : McpToolDefinition) : Tending Fits (.upsertTool tool)
  | resumeApproval (taskId : String) (response : McpApprovalResponse) (caller : Caller) :
    Tending Fits (.resumeApproval taskId response caller)
  | cancelTask (taskId : String) (caller : Caller) : Tending Fits (.cancelTask taskId caller)
  | report (taskId : String) {told : TaskReport} (fits : ∀ value isError, told = .result value isError → Fits value)
    (stays : told ≠ .collected) : Tending Fits (.report taskId told)

variable [JsonSchema] [Digest]

/-- What the server makes of its state. -/
inductive Tends (Fits : Value → Prop) : McpServerState → McpServerState → Prop where
  /-- Nothing has happened. -/
  | refl (s : McpServerState) : Tends Fits s s
  /-- One thing after another. -/
  | trans {a b c : McpServerState} (first : Tends Fits a b) (rest : Tends Fits b c) : Tends Fits a c
  /-- The registry is asked for something that needs no change beside it. -/
  | operated (s : McpServerState) {op : RegistryOp} (h : Tending Fits op) :
    Tends Fits s { s with registry := op.apply s.registry }
  /-- A tool is called, and the metadata of its task is kept beside the registry. -/
  | called (s : McpServerState) (request : McpToolCallRequest) (caller : Caller) (metadata : McpTaskWireMetadata) :
    Tends Fits s { s with
      registry := (RegistryOp.callTool request caller).apply s.registry
      taskMetadata := s.taskMetadata.insert (taskIdOf s.registry.nextTaskSequence) metadata }
  /-- A task is collected, and its metadata with it. -/
  | collected {s : McpServerState} {taskId : String} {registry : McpServerRegistry}
    (h : TaskReport.collected.apply s.registry taskId = .ok registry) :
    Tends Fits s { s with registry, taskMetadata := s.taskMetadata.erase taskId }
  /-- Metadata is added or changed, and none is forgotten. -/
  | annotated (s : McpServerState) (taskMetadata : BTreeMap McpTaskWireMetadata)
    (h : ∀ id : String, taskMetadata[id]? = none → s.taskMetadata[id]? = none) :
    Tends Fits s { s with taskMetadata }
  /-- The receipts, the connections and the revision of the storage change. -/
  | noted (s : McpServerState) (receipts : BTreeMap McpRequestReceipt) (connections : BTreeMap McpConnectionState)
    (storageRevision : Nat) : Tends Fits s { s with receipts, connections, storageRevision }

namespace Tends

variable {Fits : Value → Prop} {s s' : McpServerState}

theorem receipts (s : McpServerState) (receipts : BTreeMap McpRequestReceipt) :
    Tends Fits s { s with receipts } := noted s receipts s.connections s.storageRevision

theorem stamped (h : Tends Fits s s') (expected : Nat) : Tends Fits s (s'.stamped expected) :=
  h.trans (noted s' s'.receipts s'.connections _)

/-- A report that succeeds. -/
theorem reported {taskId : String} {told : TaskReport} {registry : McpServerRegistry}
    (h : told.apply s.registry taskId = .ok registry)
    (hfits : ∀ value isError, told = .result value isError → Fits value) (hstays : told ≠ .collected) :
    Tends Fits s { s with registry } := by
  have hstep := operated s (Tending.report taskId hfits hstays)
  have happly : (RegistryOp.report taskId told).apply s.registry = registry := by
    show keeping s.registry (told.apply s.registry taskId) = registry
    rw [h]
    rfl
  rwa [happly] at hstep

/-- A report without a result. -/
theorem told {taskId : String} {told : TaskReport} {registry : McpServerRegistry}
    (h : told.apply s.registry taskId = .ok registry) (hplain : ∀ value isError, told ≠ .result value isError)
    (hstays : told ≠ .collected) : Tends Fits s { s with registry } :=
  reported h (fun value isError heq => absurd heq (hplain value isError)) hstays

theorem cancelled (s : McpServerState) (identity : CorrelationIdentity) (principal : Option ProtocolPrincipal)
    (taskId : String) :
    Tends Fits s { s with registry := (s.registry.prepareCancelTask identity principal taskId).1 } :=
  operated s (.cancelTask taskId ⟨identity, principal⟩)

end Tends

/-! ### Times, releases and expiry -/

section Time

variable {Fits : Value → Prop} {s s' : McpServerState} {taskId now : String} {nowUnixMs : Nat}

theorem tends_updateTaskTime : Tends Fits s (s.updateTaskTime taskId now nowUnixMs) := by
  have hsame := sameMetadata_updateTaskTime s taskId now nowUnixMs
  obtain ⟨taskMetadata, hfields⟩ := updateTaskTime_fields s taskId now nowUnixMs
  rw [hfields] at hsame ⊢
  refine .annotated s taskMetadata fun id hnone => ?_
  have hrel := hsame id
  dsimp only at hrel
  rw [hnone] at hrel
  generalize s.taskMetadata[id]? = old at hrel ⊢
  cases hrel
  rfl

theorem tends_stampTask : Tends Fits s (s.stampTask taskId now nowUnixMs) := by
  unfold stampTask
  split
  · exact .refl s
  · exact tends_updateTaskTime

theorem tends_releaseTask {result : ProtocolResult Value} :
    Tends Fits s (s.releaseTask taskId result now nowUnixMs).1 := by
  unfold releaseTask
  exact tends_stampTask.trans (.trans (.receipts _ _) (.receipts _ _))

theorem tends_expireTasks {ids : List String} {outbound : List McpOutboundMessage}
    (h : expireTasks now nowUnixMs ids s = .ok (s', outbound)) : Tends Fits s s' := by
  induction ids generalizing s outbound with
  | nil =>
    cases h
    exact .refl _
  | cons id rest ih =>
    unfold expireTasks at h
    obtain ⟨registry, hexpire, h⟩ := bind_eq_ok.mp h
    dsimp only at h
    obtain ⟨⟨next, more⟩, hrest, h⟩ := bind_eq_ok.mp h
    cases h
    have happly : TaskReport.expired.apply s.registry id = .ok registry := hexpire
    have hexpired : Tends Fits s { s with registry } := .told happly (by rintro _ _ ⟨⟩) (by rintro ⟨⟩)
    exact hexpired.trans (tends_releaseTask.trans (ih hrest))

theorem tends_expireFirst {clock : Readings} {outbound : List McpOutboundMessage}
    (h : expireFirst clock s = .ok (s', outbound)) : Tends Fits s s' := tends_expireTasks h

end Time

/-- A failure of the arguments that is recorded as the result of the task fits. -/
def FailuresFit (Fits : Value → Prop) (registry : McpServerRegistry) : Prop :=
  ∀ name arguments message, registry.inputError name arguments = some message → Fits (toolExecutionError message)

/-! ### Tasks -/

/-- The tasks in an action. -/
def McpServerAction.tasks : McpServerAction → List McpTask
  | .invokeTool task | .awaitApproval task _ | .getTask task | .cancelTask task | .approvalDenied task =>
    [task]
  | .listTasks tasks => tasks
  | .listTools _ | .listResources _ | .readResource _ | .listPrompts _ | .renderPrompt _ _ => []

/-- An action is about tasks of the principal only. -/
def McpServerAction.Own (principal : ProtocolPrincipal) (action : McpServerAction) : Prop :=
  ∀ task ∈ action.tasks, owns (some principal) task = true

/-- What a decision lets through is about tasks of the principal only. -/
def OwnDecision (principal : ProtocolPrincipal) (decision : Decision) : Prop :=
  ∀ action, decision.action = some action → action.Own principal

/-- What a request of a principal may make of a task. -/
inductive TaskFate (principal : ProtocolPrincipal) (fresh id : String) :
    Option McpTask → Option McpTask → Prop where
  | same {task : Option McpTask} : TaskFate principal fresh id task task
  | cancelling {task : McpTask} (owned : owns (some principal) task = true)
    (running : task.status.isTerminal = false) (revision : Nat) :
    TaskFate principal fresh id (some task)
      (some { requestCancellation task with updatedRevision := revision })
  | created {old : Option McpTask} {task : McpTask} (isFresh : id = fresh)
    (owned : owns (some principal) task = true) :
    TaskFate principal fresh id old (some task)

/-- What a request of a principal may make of the tasks. -/
structure TaskMove (principal : ProtocolPrincipal) (s s' : McpServerState) : Prop where
  tends : ∀ Fits, FailuresFit Fits s.registry → Tends Fits s s'
  schemaVersion : s'.schemaVersion = s.schemaVersion
  storageRevision : s'.storageRevision = s.storageRevision
  connections : s'.connections = s.connections
  receipts : s'.receipts = s.receipts
  tools : s'.registry.tools = s.registry.tools
  tasks : ∀ id : String, TaskFate principal (taskIdOf s.registry.nextTaskSequence) id
    s.registry.tasks[id]? s'.registry.tasks[id]?
  metadata : ∀ id : String, id = taskIdOf s.registry.nextTaskSequence ∨
    Option.Rel SameWire s.taskMetadata[id]? s'.taskMetadata[id]?

theorem TaskMove.refl (principal : ProtocolPrincipal) (s : McpServerState) : TaskMove principal s s :=
  ⟨fun _ _ => .refl s, rfl, rfl, rfl, rfl, rfl, fun _ => .same, fun id => .inr (SameMetadata.refl s id)⟩

/-- The times of a task are of no account. -/
theorem TaskMove.stamped {principal : ProtocolPrincipal} {s s' : McpServerState} (h : TaskMove principal s s')
    (taskId now : String) (nowUnixMs : Nat) :
    TaskMove principal s (s'.updateTaskTime taskId now nowUnixMs) := by
  have htends (Fits : Value → Prop) (hfails : FailuresFit Fits s.registry) := (h.tends Fits hfails).trans
    (@tends_updateTaskTime _ _ Fits s' taskId now nowUnixMs)
  have hsame := sameMetadata_updateTaskTime s' taskId now nowUnixMs
  obtain ⟨taskMetadata, hfields⟩ := updateTaskTime_fields s' taskId now nowUnixMs
  rw [hfields] at hsame htends ⊢
  refine ⟨htends, h.schemaVersion, h.storageRevision, h.connections, h.receipts, h.tools, h.tasks, fun id => ?_⟩
  exact (h.metadata id).imp_right fun hrel => sameWire_trans hrel (hsame id)

variable {principal : ProtocolPrincipal} {s : McpServerState} {identity : CorrelationIdentity}
  {taskId : String}

/-- A request for a cancellation. -/
theorem move_cancelTask (principal : ProtocolPrincipal) (s : McpServerState) (identity : CorrelationIdentity)
    (taskId : String) : TaskMove principal s { s with
      registry := (s.registry.prepareCancelTask identity (some principal) taskId).1 } ∧
    OwnDecision principal (s.registry.prepareCancelTask identity (some principal) taskId).2 := by
  have htends (Fits : Value → Prop) := @Tends.cancelled _ _ Fits s identity (some principal) taskId
  rcases cancelTask_cases s.registry identity (some principal) taskId with
    ⟨hkept, hnone⟩ | ⟨existing, hget, hallowed, hrunning, hnext, haction⟩
  · rw [hkept]
    refine ⟨.refl principal s, fun action ha => ?_⟩
    rw [hnone] at ha
    cases ha
  · have howned : owns (some principal) existing = true := (isAllowed_ofOwner hallowed).2
    unfold afterCancelRequest at hnext haction
    rw [hnext] at htends ⊢
    split at haction
    · next huncancelled =>
      rw [if_pos huncancelled] at htends ⊢
      refine ⟨⟨fun Fits _ => htends Fits, rfl, rfl, rfl, rfl, rfl, fun id => ?_, fun id => .inr (SameMetadata.refl s id)⟩, ?_⟩
      · dsimp only
        rw [get_updateTask]
        by_cases heq : taskId = id
        · rw [if_pos heq, ← heq, hget]
          exact .cancelling howned hrunning _
        · rw [if_neg heq]
          exact .same
      · intro action ha task htask
        rw [haction, Option.some.injEq] at ha
        rw [← ha] at htask
        obtain rfl := List.mem_singleton.mp htask
        rw [get_updateTask, if_pos rfl]
        exact howned
    · next hcancelled =>
      rw [if_neg hcancelled]
      refine ⟨.refl principal s, fun action ha task htask => ?_⟩
      rw [haction, Option.some.injEq] at ha
      rw [← ha] at htask
      obtain rfl := List.mem_singleton.mp htask
      rw [hget]
      exact howned

/-- A new task, with its metadata. -/
theorem move_created {registry : McpServerRegistry} {task : McpTask} {metadata : McpTaskWireMetadata}
    (hfresh : taskId = taskIdOf s.registry.nextTaskSequence) (htools : registry.tools = s.registry.tools)
    (htasks : ∀ id : String, registry.tasks[id]? =
      if taskId = id then some task else s.registry.tasks[id]?)
    (howned : owns (some principal) task = true)
    (htends : ∀ Fits, FailuresFit Fits s.registry →
      Tends Fits s { s with registry, taskMetadata := s.taskMetadata.insert taskId metadata }) :
    TaskMove principal s { s with registry, taskMetadata := s.taskMetadata.insert taskId metadata } := by
  refine ⟨htends, rfl, rfl, rfl, rfl, htools, fun id => ?_, fun id => ?_⟩
  · dsimp only
    rw [htasks]
    by_cases heq : taskId = id
    · rw [if_pos heq]
      exact .created (heq.symm.trans hfresh) howned
    · rw [if_neg heq]
      exact .same
  · by_cases heq : taskId = id
    · exact .inl (heq.symm.trans hfresh)
    · refine .inr ?_
      dsimp only
      rw [BTreeMap.get_insert_of_ne heq]
      exact SameMetadata.refl s id

variable {task : McpTask}

omit [JsonSchema] [Digest] in
/-- The result of a tool ends its task. -/
theorem completeToolResult_spec {registry registry' : McpServerRegistry} {result : Value}
    {isError : Bool} (hget : registry.tasks[taskId]? = some task)
    (h : registry.completeToolResult taskId result isError = .ok registry') :
    task.status = .working ∧ registry'.tools = registry.tools ∧
      ∃ task', task'.taskId = task.taskId ∧ task'.ownerSubject = task.ownerSubject ∧
        task'.ownerTenantId = task.ownerTenantId ∧
        ∀ id : String, registry'.tasks[id]? = if taskId = id then some task' else registry.tasks[id]? := by
  unfold completeToolResult finishTask reported at h
  simp only [hget, okOr_some, ok_bind, bind_eq_ok, refuseIf_eq_ok, exists_unit, pure, Except.pure,
    Except.ok.injEq, Classical.not_not] at h
  obtain ⟨hworking, rfl⟩ := h
  refine ⟨hworking, rfl, _, ?_, ?_, ?_, fun id => get_updateTask⟩
  · rfl
  · rfl
  · rfl

/-- What a tool call creates. -/
structure Created (principal : ProtocolPrincipal) (s : McpServerState) (call : CallParams)
    (registry : McpServerRegistry) (task : McpTask) : Prop where
  tends : ∀ Fits metadata, Tends Fits s { s with
    registry, taskMetadata := s.taskMetadata.insert (taskIdOf s.registry.nextTaskSequence) metadata }
  taskId : task.taskId = taskIdOf s.registry.nextTaskSequence
  owned : owns (some principal) task = true
  tools : registry.tools = s.registry.tools
  tasks : ∀ id : String, registry.tasks[id]? =
    if taskIdOf s.registry.nextTaskSequence = id then some task else s.registry.tasks[id]?
  status : ∃ tool, s.registry.tools[call.name]? = some tool ∧
    task.status = if tool.requiresApproval then .inputRequired else .working

theorem Created.running {call : CallParams} {registry : McpServerRegistry}
    (h : Created principal s call registry task) : task.status.isTerminal = false := by
  obtain ⟨tool, _, hstatus⟩ := h.status
  rw [hstatus]
  split <;> rfl

/-- A tool call. -/
theorem created_callTool (principal : ProtocolPrincipal) (s : McpServerState) (identity : CorrelationIdentity)
    (call : CallParams) :
    ((s.registry.prepareToolCall identity (some principal) ⟨call.name, call.arguments, call.executionMode⟩).1 =
        s.registry ∧
      (s.registry.prepareToolCall identity (some principal)
        ⟨call.name, call.arguments, call.executionMode⟩).2.action = none) ∨
    ∃ task, Created principal s call (s.registry.prepareToolCall identity (some principal)
        ⟨call.name, call.arguments, call.executionMode⟩).1 task ∧
      (s.registry.prepareToolCall identity (some principal)
        ⟨call.name, call.arguments, call.executionMode⟩).2.action =
          some (newTaskAction task) := by
  refine (callTool_cases s.registry identity (some principal)
    ⟨call.name, call.arguments, call.executionMode⟩).imp_right ?_
  rintro ⟨tool, owner, task, htool, howner, _, htask, hnext, haction⟩
  cases howner
  refine ⟨task, ⟨fun Fits metadata => ?_, ?_, ?_, ?_, ?_, tool, htool, ?_⟩, haction⟩
  · exact .called s ⟨call.name, call.arguments, call.executionMode⟩ ⟨identity, some principal⟩ metadata
  · rw [htask]
    rfl
  · rw [htask]
    simp [owns, newTask, ProtocolPrincipal.matchesIdentity]
  · rw [hnext]
    rfl
  · intro id
    rw [hnext]
    exact BTreeMap.get_insert
  · rw [htask]
    rfl

omit [JsonSchema] [Digest] in
theorem actionTask_newTaskAction (task : McpTask) :
    actionTask (newTaskAction task) = some task := by
  unfold newTaskAction
  split <;> rfl

omit [JsonSchema] [Digest] in
theorem own_newTaskAction (h : owns (some principal) task = true) :
    (newTaskAction task).Own principal := by
  unfold newTaskAction
  split
  · intro task' htask'
    obtain rfl := List.mem_singleton.mp htask'
    exact h
  · intro task' htask'
    obtain rfl := List.mem_singleton.mp htask'
    exact h

end Moves

/-! ### Requests -/

section Requests

variable [JsonSchema] [Digest]

/-- The state of a request, after the expiry that some of the handlers start with. -/
inductive Later (clock : Readings) (s : McpServerState) :
    McpServerState → List McpOutboundMessage → Prop where
  | now : Later clock s s []
  | expired {s' : McpServerState} {maintenance : List McpOutboundMessage}
    (h : expireFirst clock s = .ok (s', maintenance)) : Later clock s s' maintenance

/-- The state of a receipt that a request leaves, and what the request is answered. -/
inductive Awaits (ctx : RequestContext) (id : Value) (s : McpServerState) :
    McpReceiptState → McpJsonRpcDispatch → Prop where
  | answered {response : Value} {at_ : Nat} {outbound : List McpOutboundMessage} {decision : Option Decision}
    (hid : response.get "id" = some id) :
    Awaits ctx id s (.completed response at_) ⟨some response, outbound, decision, none⟩
  | host {operation : String} {outbound : List McpOutboundMessage} {decision : Decision} :
    Awaits ctx id s (.pendingHost operation none)
      ⟨none, outbound, some decision, some ⟨ctx.connectionId, id, operation⟩⟩
  | call {task : McpTask} {outbound : List McpOutboundMessage} {decision : Decision}
    (registered : s.registry.tasks[task.taskId]? = some task) (running : task.status.isTerminal = false) :
    Awaits ctx id s (.pendingHost "tools/call" (some task.taskId))
      ⟨none, outbound, some decision, some ⟨ctx.connectionId, id, "tools/call"⟩⟩
  | result {taskId : String} {task : McpTask} {outbound : List McpOutboundMessage} {decision : Decision}
    (registered : s.registry.tasks[taskId]? = some task) (running : task.status.isTerminal = false) :
    Awaits ctx id s (.waitingForTask taskId)
      ⟨none, outbound, some decision, some ⟨ctx.connectionId, id, "tasks/result"⟩⟩

/-- A request about a task that is refused before its task is looked at. The messages of the expiry are
not handed over then. -/
def Drops (ctx : RequestContext) (s : McpServerState) : Prop :=
  ctx.request.params.getStr "taskId" = none ∨
    ctx.request.method = "tasks/cancel" ∧ ∃ taskId, ctx.request.params.getStr "taskId" = some taskId ∧
      s.registry.tasks[taskId]?.any (·.advertised) = false

/-- What a request that was authorized does. -/
inductive Served (clock : Readings) (ctx : RequestContext) (s : McpServerState) :
    Handled McpJsonRpcDispatch → Prop where
  | ignored (hid : ctx.request.id = none) : Served clock ctx s (none, .notification)
  | refused {id : Value} {code : JsonRpcCode} {message : String} (hid : ctx.request.id = some id) :
    Served clock ctx s (none, .respond (jsonrpcError id code message none))
  | unauthorized {decision : Decision} (hid : ctx.request.id = none) (hown : OwnDecision ctx.principal decision) :
    Served clock ctx s (none, ⟨none, [], some decision, none⟩)
  | cancelling {s₁ s₂ : McpServerState} {maintenance : List McpOutboundMessage} {decision : Decision}
    (hid : ctx.request.id = none) (later : Later clock s s₁ maintenance) (move : TaskMove ctx.principal s₁ s₂)
    (hown : OwnDecision ctx.principal decision) :
    Served clock ctx s (some s₂, ⟨none, maintenance, some decision, none⟩)
  | receipted {s₁ s₂ : McpServerState} {maintenance : List McpOutboundMessage} {id : Value}
    {receiptState : McpReceiptState} {dispatch : McpJsonRpcDispatch}
    (hid : ctx.request.id = some id) (later : Later clock s s₁ maintenance) (move : TaskMove ctx.principal s₁ s₂)
    (awaits : Awaits ctx id s₂ receiptState dispatch)
    (told : dispatch.outbound = maintenance ∨ dispatch.outbound = [] ∧ Drops ctx s₁)
    (hown : ∀ decision, dispatch.governedAction = some decision → OwnDecision ctx.principal decision) :
    Served clock ctx s (some (s₂.insertReceipt ctx.connectionId ctx.request id ctx.requestHash
      clock.creating receiptState), dispatch)

/-- A handler that succeeds. -/
def Serves (clock : Readings) (ctx : RequestContext) (s : McpServerState)
    (result : ProtocolResult (Handled McpJsonRpcDispatch)) : Prop :=
  ∀ handled, result = .ok handled → Served clock ctx s handled

section Handlers

variable {server : McpJsonRpcServer} {clock : Readings} {ctx : RequestContext} {s : McpServerState}

variable {id : Value}

/-- A response that is recorded. -/
theorem Served.recorded {s₁ s₂ : McpServerState} {maintenance : List McpOutboundMessage} {response : Value}
    {outbound : List McpOutboundMessage} {decision : Option Decision}
    (hid : ctx.request.id = some id) (later : Later clock s s₁ maintenance) (move : TaskMove ctx.principal s₁ s₂)
    (hresponse : response.get "id" = some id)
    (told : outbound = maintenance ∨ outbound = [] ∧ Drops ctx s₁)
    (hown : ∀ made, decision = some made → OwnDecision ctx.principal made) :
    Served clock ctx s (recorded clock s₂ ctx id response outbound decision) :=
  .receipted hid later move (.answered hresponse) told hown

variable {message : String}

/-- An error that is recorded, at once. -/
theorem Served.wireError {code : JsonRpcCode} (hid : ctx.request.id = some id) :
    Served clock ctx s (completeWireError clock s ctx id code message) := by
  refine .recorded hid .now (.refl _ _) (get_id_jsonrpcError ..) (.inl rfl) ?_
  rintro _ ⟨⟩

variable {decision : Decision} {principal : ProtocolPrincipal}

omit [JsonSchema] [Digest] in
/-- An action that shows nothing of a task. -/
theorem own_of_tasks
    (h : ∀ action, decision.action = some action → action.tasks = []) : OwnDecision principal decision := by
  intro action haction task htask
  rw [h action haction] at htask
  cases htask

theorem Serves.ok {handled : Handled McpJsonRpcDispatch} (h : Served clock ctx s handled) :
    Serves clock ctx s (.ok handled) := by
  rintro _ ⟨⟩
  exact h

/-- Something that may fail, and then a handler. -/
theorem Serves.bind {β : Type} {x : ProtocolResult β} {f : β → ProtocolResult (Handled McpJsonRpcDispatch)}
    (h : ∀ b, x = .ok b → Serves clock ctx s (f b)) : Serves clock ctx s (x >>= f) := by
  intro handled hbind
  obtain ⟨b, hx, hf⟩ := bind_eq_ok.mp hbind
  exact h b hx handled hf

/-- A request that is answered from the registry. -/
theorem serves_answerDecision {decide : CorrelationIdentity → Decision}
    {render : McpServerAction → Option Value}
    (hown : ∀ identity, OwnDecision ctx.principal (decide identity)) :
    Serves clock ctx s (answerDecision clock s ctx decide render) := by
  unfold answerDecision
  split
  · next hid => exact .ok (.ignored hid)
  · next id hid =>
    refine .bind fun identity _ => .ok (.recorded hid .now (.refl _ _) ?_ (.inl rfl) ?_)
    · split
      · exact get_id_jsonrpcResult ..
      · exact get_id_jsonrpcError ..
    · rintro _ ⟨⟩
      exact hown identity

theorem serves_listTools : Serves clock ctx s (listTools clock s ctx) := by
  refine serves_answerDecision fun identity => own_of_tasks fun action haction => ?_
  rw [← (GovernedAction.action_fromEnvelope.mp haction).2]
  rfl

theorem serves_listResources : Serves clock ctx s (listResources clock s ctx) := by
  refine serves_answerDecision fun identity => own_of_tasks fun action haction => ?_
  rw [← (GovernedAction.action_fromEnvelope.mp haction).2]
  rfl

theorem serves_listPrompts : Serves clock ctx s (listPrompts clock s ctx) := by
  refine serves_answerDecision fun identity => own_of_tasks fun action haction => ?_
  rw [← (GovernedAction.action_fromEnvelope.mp haction).2]
  rfl

/-! #### Calls -/

variable {registry : McpServerRegistry}

/-- A tool call whose arguments do not match. -/
theorem serves_failCall {call : CallParams} {task : McpTask} (hid : ctx.request.id = some id)
    (hcreated : Created ctx.principal s call registry task)
    (hinput : s.registry.inputError call.name call.arguments = some message) :
    Serves clock ctx s (failCall clock { s with
        registry
        taskMetadata := s.taskMetadata.insert task.taskId (newMetadata clock ctx call) }
      ctx id call task message) := by
  refine .bind fun finished hfinished => .ok ?_
  have hget : registry.tasks[task.taskId]? = some task := by
    rw [hcreated.tasks, hcreated.taskId, if_pos rfl]
  obtain ⟨_, htools, task', _, hsubject, htenant, htasks⟩ := completeToolResult_spec hget hfinished
  have hmove : TaskMove ctx.principal s { s with
      registry := finished
      taskMetadata := s.taskMetadata.insert task.taskId (newMetadata clock ctx call) } := by
    refine @move_created _ _ _ _ _ _ task' _ hcreated.taskId (htools.trans hcreated.tools) (fun id => ?_) ?_
      fun Fits hfails => ?_
    · rw [htasks, hcreated.tasks, ← hcreated.taskId]
      split <;> rfl
    · have howned := hcreated.owned
      unfold owns at howned ⊢
      rw [hsubject, htenant]
      exact howned
    · have hcalled := hcreated.tends Fits (newMetadata clock ctx call)
      rw [← hcreated.taskId] at hcalled
      have happly : (TaskReport.result (toolExecutionError message) true).apply registry task.taskId =
          .ok finished := hfinished
      refine hcalled.trans (.reported happly ?_ (by rintro ⟨⟩))
      rintro _ _ ⟨⟩
      exact hfails _ _ _ hinput
  refine .recorded hid .now (hmove.stamped _ _ _) ?_ (.inl rfl) (by rintro _ ⟨⟩)
  split <;> exact get_id_jsonrpcResult ..

/-- A tool call that the host has to do. -/
theorem served_startCall {call : CallParams} {task : McpTask} (hid : ctx.request.id = some id)
    (hcreated : Created ctx.principal s call registry task) (hown : OwnDecision ctx.principal decision) :
    Served clock ctx s (startCall clock { s with
        registry
        taskMetadata := s.taskMetadata.insert task.taskId (newMetadata clock ctx call) }
      ctx id call task decision) := by
  have hmove : TaskMove ctx.principal s { s with
      registry
      taskMetadata := s.taskMetadata.insert task.taskId (newMetadata clock ctx call) } :=
    move_created hcreated.taskId hcreated.tools (by rw [hcreated.taskId]; exact hcreated.tasks) hcreated.owned
      fun Fits _ => by rw [hcreated.taskId]; exact hcreated.tends Fits _
  have hget : registry.tasks[task.taskId]? = some task := by
    rw [hcreated.tasks, hcreated.taskId, if_pos rfl]
  have hdecision (made : Decision) (h : some decision = some made) : OwnDecision ctx.principal made :=
    Option.some.inj h ▸ hown
  unfold startCall
  split
  · exact .receipted hid .now hmove (.answered (get_id_jsonrpcResult ..)) (.inl rfl) hdecision
  · exact .receipted hid .now hmove (.call hget hcreated.running) (.inl rfl) hdecision

/-! #### Resources and prompts -/

/-- What the host has to read or to render. -/
theorem served_pendingHostDispatch {operation : String}
    (hid : ctx.request.id = some id) (hown : OwnDecision ctx.principal decision) :
    Served clock ctx s (pendingHostDispatch clock s ctx id decision operation) := by
  have hdecision (made : Decision) (h : some decision = some made) : OwnDecision ctx.principal made :=
    Option.some.inj h ▸ hown
  unfold pendingHostDispatch
  split
  · exact .receipted hid .now (.refl _ _) .host (.inl rfl) hdecision
  · exact .recorded hid .now (.refl _ _) (get_id_jsonrpcError ..) (.inl rfl) hdecision

variable {identity : CorrelationIdentity}

omit [JsonSchema] [Digest] in
theorem own_prepareReadResource {uri : String} :
    OwnDecision principal (s.registry.prepareReadResource identity (some principal) uri) := by
  refine own_of_tasks fun action haction => ?_
  unfold prepareReadResource at haction
  split at haction
  · cases haction
  · rw [← (GovernedAction.action_fromEnvelope.mp haction).2]
    rfl

omit [JsonSchema] [Digest] in
theorem own_prepareRenderPrompt {name : String}
    {arguments : BTreeMap String} :
    OwnDecision principal (s.registry.prepareRenderPrompt identity (some principal) name arguments) := by
  refine own_of_tasks fun action haction => ?_
  unfold prepareRenderPrompt at haction
  split at haction
  · cases haction
  · rw [← (GovernedAction.action_fromEnvelope.mp haction).2]
    rfl

theorem serves_readResource : Serves clock ctx s (readResource clock s ctx) := by
  unfold readResource
  split
  · next hid => exact .ok (.ignored hid)
  · next id hid =>
    split
    · exact .ok (.wireError hid)
    · exact .bind fun _ _ => .ok (served_pendingHostDispatch hid own_prepareReadResource)

theorem serves_getPrompt : Serves clock ctx s (getPrompt clock s ctx) := by
  unfold getPrompt
  split
  · next hid => exact .ok (.ignored hid)
  · next id hid =>
    split
    · exact .ok (.wireError hid)
    · split
      · exact .ok (.wireError hid)
      · exact .bind fun _ _ => .ok (served_pendingHostDispatch hid own_prepareRenderPrompt)

/-! #### Tasks -/

/-- An error that is recorded after expiry. -/
theorem Served.dropping {s₁ : McpServerState} {maintenance : List McpOutboundMessage}
    {code : JsonRpcCode} (hid : ctx.request.id = some id)
    (later : Later clock s s₁ maintenance) (hdrops : Drops ctx s₁) :
    Served clock ctx s (completeWireError clock s₁ ctx id code message) := by
  refine .recorded hid later (.refl _ _) (get_id_jsonrpcError ..) (.inr ⟨rfl, hdrops⟩) ?_
  rintro _ ⟨⟩

omit [JsonSchema] [Digest] in
/-- Whoever gets a task to see owns it. -/
theorem prepareGetTask_cases {taskId : String} {action : McpServerAction}
    (h : (registry.prepareGetTask identity (some principal) taskId).action = some action) :
    ∃ task, action = .getTask task ∧ registry.tasks[taskId]? = some task ∧ task.advertised = true ∧
      owns (some principal) task = true := by
  unfold prepareGetTask at h
  split at h
  · cases h
  · next task hget =>
    obtain ⟨hget, hadvertised⟩ := Option.filter_eq_some_iff.mp hget
    obtain ⟨hallowed, rfl⟩ := GovernedAction.action_fromEnvelope.mp h
    exact ⟨task, rfl, hget, hadvertised, (isAllowed_ofOwner hallowed).2⟩

omit [JsonSchema] [Digest] in
theorem own_prepareGetTask {taskId : String} :
    OwnDecision principal (registry.prepareGetTask identity (some principal) taskId) := by
  intro action haction task htask
  obtain ⟨found, rfl, _, _, howned⟩ := prepareGetTask_cases haction
  obtain rfl := List.mem_singleton.mp htask
  exact howned

omit [JsonSchema] [Digest] in
theorem own_prepareListTasks :
    OwnDecision principal (registry.prepareListTasks identity (some principal)) := by
  intro action haction task htask
  unfold prepareListTasks at haction
  rw [← (GovernedAction.action_fromEnvelope.mp haction).2] at htask
  have hfilter := (List.mem_filter.mp htask).2
  rw [Bool.and_eq_true] at hfilter
  exact hfilter.2

theorem serves_getTask : Serves clock ctx s (getTask clock s ctx) := by
  refine .bind fun ⟨s₁, maintenance⟩ hexpired => ?_
  dsimp only
  split
  · next hid => exact .ok (.ignored hid)
  · next id hid =>
    split
    · next hmissing => exact .ok (.dropping hid (.expired hexpired) (.inl hmissing))
    · refine .bind fun identity _ => .ok (.recorded hid (.expired hexpired) (.refl _ _) ?_ (.inl rfl) ?_)
      · split
        · exact get_id_jsonrpcResult ..
        · exact get_id_jsonrpcError ..
      · rintro _ ⟨⟩
        exact own_prepareGetTask

theorem serves_listTasks : Serves clock ctx s (listTasks clock s ctx) := by
  refine .bind fun ⟨s₁, maintenance⟩ hexpired => ?_
  dsimp only
  split
  · next hid => exact .ok (.ignored hid)
  · next id hid =>
    refine .bind fun identity _ => .ok (.recorded hid (.expired hexpired) (.refl _ _) ?_ (.inl rfl) ?_)
    · split
      · split
        · exact get_id_jsonrpcResult ..
        · exact get_id_jsonrpcError ..
      · exact get_id_jsonrpcError ..
    · rintro _ ⟨⟩
      exact own_prepareListTasks

theorem serves_cancelTask (hmethod : ctx.request.method = "tasks/cancel") :
    Serves clock ctx s (cancelTask clock s ctx) := by
  refine .bind fun ⟨s₁, maintenance⟩ hexpired => ?_
  dsimp only
  split
  · next hid => exact .ok (.ignored hid)
  · next id hid =>
    split
    · next hmissing => exact .ok (.dropping hid (.expired hexpired) (.inl hmissing))
    · next taskId htaskId =>
      split
      · refine .bind fun identity _ => ?_
        obtain ⟨hmove, hown⟩ := move_cancelTask ctx.principal s₁ identity taskId
        have hdecision (made : Decision) (h : some (s₁.registry.prepareCancelTask identity (some ctx.principal)
            taskId).2 = some made) : OwnDecision ctx.principal made := Option.some.inj h ▸ hown
        split
        · exact .ok (.recorded hid (.expired hexpired) (hmove.stamped _ _ _) (get_id_jsonrpcResult ..) (.inl rfl)
            hdecision)
        · exact .ok (.recorded hid (.expired hexpired) hmove (get_id_jsonrpcError ..) (.inl rfl) hdecision)
      · next hhidden =>
        rw [Bool.not_eq_true] at hhidden
        exact .ok (.dropping hid (.expired hexpired) (.inr ⟨hmethod, taskId, htaskId, hhidden⟩))

theorem serves_taskResult : Serves clock ctx s (taskResult clock s ctx) := by
  refine .bind fun ⟨s₁, maintenance⟩ hexpired => ?_
  dsimp only
  split
  · next hid => exact .ok (.ignored hid)
  · next id hid =>
    split
    · next hmissing => exact .ok (.dropping hid (.expired hexpired) (.inl hmissing))
    · next taskId htaskId =>
      refine .bind fun identity _ => ?_
      have hdecision (made : Decision) (h : some (s₁.registry.prepareGetTask identity (some ctx.principal)
          taskId) = some made) : OwnDecision ctx.principal made := Option.some.inj h ▸ own_prepareGetTask
      split
      · next task haction =>
        obtain ⟨found, hfound, hget, _, _⟩ := prepareGetTask_cases haction
        cases hfound
        split
        · exact .ok (.recorded hid (.expired hexpired) (.refl _ _) (get_id_terminalTaskResponse ..) (.inl rfl)
            hdecision)
        · next hrunning =>
          rw [Bool.not_eq_true] at hrunning
          exact .ok (.receipted hid (.expired hexpired) (.refl _ _) (.result hget hrunning) (.inl rfl) hdecision)
      · exact .ok (.recorded hid (.expired hexpired) (.refl _ _) (get_id_jsonrpcError ..) (.inl rfl) hdecision)

theorem serves_cancelRequestNotification :
    Serves clock ctx s (cancelRequestNotification clock s ctx) := by
  refine .bind fun ⟨s₁, maintenance⟩ hexpired => ?_
  dsimp only
  split
  · next hsome =>
    obtain ⟨id, hid⟩ := Option.isSome_iff_exists.mp hsome
    unfold ParsedRequest.errorOrIgnore
    rw [hid]
    exact .ok (.refused hid)
  · next hnone =>
    have hid := Option.not_isSome_iff_eq_none.mp hnone
    split
    · exact .ok (.ignored hid)
    · next taskId _ =>
      refine .bind fun identity _ => ?_
      obtain ⟨hmove, hown⟩ := move_cancelTask ctx.principal s₁ identity taskId
      split
      · exact .ok (.cancelling hid (.expired hexpired) hmove hown)
      · exact .ok (.unauthorized hid hown)

theorem serves_prepareCall {call : CallParams} (hid : ctx.request.id = some id) :
    Serves clock ctx s (prepareCall clock s ctx id call) := by
  refine .bind fun identity _ => ?_
  dsimp only
  rcases created_callTool ctx.principal s identity call with ⟨hkept, hnone⟩ | ⟨task, hcreated, haction⟩
  · rw [hnone, hkept]
    refine .ok (.recorded hid .now (.refl _ _) (get_id_jsonrpcError ..) (.inl rfl) ?_)
    rintro _ ⟨⟩ action haction
    rw [hnone] at haction
    cases haction
  · rw [haction, Option.bind_some, actionTask_newTaskAction]
    dsimp only
    split
    · next hinput => exact serves_failCall hid hcreated hinput
    · refine .ok (served_startCall hid hcreated fun action ha => ?_)
      rw [haction, Option.some.injEq] at ha
      rw [← ha]
      exact own_newTaskAction hcreated.owned

theorem serves_callTool : Serves clock ctx s (server.callTool clock s ctx) := by
  unfold callTool
  split
  · next hid => exact .ok (.ignored hid)
  · next id hid =>
    split
    · exact .ok (.wireError hid)
    · split
      · exact .ok (.wireError hid)
      · exact serves_prepareCall hid

/-- **Every request that was authorized is served.** -/
theorem serves_dispatchInitialized : Serves clock ctx s (server.dispatchInitialized clock s ctx) := by
  unfold dispatchInitialized
  split
  · exact serves_listTools
  · exact serves_listResources
  · exact serves_listPrompts
  · exact serves_callTool
  · exact serves_readResource
  · exact serves_getPrompt
  · exact serves_getTask
  · exact serves_listTasks
  · next hmethod => exact serves_cancelTask hmethod
  · exact serves_taskResult
  · exact serves_cancelRequestNotification
  · split
    · next hid => exact .ok (.ignored hid)
    · next id hid =>
      refine .ok (.recorded hid .now (.refl _ _) (get_id_jsonrpcError ..) (.inl rfl) ?_)
      rintro _ ⟨⟩

omit [Digest] in
theorem inputError_congr {reg reg' : McpServerRegistry} (h : reg'.tools = reg.tools) (name : String)
    (arguments : Value) : reg'.inputError name arguments = reg.inputError name arguments := by
  unfold inputError
  rw [h]

/-- What a request makes of the state is what the server makes of its state. -/
theorem Served.tends {Fits : Value → Prop} {next : McpServerState} {dispatch : McpJsonRpcDispatch}
    (h : Served clock ctx s (some next, dispatch)) (hfails : FailuresFit Fits s.registry) : Tends Fits s next := by
  have hmoves {s₁ s₂ : McpServerState} {maintenance : List McpOutboundMessage} (later : Later clock s s₁ maintenance)
      (move : TaskMove ctx.principal s₁ s₂) : Tends Fits s s₂ := by
    cases later with
    | now => exact move.tends Fits hfails
    | expired hexpired =>
      obtain ⟨s', maintenance', hrun, hexpires⟩ := expireDueTasks_spec s clock.expiringText clock.expiring
      cases hexpired.symm.trans hrun
      refine (tends_expireFirst hexpired).trans (move.tends Fits fun name arguments message hinput => ?_)
      rw [inputError_congr hexpires.tools] at hinput
      exact hfails name arguments message hinput
  cases h with
  | cancelling _ later move _ => exact hmoves later move
  | receipted _ later move _ _ _ => exact (hmoves later move).trans (.receipts _ _)

end Handlers

end Requests

/-! ### What comes before the dispatch -/

/-- Making room takes receipts away, and nothing else. -/
theorem pruneCompletedSafeReceipt_fields (state : McpServerState) (now retentionMs : Nat) : ∃ receipts,
    state.pruneCompletedSafeReceipt now retentionMs = { state with receipts } ∧
      ∀ (key : String) (receipt : McpRequestReceipt), receipts[key]? = some receipt →
        state.receipts[key]? = some receipt := by
  unfold McpServerState.pruneCompletedSafeReceipt
  dsimp only
  split
  · exact ⟨state.receipts, rfl, fun _ _ h => h⟩
  · next key _ _ =>
    refine ⟨state.receipts.erase key, rfl, fun key' receipt h => ?_⟩
    rw [BTreeMap.get_erase] at h
    split at h
    · cases h
    · exact h

section Before

variable [Digest]

namespace McpJsonRpcServer

variable (server : McpJsonRpcServer) (clock : Readings) (state : McpServerState)

/-- The state with room for another receipt, if it can be made. -/
def makeRoom : McpServerState :=
  if server.maxReceipts ≤ state.receipts.size then
    state.pruneCompletedSafeReceipt clock.pruning server.retentionMs
  else state

/-- The state that a request is dispatched on. -/
def room (request : ParsedRequest) : McpServerState :=
  if request.id.isSome then server.makeRoom clock state else state

/-- The answer to a request that is not dispatched. -/
def early (connectionId : String) (request : ParsedRequest) (requestHash : String) :
    Option McpJsonRpcDispatch :=
  match request.id with
  | none => none
  | some id =>
    match state.receipts[receiptKey connectionId id]? with
    | some receipt =>
      if receipt.requestHash ≠ requestHash then
        some (.respond (jsonrpcError id .conflict
          "JSON-RPC id was reused with different request content" none))
      else some receipt.replay
    | none =>
      if state.connections[connectionId]?.any (·.receiptNamespaceRetired) then
        some (reconciliationRequired request.id)
      else if server.maxReceipts ≤ (server.makeRoom clock state).receipts.size then
        some (.respond (jsonrpcError id .internalError "MCP request receipt capacity exhausted" none))
      else none

end McpJsonRpcServer

variable {server : McpJsonRpcServer} {clock : Readings} {state : McpServerState} {connectionId : String}
  {principal : Option ProtocolPrincipal} {request : ParsedRequest} {requestHash : String}

omit [Digest] in
theorem makeRoom_fields : ∃ receipts, server.makeRoom clock state = { state with receipts } ∧
    ∀ (key : String) (receipt : McpRequestReceipt), receipts[key]? = some receipt →
      state.receipts[key]? = some receipt := by
  unfold makeRoom
  split
  · exact pruneCompletedSafeReceipt_fields ..
  · exact ⟨state.receipts, rfl, fun _ _ h => h⟩

omit [Digest] in
theorem room_fields (server : McpJsonRpcServer) (clock : Readings) (state : McpServerState)
    (request : ParsedRequest) : ∃ receipts, server.room clock state request = { state with receipts } ∧
    ∀ (key : String) (receipt : McpRequestReceipt), receipts[key]? = some receipt →
      state.receipts[key]? = some receipt := by
  unfold room
  split
  · exact makeRoom_fields
  · exact ⟨state.receipts, rfl, fun _ _ h => h⟩

/-- A request is answered from the receipts, or dispatched. -/
theorem respond_eq [JsonSchema] : server.respond clock state connectionId principal request requestHash =
    match server.early clock state connectionId request requestHash with
    | some dispatch => .ok (none, dispatch)
    | none => server.dispatch clock (server.room clock state request) connectionId principal request requestHash := by
  unfold respond early room
  cases hid : request.id with
  | none => rfl
  | some id =>
    dsimp only
    cases state.receipts[receiptKey connectionId id]? with
    | some receipt =>
      dsimp only
      split <;> rfl
    | none =>
      dsimp only
      split
      · rfl
      · show (if server.maxReceipts ≤ (server.makeRoom clock state).receipts.size then _ else _) = _
        split
        · rfl
        · rfl

variable [JsonSchema]

omit [Digest] [JsonSchema] in
theorem outbound_errorOrIgnore {code : JsonRpcCode} {message : String} :
    (request.errorOrIgnore code message).outbound = [] ∧
      (request.errorOrIgnore code message).governedAction = none := by
  unfold ParsedRequest.errorOrIgnore
  split <;> exact ⟨rfl, rfl⟩

omit [Digest] [JsonSchema] in
theorem outbound_replay {receipt : McpRequestReceipt} :
    receipt.replay.outbound = [] ∧ receipt.replay.governedAction = none := by
  unfold McpRequestReceipt.replay
  split <;> exact ⟨rfl, rfl⟩

omit [JsonSchema] in
/-- What is answered early has no message and no decision. -/
theorem outbound_early {dispatch : McpJsonRpcDispatch}
    (h : server.early clock state connectionId request requestHash = some dispatch) :
    dispatch.outbound = [] ∧ dispatch.governedAction = none := by
  unfold early at h
  split at h
  · cases h
  · split at h
    · split at h
      · cases h
        exact ⟨rfl, rfl⟩
      · cases h
        exact outbound_replay
    · split at h
      · cases h
        unfold reconciliationRequired
        split <;> exact ⟨rfl, rfl⟩
      · split at h
        · cases h
          exact ⟨rfl, rfl⟩
        · cases h

end Before

end AikitRuntime.Mcp
