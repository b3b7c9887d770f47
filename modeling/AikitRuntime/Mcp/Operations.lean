import AikitRuntime.Mcp.Server

/-!
# The operations of the MCP server

What the transport and the host call: `handle` for a message of a client, and the operations by which
the host completes what it was asked to do. Each is a program over the store. `ServerCall` is any of
them, and `serve` runs one on a store that does what it is told.
-/

namespace AikitRuntime.Mcp

open Library Durability
open Agent (JsonSchema)

section Programs

/-- A check inside a program. -/
def Program.check {α : Type} (x : ProtocolResult α) : Program α := ExceptT.mk (Pure.pure x)

/-- A call of the store. -/
def StoreQuery.ask (query : StoreQuery) : Prog StoreQuery StoreQuery.Answer query.Answer := Prog.perform query

variable [JsonSchema]

/-- `load_state`. -/
def loadState : Program McpServerState := do
  let answer : ProtocolResult (Option McpServerState) ← liftM StoreQuery.load.ask
  let state ← Program.check (answer.bind fun state =>
    okOr state (.notFound "MCP server state is not initialized"))
  Program.check state.validate
  pure state

/-- The state that is committed after a revision. -/
def McpServerState.stamped (state : McpServerState) (expected : Nat) : McpServerState :=
  { state with storageRevision := saturatingAdd expected 1 }

/-- `commit`. -/
def commit (state : McpServerState) (expected : Nat) : Program Unit := do
  let answer : ProtocolResult Unit ←
    liftM (StoreQuery.compareAndSwap (some expected) (state.stamped expected)).ask
  Program.check answer

/-- What is decided is committed to where it was loaded from. -/
def conclude {α : Type} (expected : Nat) (handled : Handled α) : Program α :=
  match handled.1 with
  | none => pure handled.2
  | some next => do
    commit next expected
    pure handled.2

/-- Load, decide, and commit. -/
def transact {α : Type} (decide : McpServerState → ProtocolResult (Handled α)) : Program α := do
  let state ← loadState
  conclude state.storageRevision (← Program.check (decide state))

end Programs

namespace McpJsonRpcServer

variable (server : McpJsonRpcServer) (clock : Readings)

section Operations

variable [Digest] [JsonSchema]

/-- `handle`. -/
def handle [JsonReader] (connectionId : String) (principal : Option ProtocolPrincipal)
    (payload : List UInt8) : Program McpJsonRpcDispatch := do
  match ← Program.check (server.ingress connectionId payload) with
  | .answered dispatch => pure dispatch
  | .request raw request =>
    let loaded ← loadState
    let (collected, changed) ← Program.check (loaded.collectGarbage clock.collecting server.retentionMs)
    let state ←
      if changed then do
        commit collected loaded.storageRevision
        loadState
      else pure collected
    conclude state.storageRevision
      (← Program.check (server.respond clock state connectionId principal request (stableInputHash raw)))

/-! ### Ends of tasks -/

/-- The end of a task that the host reports. -/
def endTask (state : McpServerState) (taskId : String) (registry : McpServerRegistry)
    (result : ProtocolResult Value) : Handled (List McpOutboundMessage) :=
  let (state, outbound) := { state with registry }.releaseTask taskId result clock.nowText clock.now
  (some state, outbound)

/-- The truth value of a flag. -/
def isErrorResult (result : Value) : Bool :=
  match result.get "isError" with
  | some (.bool b) => b
  | _ => false

/-- `complete_tool`. -/
def completeTool (taskId : String) (result : Value) : Program (List McpOutboundMessage) := do
  Program.check (validateToolResult result server.maxResultBytes server.maxResultItems server.maxResultDepth)
  transact fun state => do
    let registry ← state.registry.completeToolResult taskId result (isErrorResult result)
    pure (endTask clock state taskId registry (.ok result))

/-- `fail_tool`. -/
def failTool (taskId : String) (error : ProtocolError) : Program (List McpOutboundMessage) :=
  transact fun state => do
    let registry ← state.registry.failTask taskId error
    pure (endTask clock state taskId registry (.error error))

/-- `confirm_cancellation`. -/
def confirmCancellation (taskId : String) : Program (List McpOutboundMessage) :=
  transact fun state => do
    let registry ← state.registry.confirmCancelTask taskId
    pure (endTask clock state taskId registry (.error ⟨.cancelled, "MCP task was cancelled"⟩))

/-- What `complete_pending` decides. -/
def completePendingOn (pending : McpPendingResponse) (result : ProtocolResult Value)
    (state : McpServerState) : ProtocolResult (Handled McpOutboundMessage) := do
  let key := receiptKey pending.connectionId pending.requestId
  let receipt ← okOr state.receipts[key]? (.notFound "MCP pending response is not registered")
  let operation ← match receipt.state with
    | .pendingHost operation none => .ok operation
    | _ => .error (ProtocolError.invalidTransition "MCP response is not pending host completion")
  refuseIf (operation ≠ pending.operation) (.conflict "MCP pending response operation mismatch")
  let response ← match result with
    | .ok result => do
      validateHostResult operation result server.maxResultBytes server.maxResultItems server.maxResultDepth
      pure (jsonrpcResult pending.requestId result)
    | .error error => pure (protocolErrorResponse pending.requestId error)
  pure (some { state with
      receipts := state.receipts.insert key { receipt with state := .completed response clock.now } },
    ⟨pending.connectionId, response⟩)

/-- `complete_pending`. -/
def completePending (pending : McpPendingResponse) (result : ProtocolResult Value) :
    Program McpOutboundMessage := do
  Program.check (match result with
    | .ok value =>
      validateJsonBounds value server.maxResultBytes server.maxResultItems server.maxResultDepth
    | .error _ => .ok ())
  transact (server.completePendingOn clock pending result)

/-! ### Progress and approvals -/

/-- The messages of progress. -/
def progressMessages (state : McpServerState) (taskId : String) (progress : McpProgress) :
    List McpOutboundMessage :=
  match state.taskMetadata[taskId]?.bind (·.progressToken) with
  | none => []
  | some token =>
    (state.taskConnections taskId).map fun connectionId =>
      ⟨connectionId, progressNotification token progress taskId⟩

/-- What `record_progress` decides. A task that has expired meanwhile is released, and the messages are
not returned. -/
def recordProgressOn (taskId : String) (progress : McpProgress) (state : McpServerState) :
    ProtocolResult (Handled (ProtocolResult (List McpOutboundMessage))) := do
  if state.taskIsExpired taskId clock.checking then
    let (state, outbound) ← expireFirst clock state
    pure (some state, .error (.conflict (if outbound.isEmpty then "MCP task TTL expired"
      else "MCP task TTL expired; pending clients were released")))
  else
    let registry ← state.registry.recordProgress taskId progress
    let state := { state with registry }.stampTask taskId clock.nowText clock.now
    pure (some state,
      .ok (state.taskNotifications taskId ++ progressMessages state taskId progress))

/-- `record_progress`. -/
def recordProgress (taskId : String) (progress : McpProgress) : Program (List McpOutboundMessage) := do
  Program.check (← transact (recordProgressOn clock taskId progress))

/-- What `resolve_approval` decides. -/
def resolveApprovalOn (taskId : String) (response : McpApprovalResponse)
    (principal : Option ProtocolPrincipal) (state : McpServerState) :
    ProtocolResult (Handled (ProtocolResult Decision)) := do
  if state.taskIsExpired taskId clock.checking then
    let (state, _) ← expireFirst clock state
    pure (some state, .error (.conflict "MCP task TTL expired"))
  else
    let identity ← CorrelationIdentity.new (stableIdentifier "mcp_approval" [taskId])
      (stableIdentifier "mcp_approval_request" [taskId, response.approvalId])
    let (registry, decision) := state.registry.prepareResumeApproval identity principal taskId response
    if registry.revision ≠ state.registry.revision then
      pure (some ({ state with registry }.stampTask taskId clock.nowText clock.now), .ok decision)
    else pure (none, .ok decision)

/-- `resolve_approval`. -/
def resolveApproval (taskId : String) (response : McpApprovalResponse)
    (principal : Option ProtocolPrincipal) : Program Decision := do
  Program.check (← transact (resolveApprovalOn clock taskId response principal))

/-! ### Recovery -/

/-- The loop of `recover_actions`, over the ids of the tasks. -/
def recoveries (registry : McpServerRegistry) (principal : Option ProtocolPrincipal) :
    List String → ProtocolResult (List Decision)
  | [] => .ok []
  | taskId :: rest => do
    let identity ← CorrelationIdentity.new (stableIdentifier "mcp_recovery" [taskId])
      (stableIdentifier "mcp_recovery_request" [taskId])
    let decision := registry.prepareRecoverTask identity principal taskId
    let decisions ← recoveries registry principal rest
    pure (if decision.isAuthorized then decision :: decisions else decisions)

/-- `recover_actions`. -/
def recoverActions (principal : Option ProtocolPrincipal) : Program (List Decision) := do
  let loaded ← loadState
  let (expired, _) ← Program.check (expireFirst clock loaded)
  let state ←
    if expired.registry.revision ≠ loaded.registry.revision then do
      commit expired loaded.storageRevision
      loadState
    else pure expired
  Program.check (recoveries state.registry principal (state.registry.tasks.toList.map Prod.fst))

/-! ### Teardown -/

/-- The connection that a principal may close. -/
def ownConnection (state : McpServerState) (connectionId : String) (principal : Option ProtocolPrincipal) :
    ProtocolResult ProtocolPrincipal := do
  let principal ← okOr principal ⟨.unauthorized, "authenticated principal is required"⟩
  let connection ← okOr state.connections[connectionId]? (.notFound "MCP connection is not registered")
  refuseIf (connection.admits principal = false) ⟨.forbidden, "MCP connection authorization context changed"⟩
  pure principal

/-- The tasks of a connection that are not over. -/
def openTasks (state : McpServerState) (connectionId : String) : List String :=
  ((state.taskMetadata.toList.filter fun entry => entry.2.connectionId = connectionId).map
    Prod.fst).filter state.isRunning

/-- The loop of `terminate_connection`. -/
def cancelAll (connectionId : String) (principal : ProtocolPrincipal) :
    List String → McpServerRegistry → ProtocolResult (McpServerRegistry × List Decision)
  | [], registry => .ok (registry, [])
  | taskId :: rest, registry => do
    let identity ← CorrelationIdentity.new (stableIdentifier "mcp_disconnect" [connectionId, taskId])
      (stableIdentifier "mcp_disconnect_request" [connectionId, taskId])
    let (registry, decision) := registry.prepareCancelTask identity (some principal) taskId
    refuseIf (decision.isAuthorized = false)
      ⟨.forbidden, "MCP connection teardown could not authorize task cancellation"⟩
    let (registry, decisions) ← cancelAll connectionId principal rest registry
    pure (registry, decision :: decisions)

/-- `terminate_connection`. -/
def terminateConnection (connectionId : String) (principal : Option ProtocolPrincipal) :
    Program (List Decision) :=
  transact fun state => do
    let principal ← ownConnection state connectionId principal
    let (registry, decisions) ←
      cancelAll connectionId principal (openTasks state connectionId) state.registry
    pure (some { state with registry }, decisions)

/-- `mark_cancellation_reconcile_required`. -/
def markCancellationReconcileRequired (taskId reason : String) : Program Unit :=
  transact fun state => do
    let registry ← state.registry.markCancelReconcileRequired taskId reason
    pure (some ({ state with registry }.stampTask taskId clock.nowText clock.now), ())

/-- What `finalize_connection_termination` decides. -/
def finalizeOn (connectionId : String) (principal : Option ProtocolPrincipal) (state : McpServerState) :
    ProtocolResult (Handled Unit) := do
  let _ ← ownConnection state connectionId principal
  refuseIf (openTasks state connectionId ≠ [])
    (.conflict "MCP connection has unresolved task cancellation")
  pure (some { state with
    connections := state.connections.erase connectionId
    receipts := BTreeMap.retain (fun _ receipt => receipt.connectionId ≠ connectionId) state.receipts }, ())

/-- `finalize_connection_termination`. -/
def finalizeConnectionTermination (connectionId : String) (principal : Option ProtocolPrincipal) :
    Program Unit := transact (finalizeOn connectionId principal)

/-! ### Tools -/

/-- What `upsert_tool` decides. -/
def upsertToolOn (tool : McpToolDefinition) (state : McpServerState) : ProtocolResult (Handled Bool) := do
  match ← state.registry.upsertTool tool with
  | none => pure (none, false)
  | some registry =>
    let waits (taskId : String) : Bool :=
      registry.tasks.values.any fun task => task.taskId = taskId && task.status = .inputRequired
    pure (some { state with
      registry
      taskMetadata := state.taskMetadata.map fun taskId metadata =>
        if waits taskId then { metadata with lastUpdatedAt := clock.nowText } else metadata }, true)

/-- `upsert_tool`. -/
def upsertTool (tool : McpToolDefinition) : Program Bool := transact (upsertToolOn clock tool)

end Operations

end McpJsonRpcServer

/-! ### Calls -/

/-- The calls of a server. -/
inductive ServerCall where
  | handle (connectionId : String) (principal : Option ProtocolPrincipal) (payload : List UInt8)
  | completeTool (taskId : String) (result : Value)
  | failTool (taskId : String) (error : ProtocolError)
  | completePending (pending : McpPendingResponse) (result : ProtocolResult Value)
  | recordProgress (taskId : String) (progress : McpProgress)
  | resolveApproval (taskId : String) (response : McpApprovalResponse) (principal : Option ProtocolPrincipal)
  | recoverActions (principal : Option ProtocolPrincipal)
  | upsertTool (tool : McpToolDefinition)
  | confirmCancellation (taskId : String)
  | markCancellationReconcileRequired (taskId reason : String)
  | terminateConnection (connectionId : String) (principal : Option ProtocolPrincipal)
  | finalizeConnectionTermination (connectionId : String) (principal : Option ProtocolPrincipal)

/-- What a call returns. -/
inductive Reply where
  | dispatch (answered : McpJsonRpcDispatch)
  | messages (sent : List McpOutboundMessage)
  | decisions (made : List Decision)
  | changed (did : Bool)
  | done

/-- The messages that a reply hands over, besides its response. -/
def Reply.outbound : Reply → List McpOutboundMessage
  | .dispatch answered => answered.outbound
  | .messages sent => sent
  | .decisions _ | .changed _ | .done => []

section Serve

variable [Digest] [JsonSchema] [JsonReader]

/-- The program of a call. -/
def ServerCall.program (server : McpJsonRpcServer) (clock : Readings) : ServerCall → Program Reply
  | .handle connectionId principal payload =>
    Reply.dispatch <$> server.handle clock connectionId principal payload
  | .completeTool taskId result => Reply.messages <$> server.completeTool clock taskId result
  | .failTool taskId error => Reply.messages <$> McpJsonRpcServer.failTool clock taskId error
  | .completePending pending result =>
    (fun message => Reply.messages [message]) <$> server.completePending clock pending result
  | .recordProgress taskId progress =>
    Reply.messages <$> McpJsonRpcServer.recordProgress clock taskId progress
  | .resolveApproval taskId response principal =>
    (fun decision => Reply.decisions [decision]) <$>
      McpJsonRpcServer.resolveApproval clock taskId response principal
  | .recoverActions principal => Reply.decisions <$> McpJsonRpcServer.recoverActions clock principal
  | .upsertTool tool => Reply.changed <$> McpJsonRpcServer.upsertTool clock tool
  | .confirmCancellation taskId => Reply.messages <$> McpJsonRpcServer.confirmCancellation clock taskId
  | .markCancellationReconcileRequired taskId reason =>
    (fun _ => Reply.done) <$> McpJsonRpcServer.markCancellationReconcileRequired clock taskId reason
  | .terminateConnection connectionId principal =>
    Reply.decisions <$> McpJsonRpcServer.terminateConnection connectionId principal
  | .finalizeConnectionTermination connectionId principal =>
    (fun _ => Reply.done) <$> McpJsonRpcServer.finalizeConnectionTermination connectionId principal

/-- A store that does what it is told. -/
def storeAnswer : (query : StoreQuery) → Option McpServerState → query.Answer × Option McpServerState
  | .load, stored => (.ok stored, stored)
  | .compareAndSwap expected state, stored =>
    if stored.map (·.storageRevision) = expected then (.ok (), some state)
    else (.error (.conflict "MCP server state changed concurrently"), stored)

/-- A program, on a store that does what it is told. -/
def Program.exec {α : Type} (program : Program α) (stored : Option McpServerState) :
    ProtocolResult α × Option McpServerState := program.run.runOn storeAnswer stored

end Serve

/-! ### Running programs -/

namespace Program

variable {α β : Type} {stored : Option McpServerState}

@[simp] theorem exec_pure (a : α) : (pure a : Program α).exec stored = (.ok a, stored) := rfl

@[simp] theorem exec_check (x : ProtocolResult α) : (check x).exec stored = (x, stored) := rfl

theorem exec_bind (x : Program α) (f : α → Program β) :
    (x >>= f).exec stored = match x.exec stored with
      | (.ok a, stored) => (f a).exec stored
      | (.error e, stored) => (.error e, stored) := by
  unfold exec
  rw [ExceptT.run_bind, Prog.runOn_bind]
  generalize Prog.runOn storeAnswer x.run stored = result
  obtain ⟨_ | _, _⟩ := result <;> rfl

section Stores

variable {state : McpServerState}

theorem exec_commit (next : McpServerState) : (commit next state.storageRevision).exec (some state) =
    (.ok (), some (next.stamped state.storageRevision)) := by
  show storeAnswer (.compareAndSwap (some state.storageRevision) (next.stamped state.storageRevision))
    (some state) = _
  exact if_pos rfl

/-- What is stored after a decision. -/
def after (state : McpServerState) (handled : Handled α) : McpServerState :=
  match handled.1 with
  | none => state
  | some next => next.stamped state.storageRevision

theorem exec_conclude (handled : Handled α) : (conclude state.storageRevision handled).exec (some state) =
    (.ok handled.2, some (after state handled)) := by
  unfold conclude after
  split
  · rfl
  · rw [exec_bind, exec_commit]
    rfl

variable [JsonSchema]

theorem exec_loadState : loadState.exec (some state) = (state.validate.map fun _ => state, some state) := by
  show Program.exec (do
    Program.check state.validate
    pure state) (some state) = _
  rw [exec_bind, exec_check]
  cases state.validate <;> rfl

theorem exec_loadState_of_valid (hvalid : state.validate = .ok ()) :
    loadState.exec (some state) = (.ok state, some state) := by
  rw [exec_loadState, hvalid]
  rfl

/-- **A transaction**, on a store that does what it is told. -/
theorem exec_transact (decide : McpServerState → ProtocolResult (Handled α))
    (hvalid : state.validate = .ok ()) :
    (transact decide).exec (some state) = match decide state with
      | .ok handled => (.ok handled.2, some (after state handled))
      | .error e => (.error e, some state) := by
  unfold transact
  rw [exec_bind, exec_loadState_of_valid hvalid]
  dsimp only
  rw [exec_bind, exec_check]
  cases decide state with
  | error e => rfl
  | ok handled => exact exec_conclude handled

end Stores

end Program

end AikitRuntime.Mcp
