import AikitRuntime.Mcp.Wire

/-!
# The state of an MCP server

What the server keeps beside its registry: the connections, a receipt for each request that was
answered or is being answered, and the wire metadata of the tasks. A receipt waits for the host or for
a task, or it has the response. `release` completes receipts that wait and returns their responses as
messages; a task that expires releases the receipts that wait for it. `collectGarbage` drops what was
retained long enough, and retires the connections whose receipts can no longer prove what was done.
-/

namespace AikitRuntime.Mcp

open Library Durability
open Agent (JsonSchema)

/-! ### Connections and receipts -/

/-- `McpConnectionState`. -/
structure McpConnectionState where
  subject : String
  tenantId : Option String
  initialized : Bool
  clientName : String
  clientVersion : String
  receiptNamespaceRetired : Bool
  deriving DecidableEq

/-- `McpConnectionState::matches`. -/
def McpConnectionState.admits (connection : McpConnectionState) (principal : ProtocolPrincipal) : Bool :=
  connection.subject = principal.subject && connection.tenantId = principal.tenantId

/-- `McpReceiptState`. -/
inductive McpReceiptState where
  | pendingHost (operation : String) (taskId : Option String)
  | waitingForTask (taskId : String)
  | completed (response : Value) (completedAtUnixMs : Nat)
  deriving DecidableEq

/-- `McpRequestReceipt`. -/
structure McpRequestReceipt where
  connectionId : String
  requestId : Value
  method : String
  requestHash : String
  createdAtUnixMs : Nat
  state : McpReceiptState
  deriving DecidableEq

namespace McpRequestReceipt

variable (receipt : McpRequestReceipt)

/-- `receipt_task_id`. -/
def taskId : Option String :=
  match receipt.state with
  | .pendingHost _ taskId => taskId
  | .waitingForTask taskId => some taskId
  | .completed _ _ => none

/-- The time of the completion. -/
def completedAt : Option Nat :=
  match receipt.state with
  | .completed _ completedAtUnixMs => some completedAtUnixMs
  | .pendingHost _ _ | .waitingForTask _ => none

/-- `receipt_requires_replay_proof`. -/
def requiresReplayProof : Bool :=
  receipt.method = "" ||
    ["tools/call", "resources/read", "prompts/get", "tasks/cancel"].contains receipt.method

/-- `replay_receipt`. -/
def replay : McpJsonRpcDispatch :=
  match receipt.state with
  | .completed response _ => .respond response
  | .pendingHost operation _ =>
    .respond (jsonrpcError receipt.requestId .conflict "Identical MCP request is still in progress"
      (some (.ofFields [("operation", .string operation)])))
  | .waitingForTask taskId =>
    .respond (jsonrpcError receipt.requestId .conflict "MCP tasks/result request is already waiting"
      (some (.ofFields [("taskId", .string taskId)])))

end McpRequestReceipt

/-- `receipt_retention_elapsed`. -/
def receiptRetentionElapsed (completedAtUnixMs now retentionMs : Nat) : Bool :=
  completedAtUnixMs = 0 || saturatingAdd completedAtUnixMs retentionMs ≤ now

/-! ### The state -/

/-- `McpServerState`. -/
structure McpServerState where
  schemaVersion : Nat
  storageRevision : Nat
  registry : McpServerRegistry
  connections : BTreeMap McpConnectionState
  receipts : BTreeMap McpRequestReceipt
  taskMetadata : BTreeMap McpTaskWireMetadata
  deriving DecidableEq

namespace McpServerState

/-- `McpServerState::new`. -/
def new (registry : McpServerRegistry) : McpServerState := ⟨1, 0, registry, ∅, ∅, ∅⟩

variable (state : McpServerState)

/-- What `validate` checks of a task. -/
def validateTask (entry : String × McpTask) : ProtocolResult Unit := do
  let (taskId, task) := entry
  refuseIf (taskId ≠ task.taskId) (.invalid "MCP task map key does not match task_id")
  refuseIf (task.advertised = true ∧ state.taskMetadata.contains taskId = false)
    (.invalid "advertised MCP task is missing durable wire metadata")
  firstRefusal
    (validateJsonBounds · defaultMcpMaxResultBytes defaultMcpMaxResultItems defaultMcpMaxResultDepth)
    task.result.toList

/-- `McpServerState::validate`. -/
def validate [JsonSchema] : ProtocolResult Unit := do
  refuseIf (state.schemaVersion ≠ 1)
    (.invalid s!"unsupported MCP server state version: {state.schemaVersion}")
  firstRefusal McpToolDefinition.validate state.registry.tools.values
  firstRefusal McpResourceDefinition.validate state.registry.resources.values
  firstRefusal McpPromptDefinition.validate state.registry.prompts.values
  firstRefusal state.validateTask state.registry.tasks.toList

/-! #### Updates -/

/-- The task is registered, and not over. -/
def isRunning (taskId : String) : Bool :=
  state.registry.tasks[taskId]?.any fun task => !task.status.isTerminal

/-- `update_task_time`. -/
def updateTaskTime (taskId now : String) (nowUnixMs : Nat) : McpServerState :=
  match state.taskMetadata[taskId]? with
  | none => state
  | some metadata =>
    { state with
      taskMetadata := state.taskMetadata.insert taskId
        { metadata with lastUpdatedAt := now, lastUpdatedAtUnixMs := nowUnixMs } }

/-- `update_task_time`, of the task that is registered under an id. -/
def stampTask (taskId now : String) (nowUnixMs : Nat) : McpServerState :=
  match state.registry.tasks[taskId]? with
  | none => state
  | some task => state.updateTaskTime task.taskId now nowUnixMs

/-- What an answer makes of a receipt. -/
def answered (answer : McpRequestReceipt → Option Value) (completedAtUnixMs : Nat)
    (receipt : McpRequestReceipt) : McpRequestReceipt :=
  match answer receipt with
  | some response => { receipt with state := .completed response completedAtUnixMs }
  | none => receipt

/-- The loop over all receipts that completes those which have an answer. -/
def release (answer : McpRequestReceipt → Option Value) (completedAtUnixMs : Nat) :
    McpServerState × List McpOutboundMessage :=
  ({ state with receipts := state.receipts.map fun _ => answered answer completedAtUnixMs },
    state.receipts.values.filterMap fun receipt =>
      (answer receipt).map (McpOutboundMessage.mk receipt.connectionId))

/-- The response of a tool call that waits for a task. -/
def directAnswer (taskId : String) (result : ProtocolResult Value) (receipt : McpRequestReceipt) :
    Option Value :=
  match receipt.state with
  | .pendingHost operation (some id) =>
    if operation = "tools/call" ∧ id = taskId then
      some (match result with
        | .ok result => jsonrpcResult receipt.requestId result
        | .error error => protocolErrorResponse receipt.requestId error)
    else none
  | _ => none

/-- `complete_direct_tool_receipts`. -/
def completeDirectToolReceipts (taskId : String) (result : ProtocolResult Value) (completedAtUnixMs : Nat) :
    McpServerState × List McpOutboundMessage :=
  state.release (directAnswer taskId result) completedAtUnixMs

/-- The response of a request for the result of a task. -/
def waiterAnswer (taskId : String) (result : ProtocolResult Value) (receipt : McpRequestReceipt) :
    Option Value :=
  match receipt.state with
  | .waitingForTask id =>
    if id = taskId then
      some (match result with
        | .ok result => jsonrpcResult receipt.requestId (withRelatedTask result taskId)
        | .error error => protocolErrorResponse receipt.requestId error)
    else none
  | _ => none

/-- `complete_task_waiters`. -/
def completeTaskWaiters (taskId : String) (result : ProtocolResult Value) (completedAtUnixMs : Nat) :
    McpServerState × List McpOutboundMessage :=
  state.release (waiterAnswer taskId result) completedAtUnixMs

/-- `task_connections`: in order, and each one once. -/
def taskConnections (taskId : String) : List String :=
  (BTreeSet.ofList
    ((state.receipts.values.filter fun receipt => receipt.taskId = some taskId).map (·.connectionId) ++
      state.taskMetadata[taskId]?.toList.map (·.connectionId))).elements

/-- `task_notifications`. -/
def taskNotifications (taskId : String) : List McpOutboundMessage :=
  match state.registry.tasks[taskId]? with
  | none => []
  | some task =>
    (state.taskConnections taskId).map fun connectionId =>
      ⟨connectionId, taskStatusNotification task state.taskMetadata[taskId]?⟩

/-- The task has ended: its receipts are answered, and its status is told. -/
def releaseTask (taskId : String) (result : ProtocolResult Value) (now : String) (nowUnixMs : Nat) :
    McpServerState × List McpOutboundMessage :=
  let state := state.stampTask taskId now nowUnixMs
  let (state, direct) := state.completeDirectToolReceipts taskId result nowUnixMs
  let (state, waiters) := state.completeTaskWaiters taskId result nowUnixMs
  (state, direct ++ waiters ++ state.taskNotifications taskId)

/-! #### Expiry -/

/-- The time of a task is over. -/
def isDue (metadata : McpTaskWireMetadata) (now : Nat) : Bool :=
  metadata.expiresAtUnixMs = 0 || metadata.expiresAtUnixMs ≤ now

/-- `task_is_expired`. -/
def taskIsExpired (taskId : String) (now : Nat) : Bool :=
  state.taskMetadata[taskId]?.any (isDue · now) && state.isRunning taskId

/-- The tasks that `expire_due_tasks` finds. -/
def dueTasks (now : Nat) : List String :=
  ((state.taskMetadata.toList.filter fun entry => isDue entry.2 now).map Prod.fst).filter state.isRunning

/-- The loop of `expire_due_tasks`. -/
def expireTasks (now : String) (nowUnixMs : Nat) :
    List String → McpServerState → ProtocolResult (McpServerState × List McpOutboundMessage)
  | [], state => .ok (state, [])
  | taskId :: rest, state => do
    let registry ← state.registry.expireTask taskId
    let (state, outbound) := { state with registry }.releaseTask taskId
      (.error (.conflict "MCP task TTL expired")) now nowUnixMs
    let (state, more) ← expireTasks now nowUnixMs rest state
    pure (state, outbound ++ more)

/-- `expire_due_tasks`. -/
def expireDueTasks (now : String) (nowUnixMs : Nat) :
    ProtocolResult (McpServerState × List McpOutboundMessage) :=
  expireTasks now nowUnixMs (state.dueTasks nowUnixMs) state

/-! #### Garbage collection -/

/-- The connections whose receipts can no longer prove what was done. -/
def retiredConnections (now retentionMs : Nat) : BTreeSet :=
  .ofList ((state.receipts.values.filter fun receipt =>
    receipt.completedAt.any fun completedAt =>
      receipt.requiresReplayProof && receiptRetentionElapsed completedAt now retentionMs).map (·.connectionId))

/-- The connections, of which some are retired. -/
def retireConnections (retired : BTreeSet) : McpServerState :=
  { state with
    connections := state.connections.map fun connectionId connection =>
      if retired.contains connectionId then { connection with receiptNamespaceRetired := true }
      else connection }

/-- A receipt that garbage collection keeps. -/
def keepsReceipt (retired : BTreeSet) (now retentionMs : Nat) (receipt : McpRequestReceipt) : Bool :=
  receipt.completedAt.all fun completedAt =>
    !retired.contains receipt.connectionId && !receiptRetentionElapsed completedAt now retentionMs

/-- The tasks that ended long ago and that no receipt waits for. -/
def removableTasks (now retentionMs : Nat) : List String :=
  let retained := state.receipts.values.filterMap (·.taskId)
  (state.taskMetadata.toList.filter fun entry =>
    !retained.contains entry.1 && entry.2.lastUpdatedAtUnixMs ≠ 0 &&
      saturatingAdd entry.2.lastUpdatedAtUnixMs retentionMs ≤ now &&
      state.registry.tasks[entry.1]?.any (·.status.isTerminal)).map Prod.fst

/-- The loop over the tasks that are removed. -/
def removeTasks : List String → McpServerState → ProtocolResult McpServerState
  | [], state => .ok state
  | taskId :: rest, state => do
    let registry ← state.registry.removeTerminalTask taskId
    removeTasks rest { state with registry, taskMetadata := state.taskMetadata.erase taskId }

/-- `collect_garbage`, as far as receipts are concerned. -/
def dropReceipts (now retentionMs : Nat) : McpServerState :=
  let retired := state.retiredConnections now retentionMs
  { state.retireConnections retired with
    receipts := BTreeMap.retain (fun _ receipt => keepsReceipt retired now retentionMs receipt)
      state.receipts }

/-- `collect_garbage`: the state, and whether something was dropped. -/
def collectGarbage (now retentionMs : Nat) : ProtocolResult (McpServerState × Bool) := do
  let dropped := state.dropReceipts now retentionMs
  let removable := dropped.removableTasks now retentionMs
  let result ← removeTasks removable dropped
  pure (result, dropped.receipts.size ≠ state.receipts.size || !removable.isEmpty)

/-- `prune_completed_safe_receipt`. -/
def pruneCompletedSafeReceipt (now retentionMs : Nat) : McpServerState :=
  let removable := state.receipts.toList.find? fun entry =>
    entry.2.completedAt.any fun completedAt =>
      !entry.2.requiresReplayProof && receiptRetentionElapsed completedAt now retentionMs
  match removable with
  | none => state
  | some (key, _) => { state with receipts := state.receipts.erase key }

/-! #### Receipts -/

/-- `insert_receipt`, of a request with an id. -/
def insertReceipt [Digest] (connectionId : String) (request : ParsedRequest) (id : Value) (requestHash : String)
    (createdAtUnixMs : Nat) (receiptState : McpReceiptState) : McpServerState :=
  { state with
    receipts := state.receipts.insert (receiptKey connectionId id)
      { connectionId
        requestId := id
        method := request.method
        requestHash
        createdAtUnixMs
        state := receiptState } }

end McpServerState

end AikitRuntime.Mcp
