import AikitRuntime.Mcp.ServerState

/-!
# The MCP server

`McpJsonRpcServer` answers one JSON-RPC message at a time. Every operation loads the state, decides
what it becomes, and commits it with a compare-and-swap on the revision that was loaded. The handlers
are functions of the state; `transact` is the program around them. The clock is read several times in a
call, and `Readings` says what it showed.
-/

namespace AikitRuntime.Mcp

open Library Durability
open Agent (JsonSchema)

/-! ### The environment -/

/-- `serde_json::from_slice`: a value, or why the bytes are none. -/
class JsonReader where
  fromSlice : List UInt8 → Except String Value

/-- What one call reads from the clock, by what it reads it for. -/
structure Readings where
  collecting : Nat
  pruning : Nat
  checking : Nat
  expiring : Nat
  expiringText : String
  now : Nat
  nowText : String
  laterText : String
  completing : Nat
  creating : Nat

/-- The limits of an `McpJsonRpcServer`, and what it says of itself. -/
structure McpJsonRpcServer where
  serverInfo : McpServerInfo
  maxRequestBytes : Nat
  maxReceipts : Nat
  maxTasks : Nat
  retentionMs : Nat
  maxResultBytes : Nat
  maxResultItems : Nat
  maxResultDepth : Nat

/-- The calls of `McpServerStateStore`. -/
inductive StoreQuery where
  | load
  | compareAndSwap (expectedRevision : Option Nat) (state : McpServerState)

/-- What they answer. -/
def StoreQuery.Answer : StoreQuery → Type
  | .load => ProtocolResult (Option McpServerState)
  | .compareAndSwap _ _ => ProtocolResult Unit

/-- A program of the server. -/
abbrev Program (α : Type) : Type := ExceptT ProtocolError (Prog StoreQuery StoreQuery.Answer) α

/-- What a handler decides: the state to commit, if there is one, and what is returned then. -/
abbrev Handled (α : Type) : Type := Option McpServerState × α

/-- A request of a connection that was authorized. -/
structure RequestContext where
  connectionId : String
  principal : ProtocolPrincipal
  request : ParsedRequest
  requestHash : String

namespace McpJsonRpcServer

variable (server : McpJsonRpcServer) (clock : Readings) (state : McpServerState)

section Handlers

variable [Digest] [JsonSchema]

/-! ### Answers -/

/-- `record_completed`. -/
def recordCompleted (connectionId : String) (request : ParsedRequest) (id : Value) (requestHash : String)
    (response : Value) : McpServerState :=
  state.insertReceipt connectionId request id requestHash clock.creating
    (.completed response clock.completing)

/-- A response that is recorded, with the messages that go out with it. -/
def recorded (ctx : RequestContext) (id response : Value) (outbound : List McpOutboundMessage)
    (decision : Option Decision) : Handled McpJsonRpcDispatch :=
  (some (recordCompleted clock state ctx.connectionId ctx.request id ctx.requestHash response),
    ⟨some response, outbound, decision, none⟩)

/-- `complete_wire_error`. -/
def completeWireError (ctx : RequestContext) (id : Value) (code : JsonRpcCode) (message : String) :
    Handled McpJsonRpcDispatch :=
  recorded clock state ctx id (jsonrpcError id code message none) [] none

/-- A receipt that waits, and the handle of its response. -/
def waiting (ctx : RequestContext) (id : Value) (receiptState : McpReceiptState) (operation : String)
    (outbound : List McpOutboundMessage) (decision : Decision) :
    Handled McpJsonRpcDispatch :=
  (some (state.insertReceipt ctx.connectionId ctx.request id ctx.requestHash clock.creating receiptState),
    ⟨none, outbound, some decision, some ⟨ctx.connectionId, id, operation⟩⟩)

/-! ### Initialization -/

/-- The capabilities of the server. -/
def initializeResult : Value :=
  let changes := Value.ofFields [("listChanged", .bool true)]
  .ofFields
    [("protocolVersion", .string mcpServerContractRevision),
      ("capabilities", .ofFields
        [("tools", changes), ("resources", changes), ("prompts", changes),
          ("tasks", .ofFields
            [("list", .object []), ("cancel", .object []),
              ("requests", .ofFields [("tools", .ofFields [("call", .object [])])])])]),
      ("serverInfo", serverInfoWire server.serverInfo)]

/-- `handle_initialize`. -/
def handleInitialize (connectionId : String) (principal : Option ProtocolPrincipal)
    (request : ParsedRequest) (requestHash : String) : Handled McpJsonRpcDispatch :=
  match request.id with
  | none => (none, .notification)
  | some id =>
    let answer (state : McpServerState) (response : Value) :=
      (some (recordCompleted clock state connectionId request id requestHash response),
        McpJsonRpcDispatch.respond response)
    match principal with
    | none => answer state (jsonrpcError id .forbidden "authenticated principal is required" none)
    | some principal =>
      if state.connections.contains connectionId then
        answer state (jsonrpcError id .invalidRequest "MCP connection was already initialized" none)
      else
        let clientName := (pointer request.params ["clientInfo", "name"]).bind Value.asStr
        let clientVersion := (pointer request.params ["clientInfo", "version"]).bind Value.asStr
        if request.params.getStr "protocolVersion" ≠ some mcpServerContractRevision ∨
            clientName.all (· = "") = true ∨ clientVersion.all (· = "") = true ∨
            (request.params.get "capabilities").any Value.isObject = false then
          answer state (jsonrpcError id .invalidParams "unsupported protocolVersion or invalid clientInfo"
            (some (.ofFields [("supportedProtocolVersion", .string mcpServerContractRevision)])))
        else
          answer
            { state with
              connections := state.connections.insert connectionId
                { subject := principal.subject
                  tenantId := principal.tenantId
                  initialized := false
                  clientName := clientName.getD ""
                  clientVersion := clientVersion.getD ""
                  receiptNamespaceRetired := false } }
            (jsonrpcResult id server.initializeResult)

/-- `handle_initialized_notification`. -/
def handleInitializedNotification (connectionId : String) (principal : Option ProtocolPrincipal)
    (request : ParsedRequest) : Handled McpJsonRpcDispatch :=
  if request.id.isSome then
    (none, request.errorOrIgnore .invalidRequest "notifications/initialized must not contain an id")
  else match principal, state.connections[connectionId]? with
    | some principal, some connection =>
      if connection.admits principal then
        (some { state with
          connections := state.connections.insert connectionId { connection with initialized := true } },
          .notification)
      else (none, .notification)
    | _, _ => (none, .notification)

/-! ### Lists -/

/-- A request whose decision is its response. -/
def answerDecision (ctx : RequestContext) (decide : CorrelationIdentity → Decision)
    (render : McpServerAction → Option Value) : ProtocolResult (Handled McpJsonRpcDispatch) :=
  match ctx.request.id with
  | none => .ok (none, .notification)
  | some id => do
    let decision := decide (← correlation ctx.connectionId ctx.request)
    let response := match decision.action.bind render with
      | some result => jsonrpcResult id result
      | none => decisionError id decision.envelope
    pure (recorded clock state ctx id response [] (some decision))

/-- `list_tools`. -/
def listTools (ctx : RequestContext) : ProtocolResult (Handled McpJsonRpcDispatch) :=
  answerDecision clock state ctx (state.registry.prepareListTools · (some ctx.principal)) fun
    | .listTools tools => some (.ofFields [("tools", .array (tools.map toolWire))])
    | _ => none

/-- `list_resources`. -/
def listResources (ctx : RequestContext) : ProtocolResult (Handled McpJsonRpcDispatch) :=
  answerDecision clock state ctx (state.registry.prepareListResources · (some ctx.principal)) fun
    | .listResources resources => some (.ofFields [("resources", .array (resources.map resourceWire))])
    | _ => none

/-- `list_prompts`. -/
def listPrompts (ctx : RequestContext) : ProtocolResult (Handled McpJsonRpcDispatch) :=
  answerDecision clock state ctx (state.registry.prepareListPrompts · (some ctx.principal)) fun
    | .listPrompts prompts => some (.ofFields [("prompts", .array (prompts.map promptWire))])
    | _ => none

/-! ### Calls -/

/-- `action_task`. -/
def actionTask : McpServerAction → Option McpTask
  | .invokeTool task | .awaitApproval task _ => some task
  | _ => none

/-- The `ttl` of a call: absent without a task or a `ttl`. -/
def callTtl (params : Value) : Option Nat :=
  match (params.get "task").bind (·.get "ttl") with
  | none => some defaultMcpTaskTtlMs
  | some ttl => ttl.asU64

/-- What the parameters of a call are. -/
structure CallParams where
  name : String
  arguments : Value
  executionMode : McpToolExecutionMode
  ttl : Nat
  progressToken : Option Value

/-- The parameters of a call, or why they are refused. -/
def parseCall (params : Value) : Except String CallParams := do
  let name ← okOr (params.getStr "name") "tools/call requires name"
  let arguments := (params.get "arguments").getD (.object [])
  refuseIf (arguments.isObject = false) "tools/call arguments must be an object"
  let task := params.get "task"
  let ttl ← okOr
    ((callTtl params).filter fun ttl => task.all Value.isObject && ttl ≠ 0 && ttl ≤ maxMcpTaskTtlMs)
    "task.ttl is invalid or exceeds the configured maximum"
  let progressToken := pointer params ["_meta", "progressToken"]
  refuseIf (progressToken.any fun token => !validRequestId token)
    "progressToken must be a string or number"
  pure ⟨name, arguments, if task.isSome then .task else .direct, ttl, progressToken⟩

/-- The metadata of a new task. -/
def newMetadata (ctx : RequestContext) (call : CallParams) : McpTaskWireMetadata where
  connectionId := ctx.connectionId
  createdAt := clock.nowText
  lastUpdatedAt := clock.nowText
  createdAtUnixMs := clock.now
  lastUpdatedAtUnixMs := clock.now
  expiresAtUnixMs := saturatingAdd clock.now call.ttl
  ttl := call.ttl
  pollInterval := defaultMcpPollIntervalMs
  progressToken := call.progressToken

/-- The end of `call_tool` where the arguments do not match: the task has failed. -/
def failCall (ctx : RequestContext) (id : Value) (call : CallParams) (task : McpTask) (message : String) :
    ProtocolResult (Handled McpJsonRpcDispatch) := do
  let toolResult := toolExecutionError message
  let registry ← state.registry.completeToolResult task.taskId toolResult true
  let failedTask := registry.tasks[task.taskId]?.getD task
  let state := { state with registry }.updateTaskTime failedTask.taskId clock.laterText clock.now
  let response := match call.executionMode with
    | .task =>
      jsonrpcResult id
        (.ofFields [("task", taskWire failedTask state.taskMetadata[task.taskId]?)])
    | .direct => jsonrpcResult id toolResult
  pure (recorded clock state ctx id response [] none)

/-- The end of `call_tool` where the host has something to do. -/
def startCall (ctx : RequestContext) (id : Value) (call : CallParams) (task : McpTask)
    (decision : Decision) : Handled McpJsonRpcDispatch :=
  match call.executionMode with
  | .task =>
    let response := jsonrpcResult id (.ofFields [("task", taskWire task state.taskMetadata[task.taskId]?)])
    (some (state.insertReceipt ctx.connectionId ctx.request id ctx.requestHash clock.creating
        (.completed response clock.now)),
      ⟨some response, [], some decision, none⟩)
  | .direct =>
    waiting clock state ctx id (.pendingHost "tools/call" (some task.taskId)) "tools/call" [] decision

/-- `call_tool`, with its parameters. -/
def prepareCall (ctx : RequestContext) (id : Value) (call : CallParams) : ProtocolResult (Handled McpJsonRpcDispatch) := do
  let inputError := state.registry.inputError call.name call.arguments
  let identity ← correlation ctx.connectionId ctx.request
  let (registry, decision) := state.registry.prepareToolCall identity (some ctx.principal)
    ⟨call.name, call.arguments, call.executionMode⟩
  let state := { state with registry }
  match decision.action.bind actionTask with
  | none =>
    let code : JsonRpcCode := match decision.envelope.authorization with
      | .denied .stateConflict _ => .methodNotFound
      | _ => .forbidden
    pure (recorded clock state ctx id (decisionErrorWithCode id decision.envelope code) [] (some decision))
  | some task =>
    let state := { state with
      taskMetadata := state.taskMetadata.insert task.taskId (newMetadata clock ctx call) }
    match inputError with
    | some message => failCall clock state ctx id call task message
    | none => pure (startCall clock state ctx id call task decision)

/-- `call_tool`. -/
def callTool (ctx : RequestContext) : ProtocolResult (Handled McpJsonRpcDispatch) :=
  match ctx.request.id with
  | none => .ok (none, .notification)
  | some id =>
    if server.maxTasks ≤ state.registry.tasks.size then
      .ok (completeWireError clock state ctx id .internalError "MCP task capacity exhausted")
    else match parseCall ctx.request.params with
      | .error message => .ok (completeWireError clock state ctx id .invalidParams message)
      | .ok call => prepareCall clock state ctx id call

/-! ### Resources and prompts -/

/-- `pending_host_dispatch`. -/
def pendingHostDispatch (ctx : RequestContext) (id : Value) (decision : Decision) (operation : String) :
    Handled McpJsonRpcDispatch :=
  if decision.isAuthorized then
    waiting clock state ctx id (.pendingHost operation none) operation [] decision
  else recorded clock state ctx id (decisionError id decision.envelope) [] (some decision)

/-- `read_resource`. -/
def readResource (ctx : RequestContext) : ProtocolResult (Handled McpJsonRpcDispatch) :=
  match ctx.request.id with
  | none => .ok (none, .notification)
  | some id =>
    match ctx.request.params.getStr "uri" with
    | none => .ok (completeWireError clock state ctx id .invalidParams "resources/read requires uri")
    | some uri => do
      let identity ← correlation ctx.connectionId ctx.request
      let decision := state.registry.prepareReadResource identity (some ctx.principal) uri
      pure (pendingHostDispatch clock state ctx id decision "resources/read")

/-- The arguments of a prompt: texts. -/
def promptArguments : Option Value → Option (BTreeMap String)
  | none => some ∅
  | some (.object fields) =>
    (fields.mapM fun (field : String × Value) => field.2.asStr.map fun text => (field.1, text)).map fun texts =>
      texts.foldl (fun arguments text => arguments.insert text.1 text.2) ∅
  | some _ => none

/-- `get_prompt`. -/
def getPrompt (ctx : RequestContext) : ProtocolResult (Handled McpJsonRpcDispatch) :=
  match ctx.request.id with
  | none => .ok (none, .notification)
  | some id =>
    match ctx.request.params.getStr "name" with
    | none => .ok (completeWireError clock state ctx id .invalidParams "prompts/get requires name")
    | some name =>
      match promptArguments (ctx.request.params.get "arguments") with
      | none =>
        .ok (completeWireError clock state ctx id .invalidParams
          "prompts/get arguments must be an object of strings")
      | some arguments => do
        let identity ← correlation ctx.connectionId ctx.request
        let decision := state.registry.prepareRenderPrompt identity (some ctx.principal) name arguments
        pure (pendingHostDispatch clock state ctx id decision "prompts/get")

/-! ### Tasks -/

/-- The expiry that the task methods start with. -/
def expireFirst : ProtocolResult (McpServerState × List McpOutboundMessage) :=
  state.expireDueTasks clock.expiringText clock.expiring

/-- `get_task`. -/
def getTask (ctx : RequestContext) : ProtocolResult (Handled McpJsonRpcDispatch) := do
  let (state, maintenance) ← expireFirst clock state
  match ctx.request.id with
  | none => pure (none, .notification)
  | some id =>
    match ctx.request.params.getStr "taskId" with
    | none => pure (completeWireError clock state ctx id .invalidParams "tasks/get requires taskId")
    | some taskId =>
      let identity ← correlation ctx.connectionId ctx.request
      let decision := state.registry.prepareGetTask identity (some ctx.principal) taskId
      let response := match decision.action with
        | some (.getTask task) => jsonrpcResult id (taskWire task state.taskMetadata[taskId]?)
        | _ => decisionError id decision.envelope
      pure (recorded clock state ctx id response maintenance (some decision))

/-- A page of `tasks/list`, after a cursor. -/
def taskPage (tasks : List McpTask) (cursor : Option String) : Option Value :=
  let start := match cursor with
    | none => some 0
    | some cursor => (tasks.findIdx? fun (task : McpTask) => task.taskId = cursor).map (· + 1)
  start.map fun start =>
    let page := (tasks.drop start).take 100
    let wire := Value.array (page.map fun (task : McpTask) => taskWire task state.taskMetadata[task.taskId]?)
    let next := if start + page.length < tasks.length then page.getLast? else none
    .ofFields ([("tasks", wire)] ++ next.toList.map fun (task : McpTask) =>
      ("nextCursor", .string task.taskId))

/-- `list_tasks`. -/
def listTasks (ctx : RequestContext) : ProtocolResult (Handled McpJsonRpcDispatch) := do
  let (state, maintenance) ← expireFirst clock state
  match ctx.request.id with
  | none => pure (none, .notification)
  | some id =>
    let identity ← correlation ctx.connectionId ctx.request
    let decision := state.registry.prepareListTasks identity (some ctx.principal)
    let response := match decision.action with
      | some (.listTasks tasks) =>
        match taskPage state tasks (ctx.request.params.getStr "cursor") with
        | some page => jsonrpcResult id page
        | none => jsonrpcError id .invalidParams "tasks/list cursor is invalid" none
      | _ => decisionError id decision.envelope
    pure (recorded clock state ctx id response maintenance (some decision))

/-- `cancel_task`. -/
def cancelTask (ctx : RequestContext) : ProtocolResult (Handled McpJsonRpcDispatch) := do
  let (state, maintenance) ← expireFirst clock state
  match ctx.request.id with
  | none => pure (none, .notification)
  | some id =>
    match ctx.request.params.getStr "taskId" with
    | none => pure (completeWireError clock state ctx id .invalidParams "tasks/cancel requires taskId")
    | some taskId =>
      if state.registry.tasks[taskId]?.any (·.advertised) then
        let identity ← correlation ctx.connectionId ctx.request
        let (registry, decision) := state.registry.prepareCancelTask identity (some ctx.principal) taskId
        let state := { state with registry }
        match decision.action with
        | some (.cancelTask task) =>
          let state := state.updateTaskTime task.taskId clock.nowText clock.now
          let response := jsonrpcResult id (taskWire task state.taskMetadata[taskId]?)
          pure (recorded clock state ctx id response maintenance (some decision))
        | _ =>
          let response := decisionErrorWithCode id decision.envelope .invalidParams
          pure (recorded clock state ctx id response maintenance (some decision))
      else pure (completeWireError clock state ctx id .invalidParams "MCP task is not accessible")

/-- `task_result`. -/
def taskResult (ctx : RequestContext) : ProtocolResult (Handled McpJsonRpcDispatch) := do
  let (state, maintenance) ← expireFirst clock state
  match ctx.request.id with
  | none => pure (none, .notification)
  | some id =>
    match ctx.request.params.getStr "taskId" with
    | none => pure (completeWireError clock state ctx id .invalidParams "tasks/result requires taskId")
    | some taskId =>
      let identity ← correlation ctx.connectionId ctx.request
      let decision := state.registry.prepareGetTask identity (some ctx.principal) taskId
      match decision.action with
      | some (.getTask task) =>
        if task.status.isTerminal then
          pure (recorded clock state ctx id (terminalTaskResponse id task) maintenance (some decision))
        else
          pure (waiting clock state ctx id (.waitingForTask taskId) "tasks/result" maintenance decision)
      | _ => pure (recorded clock state ctx id (decisionError id decision.envelope) maintenance (some decision))

/-- `cancel_request_notification`. -/
def cancelRequestNotification (ctx : RequestContext) : ProtocolResult (Handled McpJsonRpcDispatch) := do
  let (state, maintenance) ← expireFirst clock state
  if ctx.request.id.isSome then
    pure (none,
      ctx.request.errorOrIgnore .invalidRequest "notifications/cancelled must not contain an id")
  else
    let requestId := (ctx.request.params.get "requestId").filter validRequestId
    let receipt := requestId.bind fun id => state.receipts[receiptKey ctx.connectionId id]?
    match receipt.bind (·.taskId) with
    | none => pure (none, .notification)
    | some taskId =>
      let identity ← correlation ctx.connectionId ctx.request
      let (registry, decision) := state.registry.prepareCancelTask identity (some ctx.principal) taskId
      if decision.isAuthorized then
        pure (some { state with registry }, ⟨none, maintenance, some decision, none⟩)
      else pure (none, ⟨none, [], some decision, none⟩)

/-! ### Dispatch -/

/-- `dispatch_initialized`. -/
def dispatchInitialized (ctx : RequestContext) : ProtocolResult (Handled McpJsonRpcDispatch) :=
  match ctx.request.method with
  | "tools/list" => listTools clock state ctx
  | "resources/list" => listResources clock state ctx
  | "prompts/list" => listPrompts clock state ctx
  | "tools/call" => server.callTool clock state ctx
  | "resources/read" => readResource clock state ctx
  | "prompts/get" => getPrompt clock state ctx
  | "tasks/get" => getTask clock state ctx
  | "tasks/list" => listTasks clock state ctx
  | "tasks/cancel" => cancelTask clock state ctx
  | "tasks/result" => taskResult clock state ctx
  | "notifications/cancelled" => cancelRequestNotification clock state ctx
  | _ =>
    match ctx.request.id with
    | none => .ok (none, .notification)
    | some id => .ok (recorded clock state ctx id (jsonrpcError id .methodNotFound "Method not found" none) [] none)

/-- The part of `handle` that knows who asks. -/
def dispatch (connectionId : String) (principal : Option ProtocolPrincipal) (request : ParsedRequest)
    (requestHash : String) : ProtocolResult (Handled McpJsonRpcDispatch) :=
  if request.method = "initialize" then
    .ok (server.handleInitialize clock state connectionId principal request requestHash)
  else if request.method = "notifications/initialized" then
    .ok (handleInitializedNotification state connectionId principal request)
  else match state.connections[connectionId]?, principal with
    | none, _ =>
      .ok (none, request.errorOrIgnore .notInitialized "MCP connection is not initialized")
    | some _, none =>
      .ok (none, request.errorOrIgnore .forbidden "authenticated principal is required")
    | some connection, some principal =>
      if connection.admits principal = false then
        .ok (none, request.errorOrIgnore .forbidden "MCP connection authorization context changed")
      else if connection.initialized = false then
        .ok (none, request.errorOrIgnore .notInitialized
          "notifications/initialized must complete the MCP handshake")
      else server.dispatchInitialized clock state ⟨connectionId, principal, request, requestHash⟩

/-- The part of `handle` after the garbage collection. -/
def respond (connectionId : String) (principal : Option ProtocolPrincipal) (request : ParsedRequest)
    (requestHash : String) : ProtocolResult (Handled McpJsonRpcDispatch) :=
  match request.id with
  | none => server.dispatch clock state connectionId principal request requestHash
  | some id =>
    match state.receipts[receiptKey connectionId id]? with
    | some receipt =>
      if receipt.requestHash ≠ requestHash then
        .ok (none, .respond (jsonrpcError id .conflict
          "JSON-RPC id was reused with different request content" none))
      else .ok (none, receipt.replay)
    | none =>
      if state.connections[connectionId]?.any (·.receiptNamespaceRetired) then
        .ok (none, reconciliationRequired request.id)
      else
        let state :=
          if server.maxReceipts ≤ state.receipts.size then
            state.pruneCompletedSafeReceipt clock.pruning server.retentionMs
          else state
        if server.maxReceipts ≤ state.receipts.size then
          .ok (none, .respond (jsonrpcError id .internalError "MCP request receipt capacity exhausted" none))
        else server.dispatch clock state connectionId principal request requestHash

/-- A message that the server reads: it is answered at once, or is a request. -/
inductive Ingress where
  | answered (dispatch : McpJsonRpcDispatch)
  | request (raw : Value) (request : ParsedRequest)
  deriving DecidableEq

/-- The part of `handle` before the state is loaded. -/
def ingress [JsonReader] (connectionId : String) (payload : List UInt8) : ProtocolResult Ingress := do
  refuseIf (isBlank connectionId) (.invalid "MCP connection_id must not be empty")
  refuseIf (512 < connectionId.utf8ByteSize ∨ hasControl connectionId = true)
    (.invalid "MCP connection_id is invalid")
  if server.maxRequestBytes < payload.length then
    pure (.answered (.respond (jsonrpcError .null .invalidRequest
      "MCP JSON-RPC request exceeds the configured byte limit" none)))
  else match JsonReader.fromSlice payload with
    | .error detail =>
      pure (.answered (.respond (jsonrpcError .null .parseError "Parse error"
        (some (.ofFields [("detail", .string detail)])))))
    | .ok raw => match ParsedRequest.parse raw with
      | .error (id, message) => pure (.answered (.respond (jsonrpcError id .invalidRequest message none)))
      | .ok request => pure (.request raw request)

end Handlers

end McpJsonRpcServer

end AikitRuntime.Mcp
