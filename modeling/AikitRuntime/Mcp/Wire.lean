import AikitRuntime.Mcp.Registry

/-!
# JSON-RPC on the wire

Requests as they are parsed, the identities that are derived from them, and the responses,
notifications and objects that are written. A response carries the id of its request; a notification
carries none.
-/

namespace AikitRuntime.Mcp

open Library Durability

/-! ### Limits and codes -/

/-- `MCP_SERVER_CONTRACT_REVISION`. -/
def mcpServerContractRevision : String := "2025-11-25"

/-- `DEFAULT_MCP_MAX_RESULT_BYTES`. -/
def defaultMcpMaxResultBytes : Nat := 1024 * 1024

/-- `DEFAULT_MCP_MAX_RESULT_ITEMS`. -/
def defaultMcpMaxResultItems : Nat := 4096

/-- `DEFAULT_MCP_MAX_RESULT_DEPTH`. -/
def defaultMcpMaxResultDepth : Nat := 32

/-- `DEFAULT_MCP_TASK_TTL_MS`. -/
def defaultMcpTaskTtlMs : Nat := 3600000

/-- `MAX_MCP_TASK_TTL_MS`. -/
def maxMcpTaskTtlMs : Nat := 86400000

/-- `DEFAULT_MCP_POLL_INTERVAL_MS`. -/
def defaultMcpPollIntervalMs : Nat := 1000

/-- The codes of errors: they are the negatives of these numbers. -/
inductive JsonRpcCode where
  | parseError | invalidRequest | methodNotFound | invalidParams | internalError
  | notInitialized | forbidden | conflict | reconciliationRequired | cancelled
  deriving DecidableEq

def JsonRpcCode.json : JsonRpcCode → Value
  | .parseError => .number (.negInt 32700)
  | .invalidRequest => .number (.negInt 32600)
  | .methodNotFound => .number (.negInt 32601)
  | .invalidParams => .number (.negInt 32602)
  | .internalError => .number (.negInt 32603)
  | .notInitialized => .number (.negInt 32002)
  | .forbidden => .number (.negInt 32003)
  | .conflict => .number (.negInt 32009)
  | .reconciliationRequired => .number (.negInt 32010)
  | .cancelled => .number (.negInt 32800)

/-! ### Responses -/

/-- `jsonrpc_result`. -/
def jsonrpcResult (id result : Value) : Value :=
  .ofFields [("jsonrpc", .string "2.0"), ("id", id), ("result", result)]

/-- `jsonrpc_error`. -/
def jsonrpcError (id : Value) (code : JsonRpcCode) (message : String) (data : Option Value) : Value :=
  .ofFields
    [("jsonrpc", .string "2.0"), ("id", id),
      ("error", .ofFields ([("code", code.json), ("message", .string message)] ++
        data.toList.map fun data => ("data", data)))]

/-- `protocol_error_response`. -/
def protocolErrorResponse (id : Value) (error : ProtocolError) : Value :=
  let code : JsonRpcCode := match error.code with
    | .invalidRequest | .invalidTransition | .notFound => .invalidParams
    | .unauthorized | .forbidden => .forbidden
    | .conflict => .conflict
    | .cancelled => .cancelled
  jsonrpcError id code error.message none

/-- `tool_execution_error`. -/
def toolExecutionError (message : String) : Value :=
  .ofFields
    [("content", .array [.ofFields [("type", .string "text"), ("text", .string message)]]),
      ("isError", .bool true)]

/-- `decision_error_with_code`. -/
def decisionErrorWithCode (id : Value) (envelope : GovernanceEnvelope) (code : JsonRpcCode) : Value :=
  let reason := match envelope.authorization with
    | .denied _ reason => reason
    | .allowed => "MCP operation produced no action"
  jsonrpcError id code reason
    (some (.ofFields
      [("operation", .string envelope.operation), ("target", .string envelope.target)]))

/-- `decision_error`. -/
def decisionError (id : Value) (envelope : GovernanceEnvelope) : Value :=
  decisionErrorWithCode id envelope .forbidden

/-! ### Requests -/

/-- `valid_request_id`: a text or an integer. -/
def validRequestId : Value → Bool
  | .string _ | .number (.posInt _) | .number (.negInt _) => true
  | .null | .bool _ | .number (.float _) | .array _ | .object _ => false

/-- `ParsedRequest`. -/
structure ParsedRequest where
  id : Option Value
  method : String
  params : Value
  deriving DecidableEq

/-- `ParsedRequest::parse`. The error has the id that its response carries. -/
def ParsedRequest.parse (raw : Value) : Except (Value × String) ParsedRequest :=
  match raw.asObject with
  | none => .error (.null, "JSON-RPC message must be an object")
  | some object => do
    let id := Value.field? "id" object
    let shown := id.getD .null
    refuseIf (id.any fun id => !validRequestId id) (.null, "JSON-RPC id must be a string or integer")
    refuseIf ((Value.field? "jsonrpc" object).bind Value.asStr ≠ some "2.0")
      (shown, "jsonrpc must equal 2.0")
    let method ← okOr ((Value.field? "method" object).bind Value.asStr)
      (shown, "JSON-RPC method is required")
    refuseIf (method = "" ∨ 256 < method.utf8ByteSize ∨ hasControl method = true)
      (shown, "JSON-RPC method is invalid")
    let params := (Value.field? "params" object).getD (.object [])
    refuseIf (params.isObject = false) (shown, "MCP params must be an object")
    pure ⟨id, method, params⟩

/-- `canonical_id`. -/
def canonicalId (id : Value) : String := String.ofList (canonicalJson id)

/-- `value.pointer(…)`, along the keys of objects. -/
def pointer (value : Value) (path : List String) : Option Value :=
  path.foldl (fun value key => value.bind fun value => value.get key) (some value)

section Identities

variable [Digest]

/-- `receipt_key`. -/
def receiptKey (connectionId : String) (id : Value) : String :=
  stableIdentifier "mcp_receipt" [connectionId, canonicalId id]

/-- The request identity of `correlation`. -/
def requestIdentity (connectionId : String) (request : ParsedRequest) : String :=
  match request.id with
  | none => stableIdentifier "mcp_notification" [connectionId, request.method]
  | some id => stableIdentifier "mcp_request" [connectionId, canonicalId id]

/-- The correlation id that the client chose, or the connection's own. -/
def correlationIdOf (connectionId : String) (request : ParsedRequest) : String :=
  ((pointer request.params ["_meta", "aikit", "correlationId"]).bind Value.asStr).getD
    (stableIdentifier "mcp_correlation" [connectionId])

/-- `correlation`. -/
def correlation (connectionId : String) (request : ParsedRequest) : ProtocolResult CorrelationIdentity :=
  CorrelationIdentity.new (correlationIdOf connectionId request) (requestIdentity connectionId request)

end Identities

/-! ### What a dispatch returns -/

/-- `McpOutboundMessage`. -/
structure McpOutboundMessage where
  connectionId : String
  message : Value
  deriving DecidableEq

/-- `McpPendingResponse`. -/
structure McpPendingResponse where
  connectionId : String
  requestId : Value
  operation : String
  deriving DecidableEq

/-- `McpJsonRpcDispatch`. -/
structure McpJsonRpcDispatch where
  response : Option Value
  outbound : List McpOutboundMessage
  governedAction : Option Decision
  pending : Option McpPendingResponse
  deriving DecidableEq

namespace McpJsonRpcDispatch

/-- `McpJsonRpcDispatch::response`. -/
def respond (response : Value) : McpJsonRpcDispatch := ⟨some response, [], none, none⟩

/-- `McpJsonRpcDispatch::notification`. -/
def notification : McpJsonRpcDispatch := ⟨none, [], none, none⟩

end McpJsonRpcDispatch

/-- `ParsedRequest::error_or_ignore`. -/
def ParsedRequest.errorOrIgnore (request : ParsedRequest) (code : JsonRpcCode) (message : String) :
    McpJsonRpcDispatch :=
  match request.id with
  | none => .notification
  | some id => .respond (jsonrpcError id code message none)

/-- `reconciliation_required`. -/
def reconciliationRequired (id : Option Value) : McpJsonRpcDispatch :=
  match id with
  | none => .notification
  | some id =>
    .respond (jsonrpcError id .reconciliationRequired
      "MCP request receipt expired; reconnect before submitting more work"
      (some (.ofFields
        [("type", .string "receipt_reconciliation_required"),
          ("reconciliationRequired", .bool true)])))

/-! ### Results of the host -/

mutual

/-- The values in a value. -/
def nodes : Value → Nat
  | .array items => 1 + nodesOfItems items
  | .object fields => 1 + nodesOfFields fields
  | .null | .bool _ | .number _ | .string _ => 1

def nodesOfItems : List Value → Nat
  | [] => 0
  | v :: rest => nodes v + nodesOfItems rest

def nodesOfFields : List (String × Value) → Nat
  | [] => 0
  | (_, v) :: rest => nodes v + nodesOfFields rest

end

/-- The loop of `validate_json_bounds`, over the stack, its top first. Every round takes a value of
the stack off, so there are as many rounds as values. -/
def checkNesting (maxItems maxDepth : Nat) : Nat → List (Value × Nat) → Nat → ProtocolResult Unit
  | 0, _, _ => .ok ()
  | _, [], _ => .ok ()
  | rounds + 1, (current, depth) :: rest, items => do
    refuseIf (maxDepth < depth) (.invalid "MCP result exceeds the configured nesting depth")
    refuseIf (maxItems < items + 1) (.invalid "MCP result exceeds the configured item limit")
    let inner := match current with
      | .array values => values
      | .object fields => fields.map Prod.snd
      | _ => []
    checkNesting maxItems maxDepth rounds (inner.reverse.map (·, depth + 1) ++ rest) (items + 1)

/-- `validate_json_bounds`. -/
def validateJsonBounds (value : Value) (maxBytes maxItems maxDepth : Nat) : ProtocolResult Unit := do
  refuseIf (maxBytes < (utf8 (canonicalJson value)).length)
    (.invalid "MCP result exceeds the configured byte limit")
  checkNesting maxItems maxDepth (nodes value) [(value, 1)] 0

/-- The value is an array. -/
def isArray : Value → Bool
  | .array _ => true
  | _ => false

/-- The value is a truth value. -/
def isBoolean : Value → Bool
  | .bool _ => true
  | _ => false

/-- `validate_tool_result`. -/
def validateToolResult (result : Value) (maxBytes maxItems maxDepth : Nat) : ProtocolResult Unit := do
  validateJsonBounds result maxBytes maxItems maxDepth
  refuseIf (result.isObject = false) (.invalid "MCP CallToolResult must be a JSON object")
  refuseIf ((result.get "content").any isArray = false)
    (.invalid "MCP CallToolResult.content must be an array")
  refuseIf ((result.get "isError").any fun flag => !isBoolean flag)
    (.invalid "MCP CallToolResult.isError must be a boolean")

/-- `validate_host_result`. -/
def validateHostResult (operation : String) (result : Value) (maxBytes maxItems maxDepth : Nat) :
    ProtocolResult Unit := do
  validateJsonBounds result maxBytes maxItems maxDepth
  let field ← match operation with
    | "resources/read" => .ok "contents"
    | "prompts/get" => .ok "messages"
    | _ => .error (ProtocolError.invalid "unsupported MCP pending host operation")
  refuseIf ((result.get field).any isArray = false)
    (.invalid s!"MCP {operation} result.{field} must be an array")

/-! ### Objects -/

/-- `McpServerInfo`. -/
structure McpServerInfo where
  name : String
  version : String
  title : Option String
  description : Option String
  deriving DecidableEq

/-- `server_info_wire`. -/
def serverInfoWire (info : McpServerInfo) : Value :=
  .ofFields ([("name", .string info.name), ("version", .string info.version)] ++
    (info.title.toList.map fun title => ("title", .string title)) ++
    info.description.toList.map fun description => ("description", .string description))

/-- A text, or null. -/
def optionalText (text : Option String) : Value := text.elim .null .string

/-- `tool_wire`. -/
def toolWire [Digest] (tool : McpToolDefinition) : Value :=
  .ofFields
    [("name", .string tool.name), ("description", .string tool.description),
      ("inputSchema", tool.inputSchema),
      ("execution", .ofFields [("taskSupport", .string tool.taskSupport.asStr)]),
      ("_meta", .ofFields ([("aikit/definitionHash", .string tool.definitionHash)] ++
        if tool.requiresApproval then [("aikit/requiresApproval", .bool true)] else []))]

/-- A resource in a list. -/
def resourceWire (resource : McpResourceDefinition) : Value :=
  .ofFields
    [("uri", .string resource.uri), ("name", .string resource.name),
      ("description", optionalText resource.description),
      ("mimeType", optionalText resource.mimeType)]

/-- The serialized argument of a prompt. -/
def promptArgumentWire (argument : McpPromptArgument) : Value :=
  .ofFields ([("name", .string argument.name)] ++
    (argument.description.toList.map fun text => ("description", .string text)) ++
    [("required", .bool argument.required)])

/-- A prompt in a list. -/
def promptWire (prompt : McpPromptDefinition) : Value :=
  .ofFields
    [("name", .string prompt.name), ("description", optionalText prompt.description),
      ("arguments", .array (prompt.arguments.map promptArgumentWire))]

/-- `McpTaskWireMetadata`. -/
structure McpTaskWireMetadata where
  connectionId : String
  createdAt : String
  lastUpdatedAt : String
  createdAtUnixMs : Nat
  lastUpdatedAtUnixMs : Nat
  expiresAtUnixMs : Nat
  ttl : Nat
  pollInterval : Nat
  progressToken : Option Value
  deriving DecidableEq

/-- The name of a status on the wire. -/
def McpTaskStatus.asStr : McpTaskStatus → String
  | .working => "working"
  | .inputRequired => "input_required"
  | .completed => "completed"
  | .failed => "failed"
  | .cancelled => "cancelled"

/-- `task_wire`. -/
def taskWire (task : McpTask) (metadata : Option McpTaskWireMetadata) : Value :=
  let epoch := "1970-01-01T00:00:00Z"
  .ofFields ([("taskId", .string task.taskId), ("status", .string task.status.asStr)] ++
    (task.statusMessage.toList.map fun text => ("statusMessage", .string text)) ++
    [("createdAt", .string (metadata.elim epoch (·.createdAt))),
      ("lastUpdatedAt", .string (metadata.elim epoch (·.lastUpdatedAt))),
      ("ttl", .number (.posInt (metadata.elim defaultMcpTaskTtlMs (·.ttl)))),
      ("pollInterval", .number (.posInt (metadata.elim defaultMcpPollIntervalMs (·.pollInterval))))])

/-- `related_task_meta`. -/
def relatedTaskMeta (taskId : String) : Value :=
  .ofFields
    [("io.modelcontextprotocol/related-task", .ofFields [("taskId", .string taskId)])]

/-- `object.insert(key, value)`, on a value that may be an object. -/
def withField (value : Value) (key : String) (field : Value) : Option Value :=
  value.asObject.map fun fields => .object (Value.insertField key field fields)

/-- A result that says which task it is of. -/
def withRelatedTask (result : Value) (taskId : String) : Value :=
  (withField result "_meta" (relatedTaskMeta taskId)).getD
    (.ofFields [("content", result), ("_meta", relatedTaskMeta taskId)])

/-- `terminal_task_response`. -/
def terminalTaskResponse (id : Value) (task : McpTask) : Value :=
  match task.status with
  | .completed => jsonrpcResult id (withRelatedTask (task.result.getD (.object [])) task.taskId)
  | .failed =>
    match task.result with
    | some result =>
      jsonrpcResult id ((withField result "_meta" (relatedTaskMeta task.taskId)).getD result)
    | none => protocolErrorResponse id (task.error.getD (.conflict "MCP task failed"))
  | .cancelled =>
    jsonrpcError id .cancelled "MCP task was cancelled" (some (relatedTaskMeta task.taskId))
  | .working | .inputRequired => jsonrpcError id .conflict "MCP task is not terminal" none

/-- `notifications/tasks/status`. -/
def taskStatusNotification (task : McpTask) (metadata : Option McpTaskWireMetadata) : Value :=
  .ofFields
    [("jsonrpc", .string "2.0"), ("method", .string "notifications/tasks/status"),
      ("params", taskWire task metadata)]

/-- `notifications/progress`. -/
def progressNotification (token : Value) (progress : McpProgress) (taskId : String) : Value :=
  .ofFields
    [("jsonrpc", .string "2.0"), ("method", .string "notifications/progress"),
      ("params", .ofFields
        [("progressToken", token), ("progress", .number (.posInt progress.progress)),
          ("total", progress.total.elim .null fun total => .number (.posInt total)),
          ("message", optionalText progress.message), ("_meta", relatedTaskMeta taskId)])]

/-! ### Ids -/

section Ids

variable (id : Value)

@[simp] theorem get_id_jsonrpcResult (result : Value) : (jsonrpcResult id result).get "id" = some id := by
  simp [jsonrpcResult, Value.ofFields, Value.get, Value.asObject, Value.field?_insertField]

@[simp] theorem get_id_jsonrpcError (code : JsonRpcCode) (message : String) (data : Option Value) :
    (jsonrpcError id code message data).get "id" = some id := by
  simp [jsonrpcError, Value.ofFields, Value.get, Value.asObject, Value.field?_insertField]

@[simp] theorem get_id_protocolErrorResponse (error : ProtocolError) :
    (protocolErrorResponse id error).get "id" = some id := get_id_jsonrpcError ..

/-- The response that a finished task releases has the id of the request. -/
@[simp] theorem get_id_terminalTaskResponse (task : McpTask) :
    (terminalTaskResponse id task).get "id" = some id := by
  unfold terminalTaskResponse
  split
  · exact get_id_jsonrpcResult ..
  · split
    · exact get_id_jsonrpcResult ..
    · exact get_id_protocolErrorResponse ..
  · exact get_id_jsonrpcError ..
  · exact get_id_jsonrpcError ..
  · exact get_id_jsonrpcError ..

end Ids

end AikitRuntime.Mcp
