import AikitRuntime.Agent.Run
import AikitRuntime.Durability.QuickDigest
import AikitRuntime.Mcp.Collection

/-!
# Runs of the server

The calls of a server, one after another, on a store that does what it is told. Every call reads the
clock for itself.
-/

namespace AikitRuntime.Mcp

open Library Durability
open Agent (JsonSchema)

/-- The state that `McpJsonRpcServer::new` stores. -/
def McpServerState.initial (registry : McpServerRegistry) : McpServerState :=
  { McpServerState.new registry with storageRevision := 1 }

section

variable [Digest] [JsonSchema] [JsonReader]

end

/-! ### Samples -/

/-- The default limits of a server. -/
def sampleServer : McpJsonRpcServer where
  serverInfo := ⟨"server", "1", none, none⟩
  maxRequestBytes := 1048576
  maxReceipts := 10000
  maxTasks := 10000
  retentionMs := 86400000
  maxResultBytes := defaultMcpMaxResultBytes
  maxResultItems := defaultMcpMaxResultItems
  maxResultDepth := defaultMcpMaxResultDepth

/-- A clock that stands. -/
def sampleClock : Readings where
  collecting := 1000
  pruning := 1000
  checking := 1000
  expiring := 1000
  expiringText := "1970-01-01T00:00:01Z"
  now := 1000
  nowText := "1970-01-01T00:00:01Z"
  laterText := "1970-01-01T00:00:01Z"
  completing := 1000
  creating := 1000

/-- The bytes of a message. -/
def payloadOf (message : Value) : List UInt8 := utf8 (canonicalJson message)

/-- `payloadOf`, quick to evaluate. -/
def quickPayload (message : Value) : List UInt8 := (canonicalJson message).flatMap String.utf8EncodeChar

theorem payloadOf_eq_quick : payloadOf = quickPayload := by
  funext message
  unfold payloadOf quickPayload
  rw [Quick.utf8_eq]

/-- A reader of a few messages. -/
@[reducible] def readerOf (messages : List Value) : JsonReader where
  fromSlice payload :=
    match messages.find? fun message => payload = payloadOf message with
    | some message => .ok message
    | none => .error "expected value"

/-- A request. -/
def requestOf (id : Nat) (method : String) (params : List (String × Value)) : Value :=
  .ofFields
    [("jsonrpc", .string "2.0"), ("id", .number (.posInt id)), ("method", .string method),
      ("params", .ofFields params)]

/-- A request that initializes a connection. -/
def greeting (id : Nat) : Value :=
  requestOf id "initialize"
    [("protocolVersion", .string mcpServerContractRevision), ("capabilities", .object []),
      ("clientInfo", .ofFields [("name", .string "client"), ("version", .string "1")])]

end AikitRuntime.Mcp
