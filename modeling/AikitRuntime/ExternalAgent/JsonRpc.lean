import AikitRuntime.Durability.Json
import AikitRuntime.Library.Lines
import AikitRuntime.Library.Refusals

/-!
# Messages to and from an external agent

An external agent speaks JSON-RPC over its standard streams, one message on a line. This module has the messages, how
they are checked, how a line is read from what arrives in pieces, and the loop that reads lines until the connection
has to stop.

A read brings some bytes, and never none: that is the end of the stream. A piece is what is still there of one read.

## Scope

JSON's text is a parameter, `JsonWire`. The standard streams end, or fail with an error.
-/

namespace AikitRuntime.ExternalAgent

open Library Durability

def maxAgentRpcFrameBytes : Nat := 4 * 2 ^ 20

def maxAgentRpcPendingRequests : Nat := 1024

def maxAgentRpcOutboundQueue : Nat := 256

/-- `serde_json::to_vec` and `serde_json::from_slice`. -/
class JsonWire where
  toVec : Value → List UInt8
  /-- A value, or the text of the error. -/
  fromSlice : List UInt8 → Except String Value

/-! ### Errors -/

/-- `ExternalAgentErrorCode`. -/
inductive ExternalAgentErrorCode where
  | invalidInput | notFound | notExecutable | spawnFailed | protocol | timeout | authentication | permission | conflict
  | update | io
  deriving DecidableEq

structure ExternalAgentError where
  code : ExternalAgentErrorCode
  message : String
  deriving DecidableEq

/-- `ExternalAgentError::invalid_input`. -/
def ExternalAgentError.invalidInput (message : String) : ExternalAgentError := ⟨.invalidInput, message⟩

/-- `ExternalAgentError::new(ExternalAgentErrorCode::Protocol, message)`. -/
def ExternalAgentError.protocol (message : String) : ExternalAgentError := ⟨.protocol, message⟩

/-! ### Messages -/

inductive JsonRpcDialect where
  | standard | codexAppServer
  deriving DecidableEq

inductive RpcInbound where
  | notification (method : String) (params : Value)
  | request (id : Value) (method : String) (params : Value)
  | closed (reason : String)
  deriving DecidableEq

structure RpcError where
  code : Option Int
  message : String
  data : Option Value
  deriving DecidableEq

/-- `RpcResponse`. -/
abbrev RpcResponse : Type := Except RpcError Value

/-- `Value::as_i64`. -/
def asI64 : Value → Option Int
  | .number (.posInt n) => if n < 2 ^ 63 then some n else none
  | .number (.negInt n) => if n ≤ 2 ^ 63 then some (-n) else none
  | _ => none

/-- `validate_method`. -/
def validateMethod (method : String) : Except ExternalAgentError Unit :=
  refuseIf (method.isEmpty || 512 < method.utf8ByteSize || hasControl method)
    (.invalidInput "external-agent RPC method is invalid")

/-- `validate_peer_id`. -/
def validatePeerId (id : Value) : Except ExternalAgentError Unit :=
  refuseIf (!(id.asStr.isSome || (asI64 id).isSome || id.asU64.isSome))
    (.invalidInput "external-agent peer request id must be a string or integer")

/-- `JsonRpcConnection::message`. -/
def message (dialect : JsonRpcDialect) (value : Value) : Value :=
  match dialect, value with
  | .standard, .object fields => .object (Value.insertField "jsonrpc" (.string "2.0") fields)
  | _, value => value

/-- `normalize_response_id`. -/
def normalizeResponseId (id : Value) : Option Int :=
  (asI64 id).or ((id.asU64.filter (· < 2 ^ 63)).map Int.ofNat)

/-- `parse_rpc_error`. -/
def parseRpcError (value : Value) : Except ExternalAgentError RpcError :=
  match value with
  | .object _ => .ok {
      code := (value.get "code").bind asI64
      message := (value.getStr "message").getD "external-agent RPC failed"
      data := value.get "data" }
  | _ => .error (.protocol "external-agent RPC error must be an object")

/-- What a message is dispatched as. -/
inductive Dispatch where
  | inbound (event : RpcInbound)
  | response (id : Int) (response : RpcResponse)

/-- The part of `dispatch_message` that looks at the message. -/
def dispatchOf (message : Value) : Except ExternalAgentError Dispatch :=
  match message with
  | .object _ =>
    match message.getStr "method" with
    | some method => do
      validateMethod method
      let params := (message.get "params").getD .null
      match message.get "id" with
      | some id => do
        validatePeerId id
        pure (.inbound (.request id method params))
      | none => pure (.inbound (.notification method params))
    | none =>
      match (message.get "id").bind normalizeResponseId with
      | none => .error (.protocol "external-agent RPC response omitted a supported id")
      | some id =>
        match message.get "error" with
        | some error => (parseRpcError error).map fun error => .response id (.error error)
        | none =>
          match message.get "result" with
          | some result => .ok (.response id (.ok result))
          | none => .error (.protocol "external-agent RPC response omitted both result and error")
  | _ => .error (.protocol "external-agent RPC frame must be a JSON object")

/-! ### Lines -/

/-- The byte that ends a line. -/
def newline : UInt8 := 10

section

variable [JsonWire]

/-- What `send_value` hands to the writer. -/
def frameOf (value : Value) : List UInt8 := JsonWire.toVec value ++ [newline]

/-- `send_value`, up to the place where it waits for the writer. -/
def sendValue (stopped : Option String) (value : Value) : Except ExternalAgentError (List UInt8) :=
  match stopped with
  | some reason => .error (.protocol reason)
  | none =>
    if maxAgentRpcFrameBytes < (JsonWire.toVec value).length then
      .error (.invalidInput "external-agent RPC request exceeded 4 MiB")
    else .ok (frameOf value)

end

/-- `consume`, of what `fill_buf` returned. -/
def consume (count : Nat) (available : Piece UInt8) (pieces : List (Piece UInt8)) : List (Piece UInt8) :=
  if h : available.1.drop count ≠ [] then ⟨available.1.drop count, h⟩ :: pieces else pieces

/-- What `read_bounded_line` returns, the line, and what was not consumed. -/
structure LineRead where
  result : Except String Bool
  line : List UInt8
  left : List (Piece UInt8)

def frameExceeded : String := "external-agent RPC frame exceeded 4 MiB"

/-- `read_bounded_line`, with the line so far. `failure` is the error with which the stream ends, where it does not just
end. -/
def readBoundedLine (failure : Option String) (line : List UInt8) : List (Piece UInt8) → LineRead
  | [] =>
    match failure with
    | some error => ⟨.error error, line, []⟩
    | none => ⟨.ok (!line.isEmpty), line, []⟩
  | available :: pieces =>
    let newline := available.1.findIdx? (· == newline)
    let payloadBytes := newline.getD available.1.length
    if maxAgentRpcFrameBytes < line.length + payloadBytes then ⟨.error frameExceeded, line, available :: pieces⟩
    else
      let line := line ++ available.1.take payloadBytes
      match newline with
      | some _ => ⟨.ok true, line, consume (payloadBytes + 1) available pieces⟩
      | none => readBoundedLine failure line pieces

end AikitRuntime.ExternalAgent
