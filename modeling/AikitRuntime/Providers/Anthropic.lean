import AikitRuntime.Library.NumberMaps
import AikitRuntime.Streaming.Deltas

/-!
# The parser of Anthropic streams

`AnthropicStreamParser` takes the decoded events of a stream one by one, and makes deltas of them. Content blocks
come interleaved, each under an index; what comes of a block is kept until the block stops. What is kept is
bounded by a `StreamRetentionBudget`. An event that does not fit, and any other failure, ends the stream with an error.
-/

namespace AikitRuntime.Providers

open Library Durability Streaming

/-- `serde_json::from_str`: a value, where the text is one. -/
class JsonText where
  fromStr : String → Option Value

/-- `value[key]`: null where there is no such field. -/
def fieldOf (value : Value) (key : String) : Value := (value.get key).getD .null

/-! ### What is kept -/

def maxStreamRetainedBytes : Nat := 8 * 1024 * 1024

def maxStreamRetainedItems : Nat := 4096

def maxJsonAccountingDepth : Nat := 128

def maxJsonAccountingNodes : Nat := 100000

/-- `StreamRetentionBudget`. -/
structure StreamRetentionBudget where
  retainedBytes : Nat
  retainedItems : Nat
  maxBytes : Nat
  maxItems : Nat
  deriving DecidableEq

/-- `StreamRetentionBudget::default`. -/
def StreamRetentionBudget.default : StreamRetentionBudget where
  retainedBytes := 0
  retainedItems := 0
  maxBytes := maxStreamRetainedBytes
  maxItems := maxStreamRetainedItems

/-- `retain`: the budget that is left. A sum that overflows is above the limits as well. -/
def StreamRetentionBudget.retain (budget : StreamRetentionBudget) (bytes items : Nat) :
    Option StreamRetentionBudget :=
  if budget.maxBytes < budget.retainedBytes + bytes ∨ budget.maxItems < budget.retainedItems + items then none
  else some { budget with
    retainedBytes := budget.retainedBytes + bytes
    retainedItems := budget.retainedItems + items }

/-- The bytes of one node. -/
def nodeBytes : Value → Nat
  | .null => 4
  | .bool _ => 5
  | .number n => (jsonNumber n).length
  | .string text => text.utf8ByteSize + 2
  | .array values => 2 + values.length
  | .object fields => (fields.map fun field => field.1.utf8ByteSize + 4).sum + 2

/-- The values in an array or an object. -/
def childValues : Value → List Value
  | .array values => values
  | .object fields => fields.map Prod.snd
  | _ => []

/-- The values in it lie too deep, or are too many. -/
def isCrowded (nodes depth waiting : Nat) (value : Value) : Bool :=
  match value with
  | .array _ | .object _ =>
    (!(childValues value).isEmpty && maxJsonAccountingDepth < depth + 1) ||
      maxJsonAccountingNodes < nodes + waiting + (childValues value).length
  | _ => false

/-- The loop of `json_retained_bytes`, with the number of nodes that it may still visit. -/
def jsonRetainedBytesLoop : Nat → Nat → List (Value × Nat) → Nat
  | _, total, [] => total
  | 0, _, _ :: _ => u64Max
  | left + 1, total, (value, depth) :: stack =>
    if maxJsonAccountingDepth < depth ∨ isCrowded (maxJsonAccountingNodes - left) depth stack.length value = true then
      u64Max
    else
      let total := saturatingAdd total (nodeBytes value)
      if total = u64Max then u64Max
      else
        jsonRetainedBytesLoop left total
          (((childValues value).map fun child => (child, depth + 1)).reverse ++ stack)

/-- `json_retained_bytes`. -/
def jsonRetainedBytes (value : Value) : Nat := jsonRetainedBytesLoop maxJsonAccountingNodes 0 [(value, 0)]

/-! ### Failures -/

/-- `ProviderErrorKind`. -/
inductive ProviderErrorKind where
  | authentication | rateLimited | timeout | transport | server | invalidRequest | protocol | safety | unknown
  deriving DecidableEq

/-- `ErrorCode::from`. -/
def ProviderErrorKind.code : ProviderErrorKind → ErrorCode
  | .authentication => .providerAuth
  | .rateLimited => .providerRateLimit
  | .timeout => .providerTimeout
  | .transport => .providerTransport
  | .server => .providerServer
  | .invalidRequest => .providerInvalidRequest
  | .protocol => .providerProtocol
  | .safety => .providerSafety
  | .unknown => .unknown

/-- The failures that may be tried again. -/
def ProviderErrorKind.isRetryable : ProviderErrorKind → Bool
  | .rateLimited | .timeout | .transport | .server => true
  | .authentication | .invalidRequest | .protocol | .safety | .unknown => false

/-- `stream_failure_without_model`. -/
def streamFailureWithoutModel (provider : String) (kind : ProviderErrorKind) (message : String) : StreamDelta :=
  .error message { ErrorInfo.new kind.code with provider := some provider, retryable := kind.isRetryable }

/-- `protocol_failure`. -/
def protocolFailure (provider message : String) : StreamDelta :=
  streamFailureWithoutModel provider .protocol message

/-- `retained_state_failure`. -/
def retainedStateFailure (provider : String) : StreamDelta :=
  protocolFailure provider s!"{provider} stream exceeded the retained parser-state limit"

/-! ### The parser -/

/-- `BlockState`. -/
inductive BlockState where
  | ignored
  | text
  | thinking (text : String) (signature : Option String)
  | redactedThinking (data : String)
  | toolUse (id jsonBuf : String)
  deriving DecidableEq

/-- `Usage::default`. -/
def noUsage : Usage := ⟨0, 0, 0, 0, 0⟩

/-- `AnthropicStreamParser`. -/
structure AnthropicStreamParser where
  blocks : NumberMap BlockState
  usage : Usage
  stopReason : String
  metadata : List (String × Value)
  terminal : Bool
  retention : StreamRetentionBudget

namespace AnthropicStreamParser

/-- `AnthropicStreamParser::new`. -/
def new : AnthropicStreamParser where
  blocks := ∅
  usage := noUsage
  stopReason := ""
  metadata := []
  terminal := false
  retention := .default

variable (parser : AnthropicStreamParser)

/-! #### Ends -/

/-- `terminate_with_error`. -/
def terminateWithError (error : StreamDelta) (includeMetadata : Bool) :
    AnthropicStreamParser × List StreamDelta :=
  ({ parser with
      blocks := ∅
      usage := noUsage
      stopReason := ""
      metadata := []
      terminal := true },
    (if includeMetadata && !parser.metadata.isEmpty then [.providerMetadata "anthropic" (.object parser.metadata)]
      else []) ++
    (if parser.usage ≠ noUsage then [.usage parser.usage] else []) ++ [error])

/-- `AnthropicStreamParser::retained_state_failure`. -/
def failRetention : AnthropicStreamParser × List StreamDelta :=
  parser.terminateWithError (retainedStateFailure "anthropic") false

/-- `terminal_protocol_failure`. -/
def failProtocol (message : String) : AnthropicStreamParser × List StreamDelta :=
  parser.terminateWithError (protocolFailure "anthropic" message) true

/-! #### Metadata and usage -/

/- Where something is not retained, `Except.error` has the parser that is left. -/

/-- `retention.retain`. -/
def retain (bytes items : Nat) : Except AnthropicStreamParser AnthropicStreamParser :=
  match parser.retention.retain bytes items with
  | none => .error parser
  | some retention => .ok { parser with retention }

/-- `retain_metadata_value`, and the insertion that follows it. -/
def retainMetadata (key : String) (value : Value) : Except AnthropicStreamParser AnthropicStreamParser := do
  let items := if (Value.field? key parser.metadata).isSome then 0 else 1
  let parser ← parser.retain (saturatingAdd key.utf8ByteSize (jsonRetainedBytes value)) items
  pure { parser with metadata := Value.insertField key value parser.metadata }

/-- The loop over the fields that are kept of a value. -/
def retainFields (parser : AnthropicStreamParser) (value : Value) :
    List String → Except AnthropicStreamParser AnthropicStreamParser
  | [] => .ok parser
  | key :: rest =>
    match value.get key with
    | none => retainFields parser value rest
    | some field => do
      let parser ← parser.retainMetadata key field
      retainFields parser value rest

/-- `capture_message_metadata`. -/
def captureMessageMetadata (message : Value) : Except AnthropicStreamParser AnthropicStreamParser :=
  parser.retainFields message ["id", "model", "type", "role", "service_tier"]

/-- The usage that was reported so far, with another one. -/
def pushUsage (raw : List (String × Value)) : List (String × Value) :=
  let reported := match Value.field? "usage" parser.metadata with
    | some (.array reported) => reported
    | _ => []
  Value.insertField "usage" (.array (reported ++ [.object raw])) parser.metadata

/-- `absorb_usage`. -/
def absorbUsage (u : Value) : Except AnthropicStreamParser AnthropicStreamParser := do
  let parser ← match u.asObject.filter (!·.isEmpty) with
    | none => .ok parser
    | some raw => do
      let parser ← parser.retain (jsonRetainedBytes u) 1
      pure { parser with metadata := parser.pushUsage raw }
  pure { parser with
    usage := { parser.usage with
      inputTokens := (u.getU64 "input_tokens").getD parser.usage.inputTokens
      outputTokens := (u.getU64 "output_tokens").getD parser.usage.outputTokens
      cacheCreationInputTokens :=
        (u.getU64 "cache_creation_input_tokens").getD parser.usage.cacheCreationInputTokens
      cacheReadInputTokens := (u.getU64 "cache_read_input_tokens").getD parser.usage.cacheReadInputTokens } }

/-- The end of an event that keeps something. -/
def kept (result : Except AnthropicStreamParser AnthropicStreamParser) (deltas : List StreamDelta) :
    AnthropicStreamParser × List StreamDelta :=
  match result with
  | .error parser => parser.failRetention
  | .ok parser => (parser, deltas)

/-! #### Content blocks -/

/-- The index of an event: 0 where it has none. -/
def blockIndex (ev : Value) : Nat := (ev.getU64 "index").getD 0

/-- A text field, or the empty text. -/
def textField (value : Value) (key : String) : String := (value.getStr key).getD ""

/-- A block under its index, if what it needs is retained. -/
def insertBlock (index bytes items : Nat) (block : BlockState) (deltas : List StreamDelta) :
    AnthropicStreamParser × List StreamDelta :=
  kept ((parser.retain bytes items).map fun parser =>
    { parser with blocks := parser.blocks.insert index block }) deltas

/-- `on_block_start`. -/
def onBlockStart (ev : Value) : AnthropicStreamParser × List StreamDelta :=
  let index := blockIndex ev
  if parser.blocks.contains index then
    parser.failProtocol s!"Anthropic content block {index} started more than once"
  else
    let cb := fieldOf ev "content_block"
    match cb.getStr "type" with
    | some "text" => parser.insertBlock index 0 1 .text []
    | some "thinking" => parser.insertBlock index 0 1 (.thinking "" none) []
    | some "redacted_thinking" =>
      let data := textField cb "data"
      parser.insertBlock index data.utf8ByteSize 1 (.redactedThinking data) []
    | some "tool_use" =>
      let id := textField cb "id"
      let name := textField cb "name"
      if id.isEmpty ∨ name.isEmpty then
        parser.failProtocol "Anthropic tool_use block is missing its id or name"
      else
        parser.insertBlock index (saturatingAdd id.utf8ByteSize name.utf8ByteSize) 1 (.toolUse id "")
          [.toolCallStart id name]
    | some _ => parser.insertBlock index 0 1 .ignored []
    | none => parser.failProtocol s!"Anthropic content block {index} is missing its type"

/-- A citation. -/
def citationDelta (citation : Value) : StreamDelta :=
  .citation (textField citation "cited_text")
    (((citation.get "url").or (citation.get "document_title")).bind Value.asStr) (some citation)

/-- `on_block_delta`. -/
def onBlockDelta (ev : Value) : AnthropicStreamParser × List StreamDelta :=
  let index := blockIndex ev
  let block := parser.blocks[index]?
  if block = some .ignored then (parser, [])
  else
    let delta := fieldOf ev "delta"
    match delta.getStr "type" with
    | some "text_delta" =>
      match block with
      | some .text => (parser, [.textDelta (textField delta "text")])
      | _ => parser.failProtocol s!"Anthropic text delta arrived before text block {index} started"
    | some "thinking_delta" =>
      match block with
      | some (.thinking text signature) =>
        let chunk := textField delta "thinking"
        parser.insertBlock index chunk.utf8ByteSize 0 (.thinking (text ++ chunk) signature) [.reasoningDelta chunk]
      | _ => parser.failProtocol s!"Anthropic thinking delta arrived before thinking block {index} started"
    | some "signature_delta" =>
      match block with
      | some (.thinking text _) =>
        let sig := textField delta "signature"
        parser.insertBlock index sig.utf8ByteSize 0 (.thinking text (some sig)) []
      | _ => parser.failProtocol s!"Anthropic signature delta arrived before thinking block {index} started"
    | some "input_json_delta" =>
      match block with
      | some (.toolUse id jsonBuf) =>
        let fragment := textField delta "partial_json"
        parser.insertBlock index fragment.utf8ByteSize 0 (.toolUse id (jsonBuf ++ fragment)) []
      | _ => parser.failProtocol s!"Anthropic tool input arrived before tool_use block {index} started"
    | some "citations_delta" =>
      match block with
      | some .text => (parser, [citationDelta (fieldOf delta "citation")])
      | _ => parser.failProtocol s!"Anthropic citation arrived before text block {index} started"
    | _ => (parser, [])

/-- `on_block_stop`. -/
def onBlockStop [JsonText] (ev : Value) : AnthropicStreamParser × List StreamDelta :=
  let index := blockIndex ev
  let stopped := { parser with blocks := parser.blocks.erase index }
  match parser.blocks[index]? with
  | some (.toolUse id jsonBuf) =>
    if isBlank jsonBuf then (stopped, [.toolCallInput id (.object [])])
    else match JsonText.fromStr jsonBuf with
      | some input => (stopped, [.toolCallInput id input])
      | none => stopped.failProtocol s!"malformed tool_use input for {id}"
  | some (.thinking text signature) => (stopped, [.reasoningComplete text signature none])
  | some (.redactedThinking data) => (stopped, [.reasoningComplete "" none (some (.string data))])
  | some .text | some .ignored => (stopped, [])
  | none => stopped.failProtocol s!"Anthropic content block {index} stopped before it started"

/-! #### Events -/

/-- The type of an event. -/
def eventKind (ev : Value) : String := textField ev "type"

/-- `message_delta`. -/
def onMessageDelta (ev : Value) : Except AnthropicStreamParser AnthropicStreamParser := do
  let delta := fieldOf ev "delta"
  let parser ← match delta.getStr "stop_reason" with
    | none => .ok parser
    | some reason => do
      let parser ← parser.retain reason.utf8ByteSize 0
      pure { parser with stopReason := reason }
  let parser ← parser.retainFields delta ["stop_reason", "stop_sequence"]
  parser.absorbUsage (fieldOf ev "usage")

/-- `message_stop`. -/
def onMessageStop : AnthropicStreamParser × List StreamDelta :=
  if !parser.blocks.isEmpty then
    parser.failProtocol "Anthropic message_stop arrived before every content block stopped"
  else if parser.stopReason.isEmpty then
    parser.failProtocol "Anthropic message_stop arrived without a stop_reason"
  else
    ({ parser with terminal := true, metadata := [], stopReason := "" },
      (if parser.metadata.isEmpty then [] else [.providerMetadata "anthropic" (.object parser.metadata)]) ++
        [.usage parser.usage, .messageStop parser.stopReason])

/-- The kind of an error that the provider reports. -/
def reportedKind (ev : Value) : ProviderErrorKind :=
  match (fieldOf ev "error").getStr "type" with
  | some "authentication_error" | some "permission_error" => .authentication
  | some "rate_limit_error" => .rateLimited
  | some "overloaded_error" => .server
  | some "invalid_request_error" => .invalidRequest
  | _ => .unknown

/-- `push_event`. -/
def pushEvent [JsonText] (ev : Value) : AnthropicStreamParser × List StreamDelta :=
  if parser.terminal then (parser, [])
  else match eventKind ev with
    | "message_start" =>
      let message := fieldOf ev "message"
      kept (do
        let parser ← parser.captureMessageMetadata message
        parser.absorbUsage (fieldOf message "usage")) [.messageStart (textField message "model")]
    | "content_block_start" => parser.onBlockStart ev
    | "content_block_delta" => parser.onBlockDelta ev
    | "content_block_stop" => parser.onBlockStop ev
    | "message_delta" => kept (parser.onMessageDelta ev) []
    | "message_stop" => parser.onMessageStop
    | "error" =>
      parser.terminateWithError
        (streamFailureWithoutModel "anthropic" (reportedKind ev) "Anthropic stream reported an error") true
    | _ => (parser, [])

end AnthropicStreamParser

end AikitRuntime.Providers
