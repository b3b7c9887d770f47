import AikitRuntime.Durability.Envelopes
import AikitRuntime.Library.Counters

/-!
# Deltas and stream events

A provider answers with a sequence of `StreamDelta`s. The versioned stream is a sequence of
`StreamEvent`s: numbered events, some of which start, continue or end a block. This module
has both data types, with the payloads that the encoder passes on.
-/

namespace AikitRuntime.Streaming

open Library Durability

/-- `ErrorCode`. -/
inductive ErrorCode where
  | providerAuth | providerRateLimit | providerTimeout | providerTransport | providerServer
  | providerInvalidRequest | providerProtocol | providerSafety | permissionDenied | sandbox
  | configuration | budgetExceeded | toolExecution | structuredOutput | session | conflict
  | cancelled | maxTurns | audit | hook | unknown
  deriving DecidableEq

/-- `ErrorCode::message`. -/
def ErrorCode.message : ErrorCode → String
  | .providerAuth => "provider authentication failed"
  | .providerRateLimit => "provider rate limit exceeded"
  | .providerTimeout => "provider request timed out"
  | .providerTransport => "provider transport failed"
  | .providerServer => "provider server failed"
  | .providerInvalidRequest => "provider rejected the request"
  | .providerProtocol => "provider protocol failed"
  | .providerSafety => "provider safety policy blocked the request"
  | .permissionDenied => "permission denied"
  | .sandbox => "sandbox boundary denied the operation"
  | .configuration => "runtime configuration is invalid"
  | .budgetExceeded => "budget exceeded"
  | .toolExecution => "tool execution failed"
  | .structuredOutput => "structured output failed"
  | .session => "session operation failed"
  | .conflict => "state conflict"
  | .cancelled => "operation cancelled"
  | .maxTurns => "maximum agent turns exceeded"
  | .audit => "audit operation failed"
  | .hook => "lifecycle hook failed"
  | .unknown => "unknown error"

/-- `ProviderWarning`. -/
structure ProviderWarning where
  code : String
  message : String
  parameter : Option String
  provider : Option String
  model : Option String
  deriving DecidableEq

/-- `ErrorInfo`. -/
structure ErrorInfo where
  code : ErrorCode
  message : String
  provider : Option String
  model : Option String
  status : Option Nat
  retryAfterMs : Option Nat
  retryable : Bool
  warnings : List ProviderWarning
  deriving DecidableEq

/-- `ErrorInfo::new`. -/
def ErrorInfo.new (code : ErrorCode) : ErrorInfo where
  code
  message := code.message
  provider := none
  model := none
  status := none
  retryAfterMs := none
  retryable := false
  warnings := []

/-- `StreamDelta`. -/
inductive StreamDelta where
  | messageStart (model : String)
  | textDelta (text : String)
  | reasoningDelta (text : String)
  | reasoningComplete (text : String) (signature : Option String) (opaqueData : Option Value)
  | toolCallStart (id name : String)
  | toolCallInput (id : String) (input : Value)
  | toolResult (toolUseId content : String) (isError : Bool)
  | citation (text : String) (source : Option String) (metadata : Option Value)
  | providerMetadata (provider : String) (metadata : Value)
  | warning (warning : ProviderWarning)
  | usage (usage : Usage)
  | messageStop (stopReason : String)
  | error (message : String) (info : ErrorInfo)
  deriving DecidableEq

/-- `StreamBlockKind`, as far as the encoder starts blocks. -/
inductive StreamBlockKind where
  | text | reasoning | toolCall | toolResult | citation
  deriving DecidableEq

/-- `StreamEventKind`, as far as the encoder emits it. -/
inductive StreamEventKind where
  | responseStart (responseId model : String)
  | blockStart (blockId : String) (blockKind : StreamBlockKind) (name : Option String)
  | blockDelta (blockId : String) (delta : Value)
  | blockEnd (blockId : String) (value : Option Value)
  | providerMetadata (provider : String) (metadata : Value)
  | usage (usage : Usage)
  | warning (warning : ProviderWarning)
  | responseEnd (responseId stopReason : String)
  | error (message : String) (info : ErrorInfo)
  deriving DecidableEq

/-- `StreamEvent`. -/
structure StreamEvent where
  eventId : String
  sequence : Nat
  kind : StreamEventKind
  deriving DecidableEq

end AikitRuntime.Streaming
