import AikitRuntime.Agent.Messages

/-!
# The retained-output budget

What a run keeps of its streams and tool results is bounded, by bytes, by items and by
deltas, whatever the provider sends. `charge` adds to the three counters or refuses.
-/

namespace AikitRuntime.Agent

open Durability Streaming

/-- `usize::MAX`. -/
def usizeMax : Nat := 2 ^ 64 - 1

/-- `usize::saturating_add`. -/
def saturatingAdd (a b : Nat) : Nat := min (a + b) usizeMax

def minRetainedRunBytes : Nat := 1024 * 1024

def maxRetainedRunBytes : Nat := 64 * 1024 * 1024

def retainedBytesPerRequestedToken : Nat := 256

def maxRetainedRunItems : Nat := 16384

def maxRunDeltas : Nat := 100000

def maxSingleToolResultBytes : Nat := 4 * 1024 * 1024

def maxRetainedJsonDepth : Nat := 128

def maxRetainedJsonNodes : Nat := 65536

def retainedJsonNodeOverhead : Nat := 16

/-- The counters of a visit: the nodes seen, and the bytes counted. -/
structure JsonCount where
  nodes : Nat
  bytes : Nat

/-- A node and its overhead. -/
def JsonCount.enter (count : JsonCount) (bytes : Nat) : JsonCount :=
  ⟨saturatingAdd count.nodes 1, saturatingAdd (saturatingAdd count.bytes retainedJsonNodeOverhead) bytes⟩

/-- Whether a node is too deep, or one too many. -/
def JsonCount.exceeds (count : JsonCount) (depth : Nat) : Bool :=
  maxRetainedJsonDepth < depth || maxRetainedJsonNodes ≤ count.nodes

mutual

/-- `visit`. Numbers count for 24 bytes, and a visit stops at `usize::MAX`. -/
def visitJson (depth : Nat) (count : JsonCount) : Value → JsonCount
  | .null => if count.exceeds depth then { count with bytes := usizeMax } else count.enter 0
  | .bool _ => if count.exceeds depth then { count with bytes := usizeMax } else count.enter 0
  | .number _ => if count.exceeds depth then { count with bytes := usizeMax } else count.enter 24
  | .string text =>
    if count.exceeds depth then { count with bytes := usizeMax } else count.enter text.utf8ByteSize
  | .array values =>
    if count.exceeds depth then { count with bytes := usizeMax }
    else visitItems (saturatingAdd depth 1) (count.enter 0) values
  | .object fields =>
    if count.exceeds depth then { count with bytes := usizeMax }
    else visitFields (saturatingAdd depth 1) (count.enter 0) fields

def visitItems (depth : Nat) (count : JsonCount) : List Value → JsonCount
  | [] => count
  | value :: values =>
    let next := visitJson depth count value
    if next.bytes = usizeMax then next else visitItems depth next values

def visitFields (depth : Nat) (count : JsonCount) : List (String × Value) → JsonCount
  | [] => count
  | (key, value) :: fields =>
    let next := visitJson depth
      { count with bytes := saturatingAdd count.bytes key.utf8ByteSize } value
    if next.bytes = usizeMax then next else visitFields depth next fields

end

/-- `retained_json_bytes`. -/
def retainedJsonBytes (value : Value) : Nat := (visitJson 0 ⟨0, 0⟩ value).bytes

/-- The bytes of a text that may be absent. -/
def optionBytes (text : Option String) : Nat := (text.map String.utf8ByteSize).getD 0

/-- The sum of lengths, saturating. -/
def totalBytes (lengths : List Nat) : Nat := lengths.foldl saturatingAdd 0

/-- `RetainedRunBudget`. -/
structure RetainedRunBudget where
  bytes : Nat
  items : Nat
  deltas : Nat
  byteLimit : Nat
  deriving DecidableEq

namespace RetainedRunBudget

/-- `RetainedRunBudget::new`. -/
def new (maxTokens : Nat) : RetainedRunBudget where
  bytes := 0
  items := 0
  deltas := 0
  byteLimit := max minRetainedRunBytes
    (min (min (maxTokens * retainedBytesPerRequestedToken) usizeMax) maxRetainedRunBytes)

def charge (budget : RetainedRunBudget) (bytes items deltas : Nat) (source : String) :
    Except String RetainedRunBudget :=
  let nextDeltas := saturatingAdd budget.deltas deltas
  let nextBytes := saturatingAdd budget.bytes bytes
  let nextItems := saturatingAdd budget.items items
  if maxRunDeltas < nextDeltas ∨ budget.byteLimit < nextBytes ∨ maxRetainedRunItems < nextItems then
    .error s!"{source} exceeded the retained-output safety limit ({budget.byteLimit} bytes, {maxRetainedRunItems} items, {maxRunDeltas} deltas)"
  else .ok { budget with deltas := nextDeltas, bytes := nextBytes, items := nextItems }

/-- What a delta is charged for: bytes, and items. -/
def cost : StreamDelta → Nat × Nat
  | .messageStart model => (model.utf8ByteSize, 1)
  | .textDelta text => (text.utf8ByteSize, 0)
  | .reasoningDelta text => (text.utf8ByteSize, 0)
  | .usage _ => (0, 0)
  | .reasoningComplete text signature opaqueData =>
    (totalBytes [text.utf8ByteSize, optionBytes signature, (opaqueData.map retainedJsonBytes).getD 0], 1)
  | .toolCallStart id name =>
    (saturatingAdd (min (2 * id.utf8ByteSize) usizeMax) name.utf8ByteSize, 1)
  | .toolCallInput _ input => (retainedJsonBytes input, 0)
  | .toolResult toolUseId content _ => (totalBytes [toolUseId.utf8ByteSize, content.utf8ByteSize], 1)
  | .citation text source metadata =>
    (totalBytes [text.utf8ByteSize, optionBytes source, (metadata.map retainedJsonBytes).getD 0], 1)
  | .providerMetadata provider metadata =>
    (totalBytes [provider.utf8ByteSize, retainedJsonBytes metadata], 1)
  | .warning warning =>
    (totalBytes [warning.code.utf8ByteSize, warning.message.utf8ByteSize,
      optionBytes warning.parameter, optionBytes warning.provider, optionBytes warning.model], 1)
  | .messageStop stopReason => (stopReason.utf8ByteSize, 0)
  | .error message info =>
    (totalBytes [message.utf8ByteSize, info.message.utf8ByteSize, optionBytes info.provider,
      optionBytes info.model], 0)

def chargeDelta (budget : RetainedRunBudget) (delta : StreamDelta) : Except String RetainedRunBudget :=
  budget.charge (cost delta).1 (cost delta).2 1 "provider stream"

def chargeToolResult (budget : RetainedRunBudget) (toolUseId content : String) :
    Except String RetainedRunBudget :=
  budget.charge (totalBytes [toolUseId.utf8ByteSize, content.utf8ByteSize]) 1 1 "tool output"

end RetainedRunBudget

/-! ### Usage -/

/-- `u64::saturating_add`. -/
def saturatingAddU64 (a b : Nat) : Nat := min (a + b) (2 ^ 64 - 1)

/-- `add_usage`. -/
def addUsage (total part : Usage) : Usage where
  inputTokens := saturatingAddU64 total.inputTokens part.inputTokens
  outputTokens := saturatingAddU64 total.outputTokens part.outputTokens
  cacheCreationInputTokens :=
    saturatingAddU64 total.cacheCreationInputTokens part.cacheCreationInputTokens
  cacheReadInputTokens := saturatingAddU64 total.cacheReadInputTokens part.cacheReadInputTokens
  reasoningTokens := saturatingAddU64 total.reasoningTokens part.reasoningTokens

end AikitRuntime.Agent
