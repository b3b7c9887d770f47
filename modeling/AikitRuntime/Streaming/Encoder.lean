import AikitRuntime.Library.Methods
import AikitRuntime.Streaming.Deltas

/-!
# The stream event encoder

`StreamEventEncoder` turns deltas into events. One delta may open a block and emit its first
event, or close every open block, so a push emits a list of events. `tryPush` refuses a delta
that does not fit the lifecycle; `push` answers such a delta with one error event and ends the
stream.

`emit` takes its number from a counter that it expects to be there: in the model a call
without one ends in `EncoderFault.panicked`, as the code would. `EncoderSteps` proves that no
push gets there.
-/

namespace AikitRuntime.Streaming

open Library Durability Method

/-- `StreamEncodingError`. -/
inductive StreamEncodingError where
  | streamTerminated
  | responseNotStarted
  | duplicateResponseStart
  | deltaBeforeBlockStart (blockId : String)
  | duplicateBlockStart (blockId : String)
  | sequenceExhausted
  | blockIdExhausted
  deriving DecidableEq

/-- `error.to_string()`. -/
def StreamEncodingError.text : StreamEncodingError → String
  | .streamTerminated => "stream is already terminal"
  | .responseNotStarted => "stream event was received before response start"
  | .duplicateResponseStart => "response was started more than once"
  | .deltaBeforeBlockStart blockId => s!"block delta was received before block start: {blockId}"
  | .duplicateBlockStart blockId => s!"block was started more than once: {blockId}"
  | .sequenceExhausted => "stream sequence space is exhausted"
  | .blockIdExhausted => "stream block id space is exhausted"

/-- How a method of the encoder ends other than by returning: it returns an error, or panics. -/
inductive EncoderFault where
  | rejected (error : StreamEncodingError)
  | panicked
  deriving DecidableEq

/-- `StreamEventEncoder`. -/
structure StreamEventEncoder where
  responseId : String
  nextSequence : Option Nat
  nextBlock : Option Nat
  activeText : Option String
  activeReasoning : Option String
  activeTools : BTreeMap String
  startedBlocks : BTreeMap Unit
  responseStarted : Bool
  terminated : Bool

/-- A method of the encoder. -/
abbrev Encoding (α : Type) : Type := Method StreamEventEncoder EncoderFault α

namespace StreamEventEncoder

/-- `StreamEventEncoder::new`. -/
def new (responseId : String) : StreamEventEncoder where
  responseId
  nextSequence := some 1
  nextBlock := some 1
  activeText := none
  activeReasoning := none
  activeTools := ∅
  startedBlocks := ∅
  responseStarted := false
  terminated := false

/-- The identity of the event of a number. -/
def eventIdOf (responseId : String) (sequence : Nat) : String := s!"{responseId}-evt-{sequence}"

def emit (kind : StreamEventKind) : Encoding StreamEvent := do
  let e ← read id
  let sequence ← check (okOr e.nextSequence .panicked)
  modify fun e => { e with nextSequence := checkedAdd sequence 1 }
  pure ⟨eventIdOf e.responseId sequence, sequence, kind⟩

/-- The loop of `block_id`. A turn without a counter is the last one, so as many turns as there
are numbers left, and one more, are enough. -/
def blockIdLoop (label : String) : Nat → Encoding String
  | 0 => throw (.rejected .blockIdExhausted)
  | fuel + 1 => do
    let e ← read id
    let nextBlock ← check (okOr e.nextBlock (.rejected .blockIdExhausted))
    let blockId := s!"{e.responseId}-{label}-{nextBlock}"
    modify fun e => { e with nextBlock := checkedAdd nextBlock 1 }
    if e.startedBlocks.contains blockId then blockIdLoop label fuel else pure blockId

/-- `block_id`. -/
def blockId (label : String) : Encoding String := do
  let e ← read id
  blockIdLoop label (u64Max + 2 - e.nextBlock.getD u64Max)

/-- `ensure_sequence_capacity`. -/
def ensureSequenceCapacity (e : StreamEventEncoder) (eventCount : Nat) :
    Except StreamEncodingError Unit :=
  refuseIf (eventCount ≠ 0 ∧ (e.nextSequence.bind (checkedAdd · (eventCount - 1))).isNone)
    .sequenceExhausted

/-- `required_event_slots`. -/
def requiredEventSlots (e : StreamEventEncoder) : StreamDelta → Nat
  | .textDelta _ => 1 + e.activeText.isNone.toNat
  | .reasoningDelta _ | .reasoningComplete .. => 1 + e.activeReasoning.isNone.toNat
  | .toolResult .. | .citation .. => 2
  | .messageStop _ | .error .. =>
    1 + e.activeText.isSome.toNat + e.activeReasoning.isSome.toNat + e.activeTools.size
  | _ => 1

/-- `requires_generated_block`. -/
def requiresGeneratedBlock (e : StreamEventEncoder) : StreamDelta → Bool
  | .textDelta _ => e.activeText.isNone
  | .reasoningDelta _ | .reasoningComplete .. => e.activeReasoning.isNone
  | .toolResult .. | .citation .. => true
  | _ => false

def startBlock (blockId : String) (blockKind : StreamBlockKind) (name : Option String) :
    Encoding StreamEvent := do
  let e ← read id
  check (refuseIf (e.startedBlocks.contains blockId) (.rejected (.duplicateBlockStart blockId)))
  modify fun e => { e with startedBlocks := e.startedBlocks.insert blockId () }
  emit (.blockStart blockId blockKind name)

/-- `ensure_text`: the block, and the events that start it. -/
def ensureText : Encoding (String × List StreamEvent) := do
  let e ← read id
  match e.activeText with
  | some blockId => pure (blockId, [])
  | none =>
    let blockId ← blockId "text"
    let event ← startBlock blockId .text none
    modify fun e => { e with activeText := some blockId }
    pure (blockId, [event])

/-- `ensure_reasoning`. -/
def ensureReasoning : Encoding (String × List StreamEvent) := do
  let e ← read id
  match e.activeReasoning with
  | some blockId => pure (blockId, [])
  | none =>
    let blockId ← blockId "reasoning"
    let event ← startBlock blockId .reasoning none
    modify fun e => { e with activeReasoning := some blockId }
    pure (blockId, [event])

/-- The end of a block that is closed with the stream. -/
def closeBlock (blockId : String) : Encoding StreamEvent := emit (.blockEnd blockId none)

/-- `close_open_blocks`: the text block, the reasoning block, and the tools by their names. -/
def closeOpenBlocks : Encoding (List StreamEvent) := do
  let e ← read id
  modify fun e => { e with activeText := none }
  let text ← e.activeText.toList.mapM closeBlock
  modify fun e => { e with activeReasoning := none }
  let reasoning ← e.activeReasoning.toList.mapM closeBlock
  modify fun e => { e with activeTools := ∅ }
  let tools ← e.activeTools.values.mapM closeBlock
  pure (text ++ reasoning ++ tools)

/-- What `try_push` asks of a delta first. -/
def checkLifecycle (e : StreamEventEncoder) (delta : StreamDelta) :
    Except StreamEncodingError Unit := do
  refuseIf e.terminated .streamTerminated
  match delta with
  | .messageStart _ => refuseIf e.responseStarted .duplicateResponseStart
  | .warning _ | .error .. => .ok ()
  | _ => refuseIf (e.responseStarted = false) .responseNotStarted

/-- A result of the encoder's own checks. -/
def reject {α : Type} (x : Except StreamEncodingError α) : Except EncoderFault α :=
  match x with
  | .ok a => .ok a
  | .error error => .error (.rejected error)

/-- The blocks of `try_push` that are over with the delta that starts them. -/
def oneShot (label : String) (blockKind : StreamBlockKind) (value : Value) :
    Encoding (List StreamEvent) := do
  let blockId ← blockId label
  let started ← startBlock blockId blockKind none
  let ended ← emit (.blockEnd blockId (some value))
  pure [started, ended]

/-- `json!(value)` of an optional value. -/
def jsonOption (value : Option Value) : Value := value.getD .null

/-- The arms of `try_push`. -/
def encode : StreamDelta → Encoding (List StreamEvent)
  | .messageStart model => do
    modify fun e => { e with responseStarted := true }
    let e ← read id
    let event ← emit (.responseStart e.responseId model)
    pure [event]
  | .textDelta text => do
    let (blockId, events) ← ensureText
    let event ← emit (.blockDelta blockId (.ofFields [("text", .string text)]))
    pure (events ++ [event])
  | .reasoningDelta text => do
    let (blockId, events) ← ensureReasoning
    let event ← emit (.blockDelta blockId (.ofFields [("text", .string text)]))
    pure (events ++ [event])
  | .reasoningComplete text signature opaqueData => do
    let (blockId, events) ← ensureReasoning
    modify fun e => { e with activeReasoning := none }
    let event ← emit (.blockEnd blockId (some (.ofFields [("text", .string text),
      ("signature", jsonOption (signature.map .string)), ("opaque", jsonOption opaqueData)])))
    pure (events ++ [event])
  | .toolCallStart id name => do
    let e ← read (·)
    let blockId := s!"{e.responseId}-tool-{id}"
    let event ← startBlock blockId .toolCall (some name)
    modify fun e => { e with activeTools := e.activeTools.insert id blockId }
    pure [event]
  | .toolCallInput id input => do
    let e ← read (·)
    let blockId ← check (okOr e.activeTools[id]?
      (.rejected (.deltaBeforeBlockStart s!"{e.responseId}-tool-{id}")))
    let event ← emit (.blockDelta blockId (.ofFields [("input", input)]))
    pure [event]
  | .toolResult toolUseId content isError =>
    oneShot "tool-result" .toolResult (.ofFields [("tool_use_id", .string toolUseId),
      ("content", .string content), ("is_error", .bool isError)])
  | .citation text source metadata =>
    oneShot "citation" .citation (.ofFields [("text", .string text),
      ("source", jsonOption (source.map .string)), ("metadata", jsonOption metadata)])
  | .providerMetadata provider metadata => do
    let event ← emit (.providerMetadata provider metadata)
    pure [event]
  | .warning warning => do
    let event ← emit (.warning warning)
    pure [event]
  | .usage usage => do
    let event ← emit (.usage usage)
    pure [event]
  | .messageStop stopReason => do
    let closed ← closeOpenBlocks
    let e ← read id
    let event ← emit (.responseEnd e.responseId stopReason)
    modify fun e => { e with terminated := true }
    pure (closed ++ [event])
  | .error message info => do
    let closed ← closeOpenBlocks
    let event ← emit (.error message info)
    modify fun e => { e with terminated := true }
    pure (closed ++ [event])

/-- `try_push`. -/
def tryPush (delta : StreamDelta) : Encoding (List StreamEvent) := do
  let e ← read id
  check (reject (e.checkLifecycle delta))
  check (reject (e.ensureSequenceCapacity (e.requiredEventSlots delta)))
  check (refuseIf (e.requiresGeneratedBlock delta ∧ e.nextBlock = none)
    (.rejected .blockIdExhausted))
  encode delta

/-- What `push` makes of an error. -/
def answer (error : StreamEncodingError) : Encoding (List StreamEvent) :=
  if error = .streamTerminated then pure []
  else do
    modify fun e => { e with terminated := true }
    let e ← read id
    if e.ensureSequenceCapacity 1 = .ok () then do
      let event ← emit (.error error.text (.new .conflict))
      pure [event]
    else pure []

/-- `push`. -/
def push (delta : StreamDelta) : Encoding (List StreamEvent) := fun e =>
  match (tryPush delta).run e with
  | .ok events e' => .ok events e'
  | .error (.rejected error) e' => (answer error).run e'
  | .error .panicked e' => .error .panicked e'

/-- The deltas are pushed one after the other, and their events are put together. -/
def pushAll : List StreamDelta → Encoding (List StreamEvent)
  | [] => pure []
  | delta :: rest => do
    let events ← push delta
    let more ← pushAll rest
    pure (events ++ more)

end StreamEventEncoder

end AikitRuntime.Streaming
