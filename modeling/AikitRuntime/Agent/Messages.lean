import AikitRuntime.Streaming.Deltas

/-!
# Messages, tools and errors

A conversation is a list of `Message`s, each with the content blocks of one role. The
agent loop reads the last user prompt of it, lets a hook rewrite that prompt, and appends
what the model and the tools say. `AikitError` is an error as far as the loop passes it
on: the delta it is shown as, and its classification.
-/

namespace AikitRuntime.Agent

open Durability Streaming

/-- `Role`. -/
inductive Role where
  | system | user | assistant | tool
  deriving DecidableEq

/-- `MediaSource`. -/
inductive MediaSource where
  | url (url : String)
  | base64 (data : String)
  deriving DecidableEq

/-- `ContentBlock`. A validated `MediaInput` is carried as its JSON. -/
inductive ContentBlock where
  | text (text : String)
  | reasoning (text : String) (signature provider : Option String) (opaqueData : Option Value)
  | toolUse (id name : String) (input : Value)
  | toolResult (toolUseId content : String) (isError : Bool)
  | media (mediaType : String) (source : MediaSource)
  | mediaInput (media : Value)
  | citation (text : String) (source : Option String) (metadata : Option Value)
  deriving DecidableEq

/-- `Message`. -/
structure Message where
  role : Role
  content : List ContentBlock
  deriving DecidableEq

/-- `ToolSpec`. -/
structure ToolSpec where
  name : String
  description : String
  inputSchema : Value
  deriving DecidableEq

/-- The text of a text block. -/
def ContentBlock.text? : ContentBlock → Option String
  | .text content => some content
  | _ => none

/-- `latest_user_prompt`. A user message without a text is passed over. -/
def latestUserPrompt (messages : List Message) : Option String :=
  messages.reverse.findSome? fun message =>
    if message.role = .user then message.content.findSome? ContentBlock.text? else none

/-- The first text block, replaced. -/
def rewriteText (replacement : String) : List ContentBlock → List ContentBlock
  | [] => []
  | .text _ :: blocks => .text replacement :: blocks
  | block :: blocks => block :: rewriteText replacement blocks

/-- The first user message, with its first text replaced. -/
def rewriteUserPrompt (replacement : String) : List Message → List Message
  | [] => []
  | message :: messages =>
    if message.role = .user then
      { message with content := rewriteText replacement message.content } :: messages
    else message :: rewriteUserPrompt replacement messages

/-- `rewrite_latest_user_prompt`. The last user message is taken, with a text or without. -/
def rewriteLatestUserPrompt (messages : List Message) (replacement : String) : List Message :=
  (rewriteUserPrompt replacement messages.reverse).reverse

/-! ### Errors -/

/-- `AikitError`: its `Display` text, its `info()`, and whether it came from a provider. -/
structure AikitError where
  display : String
  info : ErrorInfo
  fromProvider : Bool
  deriving DecidableEq

namespace AikitError

def configuration (text : String) : AikitError :=
  ⟨s!"configuration error: {text}", .new .configuration, false⟩

def conflict (text : String) : AikitError := ⟨s!"state conflict: {text}", .new .conflict, false⟩

def cancelled (text : String) : AikitError :=
  ⟨s!"operation cancelled: {text}", .new .cancelled, false⟩

def audit (text : String) : AikitError := ⟨s!"audit error: {text}", .new .audit, false⟩

end AikitError

/-- `StreamDelta::from_error`. -/
def fromError (error : AikitError) : StreamDelta :=
  .error (if error.fromProvider then error.info.message else error.display) error.info

/-- `ErrorInfo::with_provider`. -/
def withProvider (info : ErrorInfo) (provider model : String) : ErrorInfo :=
  { info with provider := some provider, model := some model }

/-- `AikitError::from` a driver's error, and whether the error asks for terminal recovery. -/
structure DriverError where
  error : AikitError
  recoveryRequired : Bool
  deriving DecidableEq

/-! ### Recording -/

/-- `RunTerminalStatus`. -/
inductive RunTerminalStatus where
  | running | completed | failed | budgetExceeded | maxTurns | cancelled
  deriving DecidableEq

/-- `recorded_terminal_status`. -/
def recordedTerminalStatus (reason : String) : RunTerminalStatus :=
  if reason = "end_turn" ∨ reason = "stop" then .completed
  else if reason = "budget_exceeded" ∨ reason = "budget_configuration_error" then .budgetExceeded
  else if reason = "max_turns" then .maxTurns
  else if reason = "approval_interrupted" ∨ reason = "cancelled" then .cancelled
  else .failed

/-- `RunOutcome`. Provider metadata is kept in stream order, each entry under its provider. -/
structure RunOutcome where
  messages : List Message
  invocationStartMessageIndex : Option Nat
  usage : Usage
  providerMetadata : List (String × Value)
  warnings : List ProviderWarning
  terminalStatus : RunTerminalStatus
  stopReason : Option String
  modelAttempts : List String
  finalText : Option String
  deriving DecidableEq

/-- `Usage::default`. -/
def noUsage : Usage := ⟨0, 0, 0, 0, 0⟩

/-- `RunOutcome::default`. -/
def RunOutcome.default : RunOutcome := ⟨[], none, noUsage, [], [], .running, none, [], none⟩

/-- The methods of `RunRecorder`. -/
inductive Recording where
  | begin (messages : List Message)
  | replaceMessages (messages : List Message)
  | modelAttempt (model : String)
  | appendMessage (message : Message)
  | providerMetadata (provider : String) (metadata : Value)
  | warning (warning : ProviderWarning)
  | finalText (text : String)
  | complete (usage : Usage) (status : RunTerminalStatus) (stopReason : String)
  deriving DecidableEq

/-- What a method of `RunRecorder` makes of the outcome. -/
def RunOutcome.record (outcome : RunOutcome) : Recording → RunOutcome
  | .begin messages =>
    { RunOutcome.default with messages, invocationStartMessageIndex := some messages.length }
  | .replaceMessages messages =>
    { outcome with messages, invocationStartMessageIndex := some messages.length }
  | .modelAttempt model => { outcome with modelAttempts := outcome.modelAttempts ++ [model] }
  | .appendMessage message => { outcome with messages := outcome.messages ++ [message] }
  | .providerMetadata provider metadata =>
    { outcome with providerMetadata := outcome.providerMetadata ++ [(provider, metadata)] }
  | .warning warning => { outcome with warnings := outcome.warnings ++ [warning] }
  | .finalText text => { outcome with finalText := some text }
  | .complete usage status stopReason =>
    { outcome with usage, terminalStatus := status, stopReason := some stopReason }

end AikitRuntime.Agent
