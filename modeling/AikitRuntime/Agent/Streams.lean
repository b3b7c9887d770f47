import AikitRuntime.Agent.Tools

/-!
# The stream of a turn

One turn asks the model once. `collect` consumes its deltas: it forwards each, keeps the
tool calls, and notes the errors that are looked at when the stream is over. `finishStream`
is where they are: a turn whose stream failed, ran over the budget or left a tool call
without input ends the run there, and only then are the calls of the turn known.

Every `break 'agent` of the source is a `Stop`.
-/

namespace AikitRuntime.Agent

open Library Durability Streaming Governance

/-- How the loop was left: with a terminal reason, and whether a budget error was reported
with it; or at a durable boundary. -/
inductive Stop where
  | reason (terminalReason : String) (budgetErrorEmitted : Bool)
  | boundary (disposition : Disposition)
  deriving DecidableEq

/-- A part of the loop, which may leave it. -/
abbrev Flow (α : Type) : Type := ExceptT Stop (Prog Op Op.Answer) α

/-- `terminal_reason = reason; break 'agent`. -/
def stopWith {α : Type} (reason : String) : Flow α := throw (.reason reason false)

/-- `DurableInvocationLifecycleAttempt`. -/
structure Lifecycle where
  invocationId : String
  fence : Attempt
  deriving DecidableEq

/-- What does not change while the loop runs. -/
structure RunContext where
  cfg : RunConfig
  lifecycle : Option Lifecycle
  validators : Validators

namespace RunContext

def trail (c : RunContext) : AuditTrail := c.cfg.audit

def runId (c : RunContext) : String := c.cfg.audit.runId

/-- The invocation whose fence is open. -/
def activeInvocation (c : RunContext) : Option String := c.lifecycle.map Lifecycle.invocationId

end RunContext

/-- Leave the loop if the run was cancelled or its deadline has passed. -/
def stopIfTerminated : Flow Unit := do
  let trigger ← liftM (perform .currentTermination)
  match trigger with
  | some trigger => stopWith trigger.terminalReason
  | none => pure ()

/-- Emit an event, and leave the loop if it was not accepted. -/
def emitOrStop (trail : AuditTrail) (event : AuditEvent) : Flow Unit := do
  let emitted ← liftM (trail.emit event)
  match emitted with
  | .ok () => pure ()
  | .error error => do
    liftM (yieldDelta (fromError error))
    stopWith "audit_failure"

/-- `resolve_durable_activity_boundary`. -/
def resolveDurableActivityBoundary (error : DriverError) (active : Option String) :
    Program (Except AikitError Disposition) :=
  if error.recoveryRequired = false then pure (.error error.error)
  else do
    let disposition ← driver (.disposition active)
    match disposition with
    | .error error => pure (.error error.error)
    | .ok .execute => pure (.error (.conflict
        "terminal audit state disappeared while resolving an activity boundary"))
    | .ok disposition => pure (.ok disposition)

/-- Leave the loop because an activity could not begin. -/
def stopAtBoundary {α : Type} (error : DriverError) (active : Option String) : Flow α := do
  let resolved ← liftM (resolveDurableActivityBoundary error active)
  match resolved with
  | .ok disposition => throw (.boundary disposition)
  | .error error => do
    liftM (yieldDelta (fromError error))
    stopWith "durable_state_error"

/-- `finalize_ambiguous_durable_activity` and `fail_unstarted_durable_activity`. -/
def failAttempt (attempt : Option Attempt) (reason : String) (ambiguous : Bool) :
    Program (Except AikitError Unit) :=
  match attempt with
  | none => pure (.ok ())
  | some attempt => do
    let failed ← driver (.failActivity attempt reason false ambiguous)
    pure (failed.mapError DriverError.error)

/-- Show an error, if there is one, and leave the loop. -/
def stopShowing {α : Type} (error : Option AikitError) (reason : String) : Flow α :=
  match error with
  | none => stopWith reason
  | some error => do
    liftM (yieldDelta (fromError error))
    stopWith reason

/-- Settle an open activity, and leave the loop with `reason`, or with a commit failure. -/
def stopAfterFailing {α : Type} (reason : String) (attempt : Option Attempt) (why : String)
    (ambiguous : Bool) (error : Option AikitError) : Flow α := do
  let failed ← liftM (failAttempt attempt why ambiguous)
  match failed with
  | .ok () => stopShowing error reason
  | .error commitError => do
    liftM (yieldDelta (fromError commitError))
    stopShowing error "durable_commit_failure"

/-- The error, its classification and the terminal reason after the failure hooks. -/
structure TerminalFailure where
  message : String
  info : ErrorInfo
  reason : String
  audited : Bool

/-- `run_failure_hooks` for a failure that ends the run. -/
def terminalFailure (trail : AuditTrail) (ctx : FailureContext) (info : ErrorInfo) (reason : String) :
    Program TerminalFailure := do
  let failure ← runFailureHooks trail ctx true
  pure {
    message := failure.message
    info := (failure.auditError.map AikitError.info).getD info
    reason := if failure.auditError.isSome then "audit_failure" else reason
    audited := failure.auditError.isNone }

/-- Run the failure hooks, show the failure, and leave the loop. -/
def stopWithFailure {α : Type} (trail : AuditTrail) (ctx : FailureContext) (info : ErrorInfo)
    (reason : String) (budgetErrorEmitted : Bool) : Flow α := do
  let failure ← liftM (terminalFailure trail ctx info reason)
  liftM (yieldDelta (.error failure.message failure.info))
  throw (.reason failure.reason budgetErrorEmitted)

/-! ### The deltas of a turn -/

/-- `PendingToolCall`. -/
structure PendingToolCall where
  id : String
  name : String
  input : Option Value
  deriving DecidableEq

/-- The variables of the stream loop, and the run's totals. -/
structure Turn where
  text : String
  toolCalls : List PendingToolCall
  /-- `index_by_id`, the newest entry of an id first. -/
  indexById : List (String × Nat)
  streamError : Option (String × ErrorInfo)
  budgetError : Option String
  modelStopReason : Option String
  recordedModelAttempt : Bool
  reasoning : List (String × Option String × Option Value)
  citations : List (String × Option String × Option Value)
  deltas : List StreamDelta
  retained : RetainedRunBudget
  usage : Usage

/-- The variables when a stream is opened. -/
def Turn.start (retained : RetainedRunBudget) (usage : Usage) : Turn where
  text := ""
  toolCalls := []
  indexById := []
  streamError := none
  budgetError := none
  modelStopReason := none
  recordedModelAttempt := false
  reasoning := []
  citations := []
  deltas := []
  retained
  usage

/-- An error of the provider's protocol. -/
def protocolError (cfg : RunConfig) : ErrorInfo :=
  withProvider (.new .providerProtocol) cfg.providerName cfg.model

namespace Turn

/-- What a delta does to the variables of the loop. -/
def absorb (cfg : RunConfig) (t : Turn) : StreamDelta → Turn
  | .messageStart _ => { t with recordedModelAttempt := true }
  | .textDelta text => { t with text := t.text ++ text }
  | .reasoningComplete text signature opaqueData =>
    { t with reasoning := t.reasoning ++ [(text, signature, opaqueData)] }
  | .citation text source metadata => { t with citations := t.citations ++ [(text, source, metadata)] }
  | .toolCallStart id name =>
    { t with
      indexById := (id, t.toolCalls.length) :: t.indexById
      toolCalls := t.toolCalls ++ [⟨id, name, none⟩] }
  | .toolCallInput id input =>
    match t.indexById.lookup id with
    | some i =>
      { t with toolCalls := t.toolCalls.modify i fun call => { call with input := some input } }
    | none =>
      { t with streamError := some (s!"tool input arrived for unknown call '{id}'", protocolError cfg) }
  | .usage usage => { t with usage := addUsage t.usage usage }
  | .messageStop stopReason => { t with modelStopReason := some stopReason }
  | .error message info => { t with streamError := some (message, info) }
  | _ => t

/-- What is left when a delta exceeds the retained budget. -/
def overflow (cfg : RunConfig) (t : Turn) (message : String) : Turn :=
  { t with
    streamError := some (message, protocolError cfg)
    text := ""
    toolCalls := []
    indexById := []
    reasoning := []
    citations := [] }

end Turn

/-- A usage report: audited, added to the tracker, and audited again. The audit error, and the
budget error. -/
def reportUsage (trail : AuditTrail) (turn : Nat) (usage : Usage) :
    Program (Option AikitError × Option String) := do
  let emitted ← trail.emit (.usage turn usage)
  match emitted with
  | .error error => pure (some error, none)
  | .ok () => do
    let answer ← perform (.recordUsage usage)
    let emitted ← trail.emit
      (.budgetUpdated turn (saturatingAddU64 answer.inputTokens answer.outputTokens))
    pure (errorOf emitted, answer.error)

/-- What a delta makes the loop do, and the variables after it. -/
def observe (cfg : RunConfig) (turn : Nat) (t : Turn) (delta : StreamDelta) :
    Program (Turn × Option AikitError) :=
  match delta with
  | .messageStart model =>
    if t.recordedModelAttempt then pure (t, none)
    else do
      perform (.record (.modelAttempt model))
      pure (t.absorb cfg delta, none)
  | .providerMetadata provider metadata => do
    perform (.record (.providerMetadata provider metadata))
    pure (t, none)
  | .warning warning => do
    perform (.record (.warning warning))
    pure (t, none)
  | .usage usage => do
    let (auditError, budgetError) ← reportUsage cfg.audit turn usage
    let t := t.absorb cfg delta
    pure ({ t with budgetError := budgetError.or t.budgetError }, auditError)
  | delta => pure (t.absorb cfg delta, none)

/-- The stream loop, and the trigger that ended it, if one did. -/
def collect (cfg : RunConfig) (turn : Nat) (t : Turn) :
    List StreamDelta → Program (Turn × Option TerminationTrigger)
  | [] => do
    let trigger ← perform (.awaitDelta none)
    pure (t, trigger)
  | delta :: deltas => do
    let trigger ← perform (.awaitDelta (some delta))
    match trigger with
    | some trigger => pure (t, some trigger)
    | none =>
      let t := { t with deltas := t.deltas ++ [delta] }
      match t.retained.chargeDelta delta with
      | .error message => do
        yieldDelta (.error message (protocolError cfg))
        pure (t.overflow cfg message, none)
      | .ok retained => do
        let (t, auditError) ← observe cfg turn { t with retained } delta
        yieldDelta delta
        match auditError with
        | some error => do
          yieldDelta (fromError error)
          pure ({ t with streamError := some (error.display, error.info) }, none)
        | none => collect cfg turn t deltas

/-! ### Opening the stream -/

variable [ActivityCodec]

/-- Begin the durable activity of the request: its attempt, or the deltas it recorded. -/
def beginProviderActivity (c : RunContext) (turn : Nat) (request : ProviderRequest) :
    Flow (Option Attempt × Option (List StreamDelta)) :=
  if c.cfg.durable = false then pure (none, none)
  else do
    let begun ← liftM (driver (.beginActivity s!"provider-stream-v1:{c.cfg.providerName}"
      s!"turn-{turn}" (.provider c.cfg.providerName request)))
    match begun with
    | .ok (.execute activityId attempt) => pure (some ⟨activityId, attempt⟩, none)
    | .ok (.reuseCompleted _ output) =>
      match ActivityCodec.toDeltas output with
      | .ok deltas => pure (none, some deltas)
      | .error error => do
        liftM (yieldDelta (fromError
          (.conflict s!"recorded provider activity output is invalid: {error}")))
        stopWith "durable_state_error"
    | .error error => stopAtBoundary error c.activeInvocation

omit [ActivityCodec] in
/-- The deltas of the turn: those recorded, or those of a stream that is opened now. -/
def openStream (c : RunContext) (turn : Nat) (request : ProviderRequest) (attempt : Option Attempt)
    (reused : Option (List StreamDelta)) : Flow (List StreamDelta) :=
  match reused with
  | some deltas => pure deltas
  | none => do
    let opened ← liftM (perform (.openStream request))
    match opened with
    | .error trigger =>
      stopAfterFailing trigger.terminalReason attempt
        "provider dispatch was cancelled before its outcome was committed" true none
    | .ok (.ok deltas) => pure deltas
    | .ok (.error error) => do
      let failed ← liftM (failAttempt attempt error.info.message true)
      match failed with
      | .error commitError => do
        liftM (yieldDelta (fromError commitError))
        stopWith "durable_commit_failure"
      | .ok () =>
        stopWithFailure c.trail ⟨c.runId, turn, .providerStart, none, none, error.info.message⟩
          error.info "provider_error" false

/-! ### The end of the stream -/

/-- Settle the request's activity with what its stream came to. -/
def settleProviderActivity (attempt : Attempt) (t : Turn) : Program (Except AikitError Unit) :=
  match t.streamError with
  | some (_, info) => failAttempt (some attempt) info.message true
  | none =>
    match ActivityCodec.ofDeltas t.deltas with
    | .error error => pure (.error (.conflict
        s!"provider activity output cannot be serialized: {error}"))
    | .ok output => do
      let completed ← driver (.completeActivity attempt output)
      pure (completed.mapError DriverError.error)

/-- Commit the outcome of the request's activity. -/
def commitProviderActivity (attempt : Option Attempt) (t : Turn) : Flow Unit :=
  match attempt with
  | none => pure ()
  | some attempt => do
    let committed ← liftM (settleProviderActivity attempt t)
    match committed with
    | .ok () => pure ()
    | .error error => do
      liftM (yieldDelta (fromError error))
      stopWith "durable_commit_failure"

omit [ActivityCodec] in
/-- Show a failure of the stream again, if the hooks or the audit changed it. -/
def showReworded (rawError : String) (failure : TerminalFailure) : Program Unit :=
  if failure.message ≠ rawError ∨ failure.audited = false then
    yieldDelta (.error failure.message failure.info)
  else pure ()

omit [ActivityCodec] in
/-- The end of a turn whose stream failed. The raw error was already forwarded. -/
def stopWithStreamError {α : Type} (c : RunContext) (turn : Nat) (rawError : String)
    (info : ErrorInfo) : Flow α := do
  let failure ← liftM (terminalFailure c.trail
    ⟨c.runId, turn, .providerStream, none, none, rawError⟩ info "provider_stream_error")
  liftM (showReworded rawError failure)
  stopWith (if failure.info.code = .audit then "audit_failure" else failure.reason)

/-- A call whose input is there. -/
structure ToolCall where
  id : String
  name : String
  input : Value
  deriving DecidableEq

omit [ActivityCodec] in
/-- The calls of a turn, or the first one without input. -/
def completeCalls : List PendingToolCall → Except PendingToolCall (List ToolCall)
  | [] => .ok []
  | call :: calls =>
    match call.input with
    | none => .error call
    | some input => (completeCalls calls).map fun rest => ⟨call.id, call.name, input⟩ :: rest

omit [ActivityCodec] in
/-- Record the model that was asked, if the stream did not name one. -/
def recordModelAttempt (cfg : RunConfig) (t : Turn) : Program Unit :=
  if t.recordedModelAttempt then pure () else perform (.record (.modelAttempt cfg.model))

omit [ActivityCodec] in
/-- The calls of a turn whose stream is over, or the error it ends with. -/
def turnCalls (c : RunContext) (turn : Nat) (t : Turn) : Flow (List ToolCall) :=
  match t.streamError with
  | some (rawError, info) => stopWithStreamError c turn rawError info
  | none =>
    match t.budgetError with
    | some error =>
      stopWithFailure c.trail ⟨c.runId, turn, .budget, none, none, error⟩ (.new .budgetExceeded)
        "budget_exceeded" true
    | none =>
      match completeCalls t.toolCalls with
      | .ok calls => pure calls
      | .error call =>
        stopWithFailure c.trail ⟨c.runId, turn, .malformedToolCall, some call.id, some call.name,
          s!"tool call '{call.id}' ended without valid input"⟩ (protocolError c.cfg)
          "malformed_tool_call" false

omit [ActivityCodec] in
/-- The checks of a turn whose stream is over, and its calls. -/
def checkTurn (c : RunContext) (turn : Nat) (t : Turn) : Flow (List ToolCall) := do
  liftM (recordModelAttempt c.cfg t)
  stopIfTerminated
  turnCalls c turn t

/-- What follows the stream loop, up to the calls of the turn. -/
def finishStream (c : RunContext) (turn : Nat) (attempt : Option Attempt) (t : Turn)
    (trigger : Option TerminationTrigger) : Flow (List ToolCall) :=
  match trigger with
  | some trigger =>
    stopAfterFailing trigger.terminalReason attempt
      "provider stream was cancelled before its outcome was committed" true none
  | none => do
    commitProviderActivity attempt t
    checkTurn c turn t

end AikitRuntime.Agent
