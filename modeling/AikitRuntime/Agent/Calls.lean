import AikitRuntime.Agent.Streams

/-!
# The tool calls of a turn

`runCall` takes one call from the model's proposal to its result: it must be advertised, its
input must fit the tool's schema, governance must allow it, and the input governance allows
must fit the schema too. Only then is the tool executed, or its recorded output reused. A
call that is refused has an error as its result; everything else that goes wrong ends the
run.
-/

namespace AikitRuntime.Agent

open Library Durability Streaming Governance

/-- `run_failure_hooks` for a failure that does not end the run by itself: its message. -/
def failureMessage (trail : AuditTrail) (ctx : FailureContext) (terminal : Bool) : Flow String := do
  let failure ← liftM (runFailureHooks trail ctx terminal)
  match failure.auditError with
  | none => pure failure.message
  | some error => do
    liftM (yieldDelta (fromError error))
    stopWith "audit_failure"

/-- The text a result is cut to when it is too long. -/
def boundedText (text replacement : String) : String :=
  if maxSingleToolResultBytes < text.utf8ByteSize then replacement else text

/-- Charge a result, and leave the loop if it is too much. -/
def chargeResult (retained : RetainedRunBudget) (id content : String) : Flow RetainedRunBudget :=
  match retained.chargeToolResult id content with
  | .ok retained => pure retained
  | .error message => do
    liftM (yieldDelta (.error message (.new .toolExecution)))
    stopWith "retained_output_limit"

/-- Yield a result, and keep it for the tool message. -/
def yieldResult (call : ToolCall) (content : String) (isError : Bool) : Flow ContentBlock := do
  liftM (yieldDelta (.toolResult call.id content isError))
  pure (.toolResult call.id content isError)

namespace RunContext

/-- The context of a failure of this call. -/
def failure (c : RunContext) (turn : Nat) (call : ToolCall) (stage : FailureStage) (error : String) :
    FailureContext :=
  ⟨c.runId, turn, stage, some call.id, some call.name, error⟩

/-- The record of a decision about this call. -/
def decision (c : RunContext) (turn : Nat) (call : ToolCall) (decision source : String)
    (reason : Option String) (input : Value) : AuditEvent :=
  .permissionDecision turn call.id call.name decision source reason (c.trail.captureValue input)

end RunContext

variable (c : RunContext) (turn : Nat)

/-- `reject_tool_input`, and the exit when its audit fails. -/
def rejectToolInput (call : ToolCall) (input : Value) (reason source : String) : Flow String := do
  let message ← failureMessage c.trail (c.failure turn call .toolInputValidation reason) false
  emitOrStop c.trail (c.decision turn call "deny" source (some message) input)
  pure message

/-- A call of a tool that was not advertised. -/
def denyUnadvertised (call : ToolCall) (retained : RetainedRunBudget) :
    Flow (ContentBlock × RetainedRunBudget) := do
  let message ← failureMessage c.trail (c.failure turn call .toolNotAdvertised
    s!"tool '{call.name}' was not advertised for this run and is denied") false
  let reason := boundedText message s!"tool '{call.name}' denial output exceeded {maxSingleToolResultBytes} bytes and was discarded"
  let retained ← chargeResult retained call.id reason
  emitOrStop c.trail (c.decision turn call "deny" "runtime:advertised_tools" (some reason) call.input)
  let block ← yieldResult call reason true
  pure (block, retained)

/-- A call whose proposed input does not fit the schema. -/
def rejectProposed (call : ToolCall) (reason : String) (retained : RetainedRunBudget) :
    Flow (ContentBlock × RetainedRunBudget) := do
  let message ← rejectToolInput c turn call call.input reason "runtime:tool_input_schema"
  let reason := boundedText message s!"tool '{call.name}' validation output exceeded {maxSingleToolResultBytes} bytes and was discarded"
  let retained ← chargeResult retained call.id reason
  let block ← yieldResult call reason true
  pure (block, retained)

/-! ### Execution -/

/-- What a call came to: its text, whether it is an error, and whether the call went through. -/
structure CallOutcome where
  content : String
  isError : Bool
  ran : Bool

/-- The result of a tool that answered, after the post hooks. -/
def postProcess (call : ToolCall) (effective : Value) (attempt : Option Attempt) (rawOutput : String) :
    Flow (String × Bool) := do
  let oversized := decide (maxSingleToolResultBytes < rawOutput.utf8ByteSize)
  let output := boundedText rawOutput s!"tool '{call.name}' output exceeded {maxSingleToolResultBytes} bytes and was discarded"
  let durationMs ← liftM (perform .elapsed)
  let post ← liftM (perform (.runPostToolUse
    ⟨c.runId, turn, call.id, call.name, effective, output, durationMs⟩))
  match post with
  | .error trigger =>
    stopAfterFailing trigger.terminalReason attempt
      "tool post-processing was cancelled after dispatch" true none
  | .ok post => do
    let emitted ← liftM (c.trail.emit (.hookCompleted turn "post_tool_use" (some call.name)
      (match post with
        | .continue => "continue"
        | .rewriteOutput _ => "rewrite_output"
        | .markError _ => "mark_error")))
    match emitted with
    | .error error =>
      stopAfterFailing "audit_failure" attempt "tool audit failed after dispatch" true (some error)
    | .ok () =>
      match post with
      | .continue => pure (output, oversized)
      | .rewriteOutput output => pure (output, false)
      | .markError error => do
        let failure ← liftM (runFailureHooks c.trail (c.failure turn call .postToolUse error) false)
        match failure.auditError with
        | none => pure (failure.message, true)
        | some error =>
          stopAfterFailing "audit_failure" attempt "tool failure audit failed after dispatch" true
            (some error)

/-- A tool that failed. On a durable run its effect is in doubt, and the run ends. -/
def toolFailed (call : ToolCall) (attempt : Option Attempt) (error : AikitError) :
    Flow (String × Bool) :=
  match attempt with
  | none => do
    let message ← failureMessage c.trail (c.failure turn call .toolExecution error.display) false
    pure (message, true)
  | some attempt => do
    let failed ← liftM (driver (.failActivity attempt "tool execution failed after dispatch" false true))
    match failed with
    | .error commitError => do
      liftM (yieldDelta (fromError commitError.error))
      stopWith "durable_commit_failure"
    | .ok () => do
      liftM (yieldDelta (fromError (.conflict
        s!"tool '{call.name}' may have produced an external effect; reconciliation is required")))
      stopWith "durable_reconciliation_required"

variable [ActivityCodec]

/-- Commit the output of a tool's activity. -/
def commitToolActivity (attempt : Option Attempt) (result : String × Bool) : Flow Unit :=
  match attempt with
  | none => pure ()
  | some attempt =>
    match ActivityCodec.ofToolOutput ⟨result.1, result.2⟩ with
    | .error error =>
      stopAfterFailing "durable_state_error" (some attempt)
        "tool output serialization failed after dispatch" true
        (some (.conflict s!"tool activity output cannot be serialized: {error}"))
    | .ok output => do
      let completed ← liftM (driver (.completeActivity attempt output))
      match completed with
      | .ok () => pure ()
      | .error error => do
        liftM (yieldDelta (fromError error.error))
        stopWith "durable_commit_failure"

omit [ActivityCodec] in
/-- What follows the execution of a tool. -/
def afterExecution (call : ToolCall) (effective : Value) (attempt : Option Attempt) :
    Except TerminationTrigger (Except AikitError String) → Flow (String × Bool)
  | .error trigger =>
    stopAfterFailing trigger.terminalReason attempt
      "tool execution was cancelled before its outcome was committed" true none
  | .ok (.ok output) => postProcess c turn call effective attempt output
  | .ok (.error error) => toolFailed c turn call attempt error

/-- Execute a tool, and commit what it did. -/
def execute (call : ToolCall) (effective : Value) (attempt : Option Attempt) : Flow (String × Bool) := do
  let trigger ← liftM (perform .currentTermination)
  match trigger with
  | some trigger =>
    stopAfterFailing trigger.terminalReason attempt
      "tool dispatch was cancelled before execution completed" true none
  | none => do
    let execution ← liftM (perform (.execute call.name effective))
    let result ← afterExecution c turn call effective attempt execution
    commitToolActivity attempt result
    pure result

/-- Begin the durable activity of a call: its attempt, or the output it recorded. -/
def beginToolActivity (call : ToolCall) (effective : Value) :
    Flow (Option Attempt × Option DurableToolOutput) :=
  if c.cfg.durable = false then pure (none, none)
  else do
    let begun ← liftM (driver (.beginActivity s!"tool-v1:{call.name}" s!"turn-{turn}:{call.id}"
      (.tool call.name effective)))
    match begun with
    | .ok (.execute activityId attempt) => pure (some ⟨activityId, attempt⟩, none)
    | .ok (.reuseCompleted _ output) =>
      match ActivityCodec.toToolOutput output with
      | .ok output => pure (none, some output)
      | .error error => do
        liftM (yieldDelta (fromError
          (.conflict s!"recorded tool activity output is invalid: {error}")))
        stopWith "durable_state_error"
    | .error error => stopAtBoundary error c.activeInvocation

/-- A call that governance allowed with this input, which fits the schema. -/
def runAllowed (call : ToolCall) (effective : Value) (report : AuthorizationReport) : Flow CallOutcome := do
  emitOrStop c.trail
    (c.decision turn call report.permissionOutcome report.permissionSource none effective)
  let (attempt, reused) ← beginToolActivity c turn call effective
  let emitted ← liftM (c.trail.emit
    (.toolStarted turn call.id call.name (c.trail.captureValue effective)))
  match emitted with
  | .error error => do
    let failed ← liftM (failAttempt attempt "tool start audit failed before execution" false)
    match failed with
    | .ok () => do
      liftM (yieldDelta (fromError error))
      stopWith "audit_failure"
    | .error commitError => do
      liftM (yieldDelta (fromError commitError))
      liftM (yieldDelta (fromError error))
      stopWith "durable_commit_failure"
  | .ok () =>
    match reused with
    | some output => pure ⟨output.content, output.isError, true⟩
    | none => do
      let (content, isError) ← execute c turn call effective attempt
      pure ⟨content, isError, true⟩

/-! ### Authorization -/

/-- A denial that interrupts the run. -/
def stopInterrupted {α : Type} (call : ToolCall) (report : AuthorizationReport) : Flow α := do
  let message := match report.authorization with
    | .denied message _ => message
    | .allowed _ => "invalid governance report: allowed authorization requested interrupt"
  let reason ← failureMessage c.trail (c.failure turn call .permission message) true
  emitOrStop c.trail
    (c.decision turn call report.permissionOutcome report.permissionSource (some reason) call.input)
  liftM (yieldDelta (.error reason (.new .cancelled)))
  stopWith "approval_interrupted"

/-- What an authorization that does not interrupt the run comes to. -/
def applyAuthorization (call : ToolCall) (validator : Value → Except String Unit)
    (report : AuthorizationReport) : Flow CallOutcome :=
  match report.authorization with
  | .denied reason _ => do
    let reason ← failureMessage c.trail (c.failure turn call .permission reason) false
    emitOrStop c.trail
      (c.decision turn call report.permissionOutcome report.permissionSource (some reason) call.input)
    pure ⟨reason, true, false⟩
  | .allowed effective => do
    stopIfTerminated
    match validateToolInput call.name validator effective with
    | .error reason => do
      let message ← rejectToolInput c turn call effective reason "runtime:effective_tool_input_schema"
      pure ⟨message, true, false⟩
    | .ok () => runAllowed c turn call effective report

/-- Ask governance, and do what it says. -/
def authorizeCall (call : ToolCall) (validator : Value → Except String Unit) : Flow CallOutcome := do
  let answer ← liftM (perform (.authorize ⟨c.runId, turn, call.id, call.name, call.input⟩))
  match answer with
  | .error trigger => stopWith trigger.terminalReason
  | .ok report => do
    stopIfTerminated
    emitOrStop c.trail (.hookCompleted turn "pre_tool_use" (some call.name) report.preHookOutcome)
    if report.interrupt then stopInterrupted c turn call report
    else applyAuthorization c turn call validator report

omit [ActivityCodec] in
/-- Audit a call that went through. -/
def auditCompleted (call : ToolCall) (ran isError : Bool) (content : String) : Flow Unit :=
  if ran then emitOrStop c.trail (.toolCompleted turn call.id call.name isError content.utf8ByteSize
    (c.trail.captureOutput content))
  else pure ()

/-- Bound, charge, audit and yield what a call came to. -/
def finishCall (call : ToolCall) (outcome : CallOutcome) (retained : RetainedRunBudget) :
    Flow (ContentBlock × RetainedRunBudget) := do
  let oversized := decide (maxSingleToolResultBytes < outcome.content.utf8ByteSize)
  let content := boundedText outcome.content s!"tool '{call.name}' post-hook output exceeded {maxSingleToolResultBytes} bytes and was discarded"
  let isError := oversized || outcome.isError
  let retained ← chargeResult retained call.id content
  auditCompleted c turn call outcome.ran isError content
  let block ← yieldResult call content isError
  pure (block, retained)

/-- One call, from its proposal to its result. -/
def runCall (call : ToolCall) (retained : RetainedRunBudget) :
    Flow (ContentBlock × RetainedRunBudget) := do
  stopIfTerminated
  match c.validators.lookup call.name with
  | none => denyUnadvertised c turn call retained
  | some validator =>
    match validateToolInput call.name validator call.input with
    | .error reason => rejectProposed c turn call reason retained
    | .ok () => do
      let outcome ← authorizeCall c turn call validator
      finishCall c turn call outcome retained

/-- The calls of a turn, one after the other, and their results. -/
def runCalls : List ToolCall → RetainedRunBudget → Flow (List ContentBlock × RetainedRunBudget)
  | [], retained => pure ([], retained)
  | call :: calls, retained => do
    let (block, retained) ← runCall c turn call retained
    let (blocks, retained) ← runCalls calls retained
    pure (block :: blocks, retained)

end AikitRuntime.Agent
