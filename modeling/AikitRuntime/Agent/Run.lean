import AikitRuntime.Agent.Closing

/-!
# One invocation

`run_agent`, from the first record to the last: the invocation is claimed and classified,
its fence is persisted, `RunStarted` is emitted, the prompt is hooked, the loop runs, and
the invocation is closed. An invocation that may not execute ends before `RunStarted`.
-/

namespace AikitRuntime.Agent

open Library Durability Streaming Governance

/-! ### Before the run -/

/-- The audit trail of a durable invocation, by its disposition. -/
def prepareAudit (trail : AuditTrail) : Disposition → Program (Except AikitError AuditTrail)
  | .retryTerminalAudit replay => pure (trail.forTerminalReplay replay)
  | _ => do
    let runId ← driver .runId
    match runId with
    | .error error => pure (.error error.error)
    | .ok runId => trail.forRunId runId

/-- `prepare_invocation`, with a driver. A configuration that is not prepared has no error yet. -/
def prepareDurably (cfg : RunConfig) : Program RunConfig := do
  let attached ← driver .attachGovernance
  match attached with
  | .error error => pure { cfg with
      invocationError := some (.configuration
        s!"durable governance attachment failed: {error.error.display}")
      invocationPrepared := true }
  | .ok () => do
    let disposition ← driver (.disposition none)
    match disposition with
    | .error error => pure { cfg with
        invocationError := some error.error
        invocationPrepared := true }
    | .ok disposition => do
      let cfg := { cfg with durableInvocation := some disposition, invocationPrepared := true }
      let prepared ← prepareAudit cfg.audit disposition
      match prepared with
      | .ok audit => pure { cfg with audit }
      | .error error => pure { cfg with invocationError := some error }

/-- `prepare_invocation`. -/
def prepareInvocation (cfg : RunConfig) : Program RunConfig :=
  if cfg.invocationPrepared then pure cfg
  else if cfg.durable then prepareDurably cfg
  else do
    let audit ← cfg.audit.freshRun
    pure { cfg with audit, invocationPrepared := true }

/-- The audit identity that a disposition needs. -/
def checkAudit (cfg : RunConfig) : Disposition → Program (Except AikitError AuditTrail)
  | .retryTerminalAudit replay => pure (cfg.audit.forTerminalReplay replay)
  | .execute => do
    let runId ← driver .runId
    match runId with
    | .error error => pure (.error error.error)
    | .ok runId =>
      if cfg.audit.runId = runId ∧ cfg.audit.invocationId.isSome then pure (.ok cfg.audit)
      else pure (.error (.configuration "durable audit identity changed before RunStarted"))
  | _ => pure (.ok cfg.audit)

/-- The last classification before `RunStarted`. -/
def revalidate (cfg : RunConfig) : Program RunConfig := do
  let disposition ← driver (.disposition none)
  match disposition with
  | .error error => pure { cfg with invocationError := some error.error }
  | .ok disposition => do
    let cfg := { cfg with durableInvocation := some disposition }
    let checked ← checkAudit cfg disposition
    match checked with
    | .ok audit => pure { cfg with audit }
    | .error error => pure { cfg with invocationError := some error }

/-- An invocation that may not execute. -/
def endUnstarted (cfg : RunConfig) : Disposition → Program Unit
  | .execute => pure ()
  | .retryTerminalAudit replay =>
    if cfg.durable then retryReconciledTerminalAudit cfg replay
    else failOutcome (.configuration "terminal audit replay requires a durable driver")
      replay.terminalReceipt.usage "durable_commit_failure"
  | .awaitingResume reason =>
    failOutcome (.conflict s!"durable run is paused and requires an explicit resume{detail reason}")
      noUsage "durable_awaiting_resume"
  | .reconcileRequired reason =>
    failOutcome (.conflict s!"durable run requires explicit reconciliation: {reason}") noUsage
      "durable_reconciliation_required"
  | .alreadyTerminal status reason =>
    match alreadyTerminalOutcome status with
    | none => unreachable
    | some (recorded, fallback) => complete noUsage recorded (reason.getD fallback)
  | .finalizeTerminal receipt =>
    if cfg.durable then finalizeReceipt receipt
    else failOutcome (.configuration "durable terminal receipt exists without a durable driver")
      receipt.usage "durable_commit_failure"

/-! ### The fence -/

/-- The reason an invocation did not start, when the run changed under its fence. -/
def unstartedReason : Disposition → Option String
  | .awaitingResume _ => some "durable_awaiting_resume"
  | .reconcileRequired _ => some "durable_reconciliation_required"
  | .alreadyTerminal _ _ => some "durable_already_terminal"
  | .retryTerminalAudit _ => some "durable_terminal_audit_retry_required"
  | .execute | .finalizeTerminal _ => none

/-- The outcome of an invocation that did not start. -/
def unstartedOutcome (disposition : Disposition) : Program Unit :=
  match unstartedReason disposition with
  | none => unreachable
  | some reason =>
    failOutcome (.conflict s!"durable invocation changed state before RunStarted: {reason}") noUsage
      reason

/-- Close a fence whose invocation did not start. -/
def closeUnstarted (fence : Attempt) : Disposition → Program Unit
  | .finalizeTerminal receipt => do
    let closed ← driver (.completeUnstartedInvocationLifecycle fence)
    match closed with
    | .error error => failOutcome error.error receipt.usage "durable_commit_failure"
    | .ok () => finalizeReceipt receipt
  | disposition => do
    let closed ← driver (.completeUnstartedInvocationLifecycle fence)
    match closed with
    | .error error => failOutcome error.error noUsage "durable_commit_failure"
    | .ok () => unstartedOutcome disposition

/-- An invocation whose fence could not be opened. -/
def preflightFailed (error : AikitError) : Program (Option Lifecycle) := do
  failOutcome error noUsage "durable_invocation_preflight_failed"
  pure none

/-- Persist the fence of an invocation. `none` is an invocation that has ended. -/
def openLifecycle (cfg : RunConfig) : Program (Option Lifecycle) :=
  match cfg.audit.invocationId with
  | none =>
    preflightFailed (.configuration "durable invocation is missing its audit invocation identity")
  | some invocationId => do
    let begun ← driver (.beginInvocationLifecycle invocationId)
    match begun with
    | .error error => preflightFailed error.error
    | .ok (.reuseCompleted _ _) =>
      preflightFailed (.conflict "durable invocation lifecycle identity was unexpectedly reused")
    | .ok (.execute activityId attempt) => do
      let disposition ← driver (.disposition (some invocationId))
      match disposition with
      | .error error => preflightFailed error.error
      | .ok .execute => pure (some ⟨invocationId, activityId, attempt⟩)
      | .ok disposition => do
        closeUnstarted ⟨activityId, attempt⟩ disposition
        pure none

/-! ### The run -/

variable [JsonSchema] [ActivityCodec]

omit [JsonSchema] [ActivityCodec] in
/-- Emit `RunStarted`; if it is not accepted, say so in the fence. -/
def emitRunStarted (cfg : RunConfig) (lifecycle : Option Lifecycle) : Program (Except String Unit) := do
  let emitted ← cfg.audit.emit (.runStarted cfg.model)
  match emitted with
  | .ok () => pure (.ok ())
  | .error error => do
    yieldDelta (fromError error)
    match lifecycle with
    | none => pure (.error "audit_failure")
    | some lifecycle => do
      let failed ← driver (.failInvocationLifecycle lifecycle.fence)
      match failed with
      | .ok () => pure (.error "audit_failure")
      | .error commitError => do
        yieldDelta (fromError commitError.error)
        pure (.error "durable_commit_failure")

omit [ActivityCodec] in
/-- The validators of the run. -/
def startTools (cfg : RunConfig) : Program (Except String Validators) :=
  match compileToolValidators cfg.tools with
  | .ok validators => pure (.ok validators)
  | .error error => do
    let failure ← terminalFailure cfg.audit
      ⟨cfg.audit.runId, 0, .configuration, none, none, error.display⟩ error.info "configuration_error"
    yieldDelta (.error failure.message failure.info)
    pure (.error failure.reason)

omit [JsonSchema] [ActivityCodec] in
/-- The budget tracker. -/
def startBudget : Program (Except String Unit) := do
  let tracker ← perform .newTracker
  match tracker with
  | .ok () => pure (.ok ())
  | .error error => do
    yieldDelta (fromError error)
    pure (.error "budget_configuration_error")

omit [JsonSchema] [ActivityCodec] in
/-- The prompt hooks: the messages to run with. -/
def startPrompt (cfg : RunConfig) : Program (Except String (List Message)) :=
  match latestUserPrompt cfg.messages with
  | none => pure (.ok cfg.messages)
  | some prompt => do
    let outcome ← perform (.runUserPromptSubmit ⟨cfg.audit.runId, prompt⟩)
    match outcome with
    | .error trigger => pure (.error trigger.terminalReason)
    | .ok .continue => pure (.ok cfg.messages)
    | .ok (.rewrite replacement) => do
      let messages := rewriteLatestUserPrompt cfg.messages replacement
      perform (.record (.replaceMessages messages))
      pure (.ok messages)
    | .ok (.block reason) => do
      let failure ← terminalFailure cfg.audit
        ⟨cfg.audit.runId, 0, .preToolUse, none, none, s!"user prompt blocked by hook: {reason}"⟩
        (.new .hook) "prompt_blocked"
      yieldDelta (.error failure.message failure.info)
      pure (.error failure.reason)

omit [ActivityCodec] in
/-- Everything before the loop: the validators, and the messages to run with. -/
def startRun (cfg : RunConfig) (lifecycle : Option Lifecycle) :
    ExceptT String (Prog Op Op.Answer) (Validators × List Message) := do
  ExceptT.mk (emitRunStarted cfg lifecycle)
  let validators ← ExceptT.mk (startTools cfg)
  ExceptT.mk startBudget
  let trigger ← liftM (perform .currentTermination)
  match trigger with
  | some trigger => throw trigger.terminalReason
  | none => do
    let messages ← ExceptT.mk (startPrompt cfg)
    pure (validators, messages)

/-- The budget of retained output: by the tokens all turns may ask for. -/
def retainedTokenHint (cfg : RunConfig) : Nat := min (cfg.maxTokens * max cfg.maxTurns 1) (2 ^ 64 - 1)

/-- Start, and run the loop. -/
def runLoop (cfg : RunConfig) (lifecycle : Option Lifecycle) : Program Exit := do
  let started ← (startRun cfg lifecycle).run
  match started with
  | .error reason => pure ⟨0, noUsage, .reason reason false⟩
  | .ok (validators, messages) =>
    agentLoop ⟨cfg, lifecycle, validators⟩ cfg.maxTurns
      ⟨0, messages, .new (retainedTokenHint cfg), noUsage⟩

/-! ### The end of the run -/

omit [JsonSchema] [ActivityCodec] in
/-- Report that the deadline of the shared budget has passed. -/
def reportDeadline (cfg : RunConfig) (turns : Nat) : Program String := do
  let failure ← terminalFailure cfg.audit
    ⟨cfg.audit.runId, turns, .budget, none, none, "shared wall-time budget deadline exceeded"⟩
    (.new .budgetExceeded) "budget_exceeded"
  yieldDelta (.error failure.message failure.info)
  pure failure.reason

omit [JsonSchema] [ActivityCodec] in
/-- Report a deadline that ended the run, unless a budget error was shown, or a cancellation. -/
def reportEnd (cfg : RunConfig) (turns : Nat) (reason : String) (budgetErrorEmitted : Bool) :
    Program String :=
  if reason = "budget_exceeded" ∧ budgetErrorEmitted = false then reportDeadline cfg turns
  else if reason = "cancelled" then do
    yieldDelta (fromError (.cancelled "run cancellation requested"))
    pure reason
  else pure reason

omit [JsonSchema] [ActivityCodec] in
/-- Clear the permissions that were granted in the run: the reason after it. -/
def clearPermissions (cfg : RunConfig) (reason : String) : Program String := do
  let cleared ← perform (.clearRunPermissions cfg.audit.runId)
  match cleared with
  | .ok () => pure reason
  | .error error => do
    yieldDelta (fromError error)
    pure "governance_cleanup_failure"

omit [JsonSchema] [ActivityCodec] in
/-- Run the stop hooks: the reason after them. -/
def runStopHooks (cfg : RunConfig) (turns : Nat) (reason : String) (usage : Usage) : Program String := do
  let stopped ← perform (.runStop ⟨cfg.audit.runId, turns, reason⟩ usage)
  match stopped with
  | .ok () => pure reason
  | .error error => do
    yieldDelta (fromError error)
    pure "hook_failure"

omit [JsonSchema] [ActivityCodec] in
/-- The end of a run that was left with a terminal reason. -/
def finishRun (cfg : RunConfig) (lifecycle : Option Lifecycle) (turn : Nat) (usage : Usage)
    (reason : String) (budgetErrorEmitted : Bool) : Program Unit := do
  let turns := min turn cfg.maxTurns
  let reason ← reportEnd cfg turns reason budgetErrorEmitted
  let reason ← clearPermissions cfg reason
  let reason ← runStopHooks cfg turns reason usage
  closeInvocation ⟨cfg, lifecycle, []⟩ ⟨turns, reason, usage⟩

omit [JsonSchema] [ActivityCodec] in
/-- The end of a run. -/
def closeRun (cfg : RunConfig) (lifecycle : Option Lifecycle) (exit : Exit) : Program Unit :=
  match exit.stop with
  | .reason reason budgetErrorEmitted =>
    finishRun cfg lifecycle exit.turn exit.usage reason budgetErrorEmitted
  | .boundary disposition =>
    match lifecycle with
    | none => failOutcome (.conflict
        "durable activity boundary has no persisted invocation lifecycle fence") exit.usage
        "durable_commit_failure"
    | some lifecycle =>
      closeAtBoundary cfg lifecycle.fence (min exit.turn cfg.maxTurns) exit.usage disposition

/-- An invocation that executes. -/
def runExecuting (cfg : RunConfig) : Program Unit :=
  if cfg.durable then do
    let lifecycle ← openLifecycle cfg
    match lifecycle with
    | none => pure ()
    | some lifecycle => do
      let exit ← runLoop cfg (some lifecycle)
      closeRun cfg (some lifecycle) exit
  else do
    let exit ← runLoop cfg none
    closeRun cfg none exit

/-- An invocation that is claimed and prepared. -/
def runPrepared (cfg : RunConfig) : Program Unit :=
  match cfg.invocationError with
  | some error => failOutcome error noUsage "durable_invocation_preflight_failed"
  | none =>
    match cfg.durableInvocation.getD .execute with
    | .execute => runExecuting cfg
    | disposition => endUnstarted cfg disposition

omit [JsonSchema] [ActivityCodec] in
/-- The configuration an invocation runs with. -/
def classify (cfg : RunConfig) : Program RunConfig := do
  let cfg ← prepareInvocation cfg
  if cfg.invocationError.isNone ∧ cfg.durable then revalidate cfg else pure cfg

/-- Prepare an invocation, and run it. -/
def runClaimed (cfg : RunConfig) : Program Unit := do
  let cfg ← classify cfg
  runPrepared cfg

/-- `run_agent`. -/
def runAgent (cfg : RunConfig) : Program Unit := do
  perform (.record (.begin cfg.messages))
  if cfg.durable then do
    let claimed ← driver .claimInvocation
    match claimed with
    | .error error => failOutcome error.error noUsage "durable_invocation_already_active"
    | .ok () => runClaimed cfg
  else runClaimed cfg

/-! ### A small environment -/

/-- An environment in which nothing goes wrong: each stream gives these deltas, each call is
allowed as it was proposed, and each tool answers. -/
def smooth (deltas : List StreamDelta) : (op : Op) → op.Answer
  | .yield _ => ()
  | .record _ => ()
  | .currentTermination => none
  | .freshRunId => "run"
  | .secureInvocationId => .ok "invocation"
  | .reserveSequence => 1
  | .deliver _ => none
  | .runUserPromptSubmit _ => .ok .continue
  | .runPostToolUse _ => .ok .continue
  | .runFailure ctx => ctx.error
  | .runStop _ _ => .ok ()
  | .authorize ctx => .ok ⟨.allowed ctx.input, false, "continue", "allow", "default_mode"⟩
  | .clearRunPermissions _ => .ok ()
  | .newTracker => .ok ()
  | .recordUsage usage => ⟨usage.inputTokens, usage.outputTokens, none⟩
  | .compact _ => none
  | .openStream _ => .ok (.ok deltas)
  | .awaitDelta _ => none
  | .elapsed => 0
  | .execute _ _ => .ok (.ok "done")
  | .driver _ => .error ⟨.conflict "there is no driver", false⟩
  | .isPoisoned => false
  | .snapshotStatus => none

/-- A compiler of schemas that knows the empty one, which accepts everything. -/
@[reducible] def emptySchema : JsonSchema where
  validatorFor schema :=
    if schema = .object [] then .ok fun _ => .ok () else .error "not the empty schema"

/-- A codec for runs that record nothing. -/
@[reducible] def noCodec : ActivityCodec where
  toDeltas _ := .error "nothing is recorded"
  ofDeltas _ := .error "nothing is recorded"
  toToolOutput _ := .error "nothing is recorded"
  ofToolOutput _ := .error "nothing is recorded"

/-- A run with one tool and two turns, without a driver. -/
def sampleConfig : RunConfig where
  model := "model"
  messages := [⟨.user, [.text "hello"]⟩]
  tools := [⟨"echo", "", .object []⟩]
  maxTurns := 2
  maxTokens := 100
  options := .null
  providerOptions := .null
  compatibilityMode := "strict"
  providerName := "provider"
  audit := ⟨"", none, 1, .full, .failClosed, 100, none⟩
  durable := false
  invocationPrepared := false
  invocationError := none
  durableInvocation := none

/-- A turn with one call. -/
def sampleDeltas : List StreamDelta :=
  [.toolCallStart "call-1" "echo", .toolCallInput "call-1" (.string "hi"), .messageStop "tool_use"]

/-- A model that answers at once. -/
def plainDeltas (stopReason : String) : List StreamDelta := [.textDelta "hello", .messageStop stopReason]

/-- `run_agent` on such an environment. -/
def sampleRun (cfg : RunConfig) : Program Unit := @runAgent emptySchema noCodec cfg

end AikitRuntime.Agent
