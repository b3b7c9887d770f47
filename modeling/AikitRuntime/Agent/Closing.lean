import AikitRuntime.Agent.Loop

/-!
# Closing an invocation

When the loop is over the invocation tells its sinks that it stopped. Without a driver that
is one record. With one, the record is described in the durable log before it is handed over
and acknowledged there afterwards, together with the fence of the invocation; where another
invocation has already closed the run, this one only closes its own fence
(`closeSuperseded`), and where the run may not go on it says so (`closeNonexecuting`).
-/

namespace AikitRuntime.Agent

open Library Durability Streaming Governance

/-- `durable_run_stopped_replay`. -/
def durableRunStoppedReplay (trail : AuditTrail) (kind : RunStoppedAuditKind)
    (receipt : RunStoppedReceipt) (turns : Nat) (reason : String) :
    Program (Except AikitError (RunStoppedAuditReplayEnvelope × AuditRecord)) :=
  match trail.invocationId with
  | none => pure (.error (.configuration
      "durable terminal audit is missing its invocation identity"))
  | some invocationId => do
    let prepared ← trail.prepareEvent (.runStopped turns reason)
    pure (prepared.map fun record =>
      (⟨1, kind, receipt, trail.runId, invocationId, record.sequence, turns, reason,
        trail.replayBinding⟩, record))

/-- Show an error, and record a failed outcome. -/
def failOutcome (error : AikitError) (usage : Usage) (reason : String) : Program Unit := do
  yieldDelta (fromError error)
  complete usage .failed reason

/-- `persist_durable_terminal`, and the outcome it leaves. -/
def finalizeReceipt (receipt : RunStoppedReceipt) : Program Unit := do
  let persisted ← driver (.finalizeRunStoppedReceipt receipt)
  match persisted with
  | .error error => failOutcome error.error receipt.usage "durable_commit_failure"
  | .ok () => complete receipt.usage (recordedTerminalStatus receipt.reason) receipt.reason

/-- `unreachable!`: the invocation ends there, and says nothing more. -/
def unreachable : Program Unit := pure ()

/-- The status and the reason recorded for a run that is already terminal. -/
def alreadyTerminalOutcome : DurableRunStatus → Option (RunTerminalStatus × String)
  | .completed => some (.completed, "durable_already_completed")
  | .failed => some (.failed, "durable_already_failed")
  | .cancelled => some (.cancelled, "durable_already_cancelled")
  | .running | .paused | .reconcileRequired => none

/-! ### Replaying a terminal audit -/

/-- `retry_reconciled_terminal_audit`. -/
def retryReconciledTerminalAudit (cfg : RunConfig) (replay : RunStoppedAuditReplayEnvelope) :
    Program Unit := do
  let usage := replay.terminalReceipt.usage
  let begun ← driver (.beginTerminalAuditRetry replay)
  match begun with
  | .error error => failOutcome error.error usage "durable_commit_failure"
  | .ok retry => do
    let emitted ← cfg.audit.emit (.runStopped replay.auditTurns replay.auditReason)
    match emitted with
    | .error error => do
      yieldDelta (fromError error)
      let failed ← driver (.failTerminalAuditRetry retry)
      match failed with
      | .error error => failOutcome error.error usage "durable_commit_failure"
      | .ok () => complete usage .failed "audit_failure"
    | .ok () => do
      let completed ← driver (.completeTerminalAuditRetry retry)
      match completed with
      | .error error => failOutcome error.error usage "durable_commit_failure"
      | .ok () => finalizeReceipt replay.terminalReceipt

/-! ### Closing beside another invocation -/

/-- Close the fence with the recovery audit: its record, if it is to be delivered. -/
def closeByRecovery (cfg : RunConfig) (fence : Attempt) (receipt : RunStoppedReceipt)
    (recovery : Option Attempt) (replay : RunStoppedAuditReplayEnvelope) (record : AuditRecord) :
    Program Unit :=
  match recovery with
  | none => do
    let closed ← driver (.completeInvocationLifecycleWithReplay fence replay)
    match closed with
    | .error error => failOutcome error.error receipt.usage "durable_commit_failure"
    | .ok () => finalizeReceipt receipt
  | some audit => do
    let emitted ← cfg.audit.emitPrepared record
    match emitted with
    | .ok () => do
      let closed ← driver (.completeRecoveryRunStoppedAuditAndInvocationLifecycle audit fence replay)
      match closed with
      | .error error => failOutcome error.error receipt.usage "durable_commit_failure"
      | .ok () => finalizeReceipt receipt
    | .error error => do
      yieldDelta (fromError error)
      let failed ← driver (.failRecoveryRunStoppedAuditAndInvocationLifecycle audit fence)
      match failed with
      | .error markerError => do
        yieldDelta (fromError markerError.error)
        complete receipt.usage .failed "audit_failure"
      | .ok () => complete receipt.usage .failed "audit_failure"

/-- `close_superseded_durable_invocation`. -/
def closeSuperseded (cfg : RunConfig) (fence : Attempt) (turns : Nat) (receipt : RunStoppedReceipt) :
    Program Unit := do
  let closed ← driver (.closeActiveLifecycleFromMatchingCompletedCanonicalReplay fence)
  match closed with
  | .error error => failOutcome error.error receipt.usage "durable_commit_failure"
  | .ok true => finalizeReceipt receipt
  | .ok false => do
    let prepared ← durableRunStoppedReplay cfg.audit .recovery receipt turns
      "superseded_by_durable_terminal_receipt"
    match prepared with
    | .error error => failOutcome error receipt.usage "durable_commit_failure"
    | .ok (replay, record) => do
      let begun ← driver (.beginRecoveryRunStoppedAudit replay)
      match begun with
      | .error error => failOutcome error.error receipt.usage "durable_commit_failure"
      | .ok (.execute activityId attempt) =>
        closeByRecovery cfg fence receipt (some ⟨activityId, attempt⟩) replay record
      | .ok (.reuseCompleted _ _) => closeByRecovery cfg fence receipt none replay record

/-- Why a run that may not go on was closed. Terminal recovery is not closed this way. -/
def closureReason : Disposition → Option String
  | .reconcileRequired _ => some "durable_reconciliation_required"
  | .alreadyTerminal _ _ => some "superseded_by_durable_terminal_state"
  | .awaitingResume _ => some "durable_awaiting_resume"
  | .execute => some "durable_state_error"
  | .finalizeTerminal _ | .retryTerminalAudit _ => none

/-- The detail of a reason that may be absent. -/
def detail (reason : Option String) : String := (reason.map fun text => s!": {text}").getD ""

/-- The outcome of an invocation that may not go on. -/
def nonexecutingOutcome (usage : Usage) (auditClosed : Bool) : Disposition → Program Unit
  | .reconcileRequired reason =>
    failOutcome (.conflict s!"durable run requires explicit reconciliation: {reason}") usage
      "durable_reconciliation_required"
  | .alreadyTerminal status reason =>
    match alreadyTerminalOutcome status with
    | none => unreachable
    | some (recorded, fallback) =>
      if auditClosed then complete usage recorded (reason.getD fallback)
      else complete usage .failed "audit_failure"
  | .awaitingResume reason =>
    failOutcome (.conflict s!"durable run became paused and requires an explicit resume{detail reason}")
      usage "durable_awaiting_resume"
  | _ =>
    failOutcome (.conflict "durable activity boundary did not resolve to a safe disposition") usage
      "durable_state_error"

/-- `close_nonexecuting_durable_invocation`, once it has a reason. -/
def closeForReason (cfg : RunConfig) (fence : Attempt) (turns : Nat) (usage : Usage)
    (disposition : Disposition) (reason : String) : Program Unit := do
  let prepared ← durableRunStoppedReplay cfg.audit .direct ⟨turns, reason, usage⟩ turns reason
  match prepared with
  | .error error => failOutcome error usage "durable_commit_failure"
  | .ok (replay, record) => do
    let emitted ← cfg.audit.emitPrepared record
    match emitted with
    | .ok () => do
      let closed ← driver (.completeInvocationLifecycleWithReplay fence replay)
      match closed with
      | .ok () => nonexecutingOutcome usage true disposition
      | .error error => do
        yieldDelta (fromError error.error)
        nonexecutingOutcome usage false disposition
    | .error error => do
      yieldDelta (fromError error)
      let failed ← driver (.failInvocationLifecycle fence)
      match failed with
      | .ok () => nonexecutingOutcome usage false disposition
      | .error error => do
        yieldDelta (fromError error.error)
        nonexecutingOutcome usage false disposition

/-- `close_nonexecuting_durable_invocation`. -/
def closeNonexecuting (cfg : RunConfig) (fence : Attempt) (turns : Nat) (usage : Usage)
    (disposition : Disposition) : Program Unit :=
  match closureReason disposition with
  | none => unreachable
  | some reason => closeForReason cfg fence turns usage disposition reason

/-- Close an invocation at the boundary it was stopped at. -/
def closeAtBoundary (cfg : RunConfig) (fence : Attempt) (turns : Nat) (usage : Usage) :
    Disposition → Program Unit
  | .finalizeTerminal receipt => closeSuperseded cfg fence turns receipt
  | disposition => closeNonexecuting cfg fence turns usage disposition

/-! ### The terminal audit of this invocation -/

/-- Emit `RunStopped` without describing it first: the reason after it. -/
def emitRunStopped (trail : AuditTrail) (turns : Nat) (reason : String) : Program String := do
  let emitted ← trail.emit (.runStopped turns reason)
  match emitted with
  | .ok () => pure reason
  | .error error => do
    yieldDelta (fromError error)
    pure "audit_failure"

/-- Record the outcome that a terminal reason stands for. -/
def completeAs (usage : Usage) (reason : String) : Program Unit :=
  complete usage (recordedTerminalStatus reason) reason

/-- Deliver the canonical record, and acknowledge it. -/
def deliverCanonical (trail : AuditTrail) (fence audit : Attempt)
    (replay : RunStoppedAuditReplayEnvelope) (record : AuditRecord) : Program Unit := do
  let receipt := replay.terminalReceipt
  let emitted ← trail.emitPrepared record
  match emitted with
  | .ok () => do
    let closed ← driver (.completeRunStoppedAuditAndInvocationLifecycle audit fence replay)
    match closed with
    | .error error => do
      yieldDelta (fromError error.error)
      completeAs receipt.usage "durable_commit_failure"
    | .ok () => do
      let persisted ← driver (.finalizeRunStoppedReceipt receipt)
      match persisted with
      | .ok () => completeAs receipt.usage receipt.reason
      | .error error => do
        yieldDelta (fromError error.error)
        completeAs receipt.usage "durable_commit_failure"
  | .error error => do
    yieldDelta (fromError error)
    let failed ← driver (.failRunStoppedAuditAndInvocationLifecycle audit fence)
    match failed with
    | .ok () => completeAs receipt.usage "audit_failure"
    | .error error => do
      yieldDelta (fromError error.error)
      completeAs receipt.usage "durable_commit_failure"

/-- The canonical audit: described, delivered, acknowledged. -/
def closeCanonically (c : RunContext) (lifecycle : Lifecycle) (receipt : RunStoppedReceipt) :
    Program Unit := do
  let prepared ← durableRunStoppedReplay c.trail .canonical receipt receipt.turns receipt.reason
  match prepared with
  | .error error => do
    yieldDelta (fromError error)
    let reason ← emitRunStopped c.trail receipt.turns "durable_commit_failure"
    complete receipt.usage .failed reason
  | .ok (replay, record) => do
    let begun ← driver (.beginInvocationRunStoppedAudit replay)
    match begun with
    | .ok (.execute activityId attempt) =>
      deliverCanonical c.trail lifecycle.fence ⟨activityId, attempt⟩ replay record
    | .ok (.reuseCompleted _ output) =>
      match decodeRunStoppedReceipt output with
      | some receipt' => closeSuperseded c.cfg lifecycle.fence receipt.turns receipt'
      | none => do
        yieldDelta (fromError (.conflict "persisted RunStopped receipt is invalid"))
        let emitted ← c.trail.emit (.runStopped receipt.turns "durable_commit_failure")
        match emitted with
        | .ok () => complete receipt.usage .failed "durable_commit_failure"
        | .error error => failOutcome error receipt.usage "durable_commit_failure"
    | .error error => do
      let resolved ← resolveDurableActivityBoundary error c.activeInvocation
      match resolved with
      | .ok disposition => closeAtBoundary c.cfg lifecycle.fence receipt.turns receipt.usage disposition
      | .error error => do
        yieldDelta (fromError error)
        completeAs receipt.usage "durable_commit_failure"

/-- The end of a durable invocation. -/
def closeDurably (c : RunContext) (lifecycle : Lifecycle) (receipt : RunStoppedReceipt) :
    Program Unit := do
  let poisoned ← perform .isPoisoned
  let status ← perform .snapshotStatus
  let reason := if poisoned then "durable_commit_failure" else receipt.reason
  -- an open effect or a lost commit keeps the fence open: the record is delivered without it
  if reason = "durable_commit_failure" ∨ status = some .reconcileRequired then
    let reason ← emitRunStopped c.trail receipt.turns reason
    completeAs receipt.usage reason
  else closeCanonically c lifecycle receipt

/-- The end of an invocation that ran. -/
def closeInvocation (c : RunContext) (receipt : RunStoppedReceipt) : Program Unit :=
  if c.cfg.durable then
    match c.lifecycle with
    | none => failOutcome (.conflict
        "durable RunStarted has no persisted invocation lifecycle fence") receipt.usage
        "durable_commit_failure"
    | some lifecycle => closeDurably c lifecycle receipt
  else do
    let reason ← emitRunStopped c.trail receipt.turns receipt.reason
    completeAs receipt.usage reason

end AikitRuntime.Agent
