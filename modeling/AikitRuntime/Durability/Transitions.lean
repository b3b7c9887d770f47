import AikitRuntime.Library.Methods
import AikitRuntime.Durability.Checkpoints

/-!
# Applying one event

`applyEventInPlace` is the state machine: for each kind of event, what it requires of the
run and what it changes. Each arm of the source's match is a definition of its own, with
its checks in the source's order. `tryAppend` puts the log around it: an event whose
identity is already in the log is a duplicate (the same content) or a conflict (another
content), its sequence must be the next one, and only an event that applies is logged.

Events carry the schema version they were written under. Versions 1 and 2 are replayed
with the checks they had, so several arms read the version.
-/

namespace AikitRuntime.Durability

open Library

namespace ActivityRecord

/-- `attempts.iter().find(|candidate| candidate.attempt == attempt)`. -/
def findAttempt (record : ActivityRecord) (attempt : Nat) : Option ActivityAttempt :=
  record.attempts.find? (·.attempt = attempt)

/-- The attempts with the first one of a number replaced. -/
def replaceAttempt (attempt : Nat) (new : ActivityAttempt) : List ActivityAttempt →
    List ActivityAttempt
  | [] => []
  | a :: rest => if a.attempt = attempt then new :: rest else a :: replaceAttempt attempt new rest

/-- The record with the attempt that `findAttempt` finds replaced. -/
def setAttempt (record : ActivityRecord) (attempt : Nat) (new : ActivityAttempt) : ActivityRecord :=
  { record with attempts := replaceAttempt attempt new record.attempts }

/-- The record with one attempt more. -/
def pushAttempt (record : ActivityRecord) (new : ActivityAttempt) : ActivityRecord :=
  { record with attempts := record.attempts ++ [new] }

/-- `record.attempts.len() as u32 + 1`. -/
def nextAttempt (record : ActivityRecord) : Nat := (record.attempts.length % 2 ^ 32 + 1) % 2 ^ 32

end ActivityRecord

/-- Written before schema version 2, which made terminal transitions fail closed. -/
def beforeV2 (version : Nat) : Bool := version < terminalActivityInvariantSchemaVersion

section
variable [Digest]

/-- `RunProjection::root`. -/
def RunProjection.root (runId : String) : RunProjection where
  branchId := stableIdentifier "branch" [runId, "root"]
  status := .running
  state := .object []
  activities := ∅
  approvals := ∅
  artifacts := ∅
  currentCheckpointId := none
  pauseReason := none
  workerLease := none

namespace RunState

/-! ### Reading a run -/

def ensureActive (s : RunState) : DurabilityResult Unit :=
  refuseIf s.projection.status.isTerminal (.terminalRun s.projection.status)

def ensureExecuting (s : RunState) : DurabilityResult Unit := do
  s.ensureActive
  refuseIf (s.projection.status = .reconcileRequired) .runRequiresReconciliation
  refuseIf (s.projection.status ≠ .running) (.runNotExecuting s.projection.status)

/-- A check that several operations make next to `ensure_active`. -/
def ensureNotReconciling (s : RunState) : DurabilityResult Unit :=
  refuseIf (s.projection.status = .reconcileRequired) .runRequiresReconciliation

def activity (s : RunState) (activityId : String) : DurabilityResult ActivityRecord :=
  okOr s.projection.activities[activityId]? (.activityNotFound activityId)

/-- `ensure_reserved_audit_lifecycle_closed`. -/
def ensureReservedAuditLifecycleClosed (s : RunState) : DurabilityResult Unit :=
  match s.projection.activities.values.find? (isOpenAudit s.projection.activities) with
  | none => .ok ()
  | some record =>
    let activityId := record.definition.activityId
    .error (.invalidEvent
      s!"run cannot become terminal while reserved audit activity `{activityId}` is unresolved")

/-- `ensure_no_running_activities`. -/
def ensureNoRunningActivities (s : RunState) (transition : String) : DurabilityResult Unit :=
  let activityIds := (s.projection.activities.values.filter fun record =>
    record.attempts.any (·.status = .running)).map (·.definition.activityId)
  refuseIf (activityIds ≠ []) (.invalidEvent
    s!"run cannot {transition} while activities are running: {debugList activityIds}")

def eventById (s : RunState) (eventId : String) : Option RunEvent :=
  s.events.find? (·.eventId = eventId)

def checkpointById (s : RunState) (checkpointId : String) : DurabilityResult Checkpoint :=
  okOr s.checkpoints[checkpointId]? (.checkpointNotFound checkpointId)

/-- `checkpoint_for_current_run`: an inherited checkpoint is seen through the run's own fork. -/
def checkpointForCurrentRun (s : RunState) (checkpoint : Checkpoint) : DurabilityResult Checkpoint :=
  if checkpoint.runId = s.runId then .ok checkpoint
  else match s.events.head? with
    | some ⟨_, _, sequence, _, .forkedFrom _ _ _ sourceCheckpoint newBranchId⟩ => do
      refuseIf (sourceCheckpoint.checkpointId ≠ checkpoint.checkpointId ∨
          sourceCheckpoint.runId ≠ checkpoint.runId)
        (.invalidEvent "inherited checkpoint does not match the current run's fork lineage")
      pure { checkpoint with
        projection := forkProjection checkpoint s.runId newBranchId
        runId := s.runId
        eventSequence := sequence
        parentCheckpointId := none }
    | _ => .error (.invalidEvent "inherited checkpoint has no fork lineage in the current run")

/-- The definitions under which an activity was scheduled, in the log's order. -/
def scheduledDefinitions (s : RunState) (activityId : String) : List ActivityDefinition :=
  s.events.filterMap fun event => match event.kind with
    | .activityScheduled definition =>
      if definition.activityId = activityId then some definition else none
    | _ => none

/-- `activity_side_effect_class`. -/
def activitySideEffectClass (s : RunState) (activityId : String) :
    DurabilityResult SideEffectClass := do
  let projected := s.projection.activities[activityId]?.map (·.definition)
  let scheduled := s.scheduledDefinitions activityId
  -- comparing each definition with the one before it is comparing all with the first
  refuseIf (scheduled.any fun definition => scheduled.head? ≠ some definition)
    (.invalidEvent s!"activity `{activityId}` has conflicting scheduled definitions")
  refuseIf (projected.any fun left => scheduled.getLast?.any fun right => left ≠ right)
    (.invalidEvent s!"activity `{activityId}` projection conflicts with its scheduled definition")
  let definition ← okOr (projected.or scheduled.getLast?)
    (.invalidEvent s!"activity attempt `{activityId}` has no durable activity definition")
  pure definition.sideEffectClass

/-- The activities started after a point of the log, in the log's order. -/
def startedAfter (s : RunState) (eventSequence : Nat) : List String :=
  s.events.filterMap fun event => match event.kind with
    | .activityAttemptStarted activityId _ =>
      if eventSequence < event.sequence then some activityId else none
    | _ => none

/-- The loop of `require_reconciled_after`: the activities that are not pure, in key order. -/
def unsafeActivities (s : RunState) : List String → BTreeMap Unit →
    DurabilityResult (BTreeMap Unit)
  | [], acc => .ok acc
  | activityId :: rest, acc => do
    let sideEffectClass ← s.activitySideEffectClass activityId
    s.unsafeActivities rest (if sideEffectClass ≠ .pure then acc.insert activityId () else acc)

/-- `require_reconciled_after`. -/
def requireReconciledAfter (s : RunState) (eventSequence : Nat) (sideEffectsReconciled : Bool) :
    DurabilityResult Unit := do
  let unsafeIds ← s.unsafeActivities (s.startedAfter eventSequence) ∅
  refuseIf (unsafeIds.toList ≠ [] ∧ sideEffectsReconciled = false)
    (.reconcileRequired (unsafeIds.toList.map Prod.fst))

/-- `activity_attempt_has_v1_provenance`. -/
def attemptHasV1Provenance (s : RunState) (activityId : String) (attempt : Nat) : Bool :=
  (s.events.any fun event => beforeV2 event.schemaVersion && match event.kind with
    | .activityScheduled definition => definition.activityId = activityId
    | _ => false) &&
  s.events.any fun event => beforeV2 event.schemaVersion && match event.kind with
    | .activityAttemptStarted candidate candidateAttempt =>
      candidate = activityId && candidateAttempt = attempt
    | _ => false

/-- The sequence at which an invocation's lifecycle was scheduled. -/
def lifecycleScheduleSequence (s : RunState) (activityId : String) (record : ActivityRecord) :
    Option Nat :=
  if record.definition.stableStepId = invocationLifecycleStepId then
    s.events.findSome? fun event => match event.kind with
      | .activityScheduled definition =>
        if definition.activityId = activityId then some event.sequence else none
      | _ => none
  else none

/-! ### Changing a run -/

/-- The run with one activity's record written. -/
def withActivity (s : RunState) (activityId : String) (record : ActivityRecord) : RunState :=
  { s with projection :=
    { s.projection with activities := s.projection.activities.insert activityId record } }

/-- The run with its status and the reason for it. -/
def withStatus (s : RunState) (status : DurableRunStatus) (pauseReason : Option String) : RunState :=
  { s with projection := { s.projection with status, pauseReason } }

/-- The run with one approval written. -/
def withApproval (s : RunState) (approvalId : String) (approval : DurableApproval) : RunState :=
  { s with projection :=
    { s.projection with approvals := s.projection.approvals.insert approvalId approval } }

/-- The run with its worker lease. -/
def withLease (s : RunState) (lease : Option DurableWorkerLease) : RunState :=
  { s with projection := { s.projection with workerLease := lease } }

/-! ### How a run begins -/

/-- The first event of a run. -/
def applyFirst (s : RunState) : RunEventKind → DurabilityResult RunState
  | .runStarted sessionId durability rootBranchId => do
    refuseIf (sessionId ≠ s.sessionId)
      (.invalidEvent "run-start session does not match state")
    pure { s with
      durability
      projection := { RunProjection.root s.runId with branchId := rootBranchId } }
  | .forkedFrom sessionId sourceRunId durability sourceCheckpoint newBranchId => do
    refuseIf (sessionId ≠ s.sessionId)
      (.invalidEvent "fork session does not match state")
    validateIdentifier "source_run_id" sourceRunId
    validateIdentifier "new_branch_id" newBranchId
    validateSourceCheckpoint s.runId sourceRunId sourceCheckpoint
    pure { s with
      parentRunId := some sourceRunId
      durability
      projection := forkProjection sourceCheckpoint s.runId newBranchId
      checkpoints := s.checkpoints.insert sourceCheckpoint.checkpointId sourceCheckpoint }
  | _ => .error .missingRunStart

/-- Nothing is pinned yet, and only the first event is logged. -/
def ensureUnpinned (s : RunState) (reason : String) : DurabilityResult Unit :=
  refuseIf (s.events.length ≠ 1 ∨ s.policySnapshotHash.isSome ∨ s.governanceBinding.isSome)
    (.invalidEvent reason)

def applyPolicySnapshotPinned (s : RunState) (policySnapshotHash : String) :
    DurabilityResult RunState := do
  s.ensureUnpinned "policy snapshot must be pinned exactly once before run work"
  validatePolicyHash policySnapshotHash
  pure { s with policySnapshotHash := some policySnapshotHash }

/-- `binding.validate()`, with its error under a title. -/
def checkBinding (title : String) (binding : GovernanceBinding) : DurabilityResult Unit :=
  match binding.validate with
  | .ok () => .ok ()
  | .error error => .error (.invalidEvent s!"{title}: {error.text}")

def applyGovernanceBindingPinned (s : RunState) (binding : GovernanceBinding) :
    DurabilityResult RunState := do
  s.ensureUnpinned "governance binding must be pinned exactly once before run work"
  checkBinding "invalid governance binding" binding
  refuseIf (binding.runId ≠ s.runId)
    (.invalidEvent "governance binding run_id does not match event run")
  pure { s with
    policySnapshotHash := some binding.policySnapshotHash
    governanceBinding := some binding }

def applyStateReplaced (s : RunState) (state : Value) : DurabilityResult RunState := do
  s.ensureExecuting
  pure { s with projection := { s.projection with state } }

/-! ### Worker leases -/

/-- What the three lease events check first. -/
def checkLeaseEvent (version : Nat) (ownerId leaseId : String) : DurabilityResult Unit := do
  refuseIf (beforeV2 version)
    (.invalidEvent "distributed worker leases require durability schema v2")
  validateIdentifier "worker_owner_id" ownerId
  validateIdentifier "worker_lease_id" leaseId

/-- No other claim is held at the time of a new one. -/
def ensureLeaseFree (s : RunState) (claimedAtUnixMs : Nat) : DurabilityResult Unit :=
  match s.projection.workerLease with
  | none => .ok ()
  | some existing =>
    refuseIf (claimedAtUnixMs < existing.expiresAtUnixMs)
      (.workerLeaseHeld existing.ownerId existing.expiresAtUnixMs)

def applyWorkerLeaseClaimed (s : RunState) (version : Nat) (ownerId leaseId : String)
    (claimedAtUnixMs expiresAtUnixMs : Nat) : DurabilityResult RunState := do
  checkLeaseEvent version ownerId leaseId
  validateWorkerLeaseWindow claimedAtUnixMs expiresAtUnixMs
  s.ensureLeaseFree claimedAtUnixMs
  pure (s.withLease (some
    { ownerId, leaseId, acquiredAtUnixMs := claimedAtUnixMs, heartbeatAtUnixMs := claimedAtUnixMs,
      expiresAtUnixMs }))

def applyWorkerLeaseRenewed (s : RunState) (version : Nat) (ownerId leaseId : String)
    (renewedAtUnixMs expiresAtUnixMs : Nat) : DurabilityResult RunState := do
  checkLeaseEvent version ownerId leaseId
  validateWorkerLeaseWindow renewedAtUnixMs expiresAtUnixMs
  let existing ← okOr s.projection.workerLease (.workerLeaseLost ownerId)
  refuseIf (existing.ownerId ≠ ownerId ∨ existing.leaseId ≠ leaseId ∨
      existing.expiresAtUnixMs ≤ renewedAtUnixMs ∨ renewedAtUnixMs < existing.heartbeatAtUnixMs ∨
      expiresAtUnixMs ≤ existing.expiresAtUnixMs) (.workerLeaseLost ownerId)
  pure (s.withLease (some { existing with heartbeatAtUnixMs := renewedAtUnixMs, expiresAtUnixMs }))

def applyWorkerLeaseReleased (s : RunState) (version : Nat) (ownerId leaseId : String)
    (releasedAtUnixMs : Nat) : DurabilityResult RunState := do
  checkLeaseEvent version ownerId leaseId
  let existing ← okOr s.projection.workerLease (.workerLeaseLost ownerId)
  refuseIf (existing.ownerId ≠ ownerId ∨ existing.leaseId ≠ leaseId ∨
      existing.expiresAtUnixMs ≤ releasedAtUnixMs ∨ releasedAtUnixMs < existing.heartbeatAtUnixMs)
    (.workerLeaseLost ownerId)
  pure (s.withLease none)

/-! ### Activities -/

/-- What a v1 event may schedule under a reserved step. -/
def checkV1Schedule (s : RunState) (definition : ActivityDefinition) : DurabilityResult Unit := do
  refuseIf (isV2ReservedStep definition.stableStepId)
    (.invalidEvent "v2 reserved audit activities cannot be introduced by a v1 event")
  let duplicate := s.projection.activities.values.any fun record =>
    record.definition.stableStepId = legacyRunStoppedAuditStepId
  refuseIf (definition.stableStepId = legacyRunStoppedAuditStepId ∧
      (definition.activityId ≠ stableIdentifier "activity"
          [s.runId, s.projection.branchId, legacyRunStoppedAuditStepId, "terminal"] ∨
        definition.logicalKey ≠ "terminal" ∨ definition.sideEffectClass ≠ .reconcileRequired ∨
        definition.idempotencyKey.isSome ∨ duplicate))
    (.invalidEvent "legacy RunStopped audit activity has a non-canonical or duplicate definition")

/-- What a later event may schedule. -/
def checkV2Schedule (s : RunState) (definition : ActivityDefinition) : DurabilityResult Unit := do
  refuseIf (isV2ReservedStep definition.stableStepId = false ∧
      s.projection.activities.values.any isTerminalMarker)
    (.invalidEvent "ordinary work cannot be scheduled after a terminal audit marker")
  validateReservedAuditSchedule s.runId s.projection.branchId s.projection.activities definition

/-- What an event of a version may schedule. -/
def checkSchedule (s : RunState) (version : Nat) (definition : ActivityDefinition) :
    DurabilityResult Unit :=
  if beforeV2 version then s.checkV1Schedule definition else s.checkV2Schedule definition

def applyActivityScheduled (s : RunState) (version : Nat) (definition : ActivityDefinition) :
    DurabilityResult RunState := do
  let activityId := definition.activityId
  s.ensureExecuting
  refuseIf (stableInputHash definition.input ≠ definition.inputHash)
    (.invalidEvent s!"activity `{activityId}` input hash does not match input")
  refuseIf definition.lacksIdempotencyKey (.missingIdempotencyKey activityId)
  refuseIf (s.projection.activities.contains activityId)
    (.invalidActivityTransition activityId "activity was scheduled twice")
  s.checkSchedule version definition
  pure (s.withActivity activityId { definition, attempts := [] })

/-- What a later event checks before an attempt starts. -/
def checkV2Start (s : RunState) (activityId : String) : DurabilityResult Unit := do
  let record ← s.activity activityId
  refuseIf (isReservedAuditActivity record = false ∧
      s.projection.activities.values.any isTerminalMarker)
    (.invalidEvent "ordinary work cannot start after a terminal audit marker")
  validateReservedAuditAttemptStart s.runId s.projection.activities record

/-- The previous attempt, if there is one, may be followed by another. -/
def checkRetry (activityId : String) (record : ActivityRecord) : DurabilityResult Unit :=
  match record.latestAttempt with
  | none => .ok ()
  | some previous => do
    refuseIf (previous.status ≠ .failed ∨ previous.retryable = false)
      (invalidActivity activityId "previous attempt is not retryable")
    refuseIf (retryIsSafe record.definition previous.effectAmbiguous = false)
      (invalidActivity activityId "previous attempt requires reconciliation")

/-- A fresh attempt. -/
def startedAttempt (attempt sequence : Nat) : ActivityAttempt where
  attempt
  status := .running
  startedSequence := sequence
  finishedSequence := none
  output := none
  outputHash := none
  error := none
  retryable := false
  effectAmbiguous := false

def applyActivityAttemptStarted (s : RunState) (version sequence : Nat) (activityId : String)
    (attempt : Nat) : DurabilityResult RunState := do
  s.ensureExecuting
  skipIf (beforeV2 version) (s.checkV2Start activityId)
  let record ← s.activity activityId
  let expected := record.nextAttempt
  refuseIf (attempt ≠ expected)
    (invalidActivity activityId s!"expected attempt {expected}, got {attempt}")
  checkRetry activityId record
  pure (s.withActivity activityId (record.pushAttempt (startedAttempt attempt sequence)))

/-- `running_attempt_mut`, and what an arm writes into the attempt. -/
def settleAttempt (s : RunState) (activityId : String) (attempt : Nat)
    (settle : ActivityAttempt → ActivityAttempt) : DurabilityResult RunState := do
  let record ← s.activity activityId
  let found ← okOr (record.findAttempt attempt) (invalidActivity activityId "attempt was not found")
  refuseIf (found.status ≠ .running) (invalidActivity activityId "attempt is not running")
  pure (s.withActivity activityId (record.setAttempt attempt (settle found)))

/-- What a later event checks before an attempt completes. -/
def checkV2Completion (s : RunState) (activityId : String) (output : Value) :
    DurabilityResult Unit := do
  let record ← s.activity activityId
  validateReservedAuditAttemptCompletion s.runId s.projection.activities record output

def applyActivityAttemptCompleted (s : RunState) (version sequence : Nat) (activityId : String)
    (attempt : Nat) (output : Value) (outputHash : String) : DurabilityResult RunState := do
  s.ensureActive
  refuseIf (stableInputHash output ≠ outputHash)
    (.invalidEvent s!"activity `{activityId}` output hash is invalid")
  skipIf (beforeV2 version) (s.checkV2Completion activityId output)
  s.settleAttempt activityId attempt fun found =>
    { found with
      status := .completed
      finishedSequence := some sequence
      output := some output
      outputHash := some outputHash }

/-- What a later event checks before an attempt fails. -/
def checkV2Failure (s : RunState) (activityId : String) : DurabilityResult Unit := do
  let record ← s.activity activityId
  refuseIf (isReservedAuditActivity record)
    (.invalidEvent "reserved audit failures must transition directly to reconciliation-required")

def applyActivityAttemptFailed (s : RunState) (version sequence : Nat) (activityId : String)
    (attempt : Nat) (error : String) (retryable effectAmbiguous : Bool) :
    DurabilityResult RunState := do
  s.ensureActive
  skipIf (beforeV2 version) (s.checkV2Failure activityId)
  s.settleAttempt activityId attempt fun found =>
    { found with
      status := .failed
      finishedSequence := some sequence
      error := some error
      retryable
      effectAmbiguous }

def applyActivityAttemptCancelled (s : RunState) (version sequence : Nat) (activityId : String)
    (attempt : Nat) (reason : String) : DurabilityResult RunState := do
  s.ensureActive
  refuseIf (version < activityAttemptCancelledSchemaVersion)
    (.invalidEvent "activity attempt cancellation events require durability schema v3")
  let record ← s.activity activityId
  refuseIf (isReservedAuditActivity record)
    (.invalidEvent "reserved audit cancellations require reconciliation")
  s.settleAttempt activityId attempt fun found =>
    { found with
      status := .cancelled
      finishedSequence := some sequence
      error := some reason
      retryable := false
      effectAmbiguous := false }

/-- A v1 terminal audit that was scheduled and never started, in a finished run. -/
def isTerminalLegacyOrphan (s : RunState) (version : Nat) (activityId : String) (attempt : Nat) :
    Bool :=
  !beforeV2 version && s.projection.status.isTerminal &&
    attempt = 1 && s.projection.activities[activityId]?.any fun record =>
      record.definition.stableStepId = legacyRunStoppedAuditStepId &&
        isReservedAuditActivity record && record.attempts.isEmpty

/-- An unsafe attempt that a v1 log left running in a finished run. -/
def isTerminalLegacyRunning (s : RunState) (version : Nat) (activityId : String) (attempt : Nat) :
    Bool :=
  !beforeV2 version && s.projection.status.isTerminal &&
    s.projection.activities[activityId]?.any fun record =>
      !isReservedAuditActivity record && record.definition.sideEffectClass = .reconcileRequired &&
        (record.latestAttempt.any fun candidate =>
          candidate.attempt = attempt && candidate.status = .running) &&
        s.attemptHasV1Provenance activityId attempt

/-- The attempt that a reserved activity gets when it was scheduled and never started. -/
def orphanAttempt (attempt sequence : Nat) (reason : String) : ActivityAttempt where
  attempt
  status := .reconcileRequired
  startedSequence := sequence
  finishedSequence := some sequence
  output := none
  outputHash := none
  error := some reason
  retryable := false
  effectAmbiguous := true

/-- What `ActivityReconciliationRequired` makes of the record. -/
def quarantineAttempt (version sequence : Nat) (activityId : String) (attempt : Nat)
    (reason : String) (record : ActivityRecord) : DurabilityResult ActivityRecord :=
  if record.attempts = [] then do
    refuseIf (beforeV2 version ∨ attempt ≠ 1 ∨
        isReservedAuditActivity record = false)
      (invalidActivity activityId "attempt was not found")
    pure (record.pushAttempt (orphanAttempt attempt sequence reason))
  else do
    let found ← okOr (record.findAttempt attempt)
      (invalidActivity activityId "attempt was not found")
    refuseIf (¬ (found.status = .running ∨ found.status = .failed))
      (invalidActivity activityId "only running or failed attempts can require reconciliation")
    pure (record.setAttempt attempt
      { found with
        status := .reconcileRequired
        finishedSequence := some sequence
        error := some reason
        effectAmbiguous := true })

def applyActivityReconciliationRequired (s : RunState) (version sequence : Nat)
    (activityId : String) (attempt : Nat) (reason : String) : DurabilityResult RunState := do
  let migration := s.isTerminalLegacyOrphan version activityId attempt ||
    s.isTerminalLegacyRunning version activityId attempt
  skipIf migration s.ensureActive
  let record ← s.activity activityId
  let quarantined ← quarantineAttempt version sequence activityId attempt reason record
  let t := s.withActivity activityId quarantined
  pure (if migration then t else t.withStatus .reconcileRequired (some reason))

/-- What a resolution makes of the attempt. -/
def resolveAttempt (sequence : Nat) (found : ActivityAttempt) :
    ActivityReconciliation → ActivityAttempt
  | .completed output =>
    { found with
      status := .completed
      outputHash := some (stableInputHash output)
      output := some output
      retryable := false
      effectAmbiguous := false
      finishedSequence := some sequence }
  | .safeToRetry =>
    { found with
      status := .failed
      retryable := true
      effectAmbiguous := false
      finishedSequence := some sequence }
  | .cancelled =>
    { found with
      status := .cancelled
      retryable := false
      effectAmbiguous := false
      finishedSequence := some sequence }

/-- An operator's attestation of a v1 terminal audit, in a finished run. -/
def isTerminalLegacyAttestation (s : RunState) (record : ActivityRecord) :
    ActivityReconciliation → Bool
  | .completed _ => s.projection.status.isTerminal &&
      record.definition.stableStepId = legacyRunStoppedAuditStepId &&
      record.latestAttempt.any (·.status ≠ .completed)
  | .safeToRetry | .cancelled => false

/-- The status that an attested receipt stands for. -/
def attestedStatus (reason : String) : DurableRunStatus :=
  if reason = "end_turn" ∨ reason = "stop" then .completed
  else if reason = "approval_interrupted" ∨ reason = "cancelled" then .cancelled
  else .failed

/-- A terminal attestation agrees with the run's status. -/
def checkAttestation (s : RunState) (resolution : ActivityReconciliation) :
    DurabilityResult Unit :=
  match resolution with
  | .completed output => do
    let attestation ← okOr (decodeLegacyResolutionEnvelope output)
      (.invalidEvent "terminal legacy RunStopped attestation is malformed")
    refuseIf (attestedStatus attestation.terminalReceipt.reason ≠ s.projection.status)
      (.invalidEvent
        "terminal legacy RunStopped attestation contradicts the persisted terminal status")
  | .safeToRetry | .cancelled => .ok ()

def applyActivityReconciled (s : RunState) (version sequence : Nat) (activityId : String)
    (attempt : Nat) (resolution : ActivityReconciliation) : DurabilityResult RunState := do
  let record ← s.activity activityId
  skipIf (beforeV2 version) (validateReservedAuditReconciliation s.runId s.projection.activities
    record resolution (s.lifecycleScheduleSequence activityId record))
  let attestation := s.isTerminalLegacyAttestation record resolution
  skipIf (attestation = false) (s.checkAttestation resolution)
  let found ← okOr (record.findAttempt attempt) (invalidActivity activityId "attempt was not found")
  refuseIf (found.status ≠ .reconcileRequired ∧ attestation = false)
    (invalidActivity activityId "attempt is not awaiting reconciliation")
  let t := s.withActivity activityId
    (record.setAttempt attempt (resolveAttempt sequence found resolution))
  pure (if s.projection.status.isTerminal = false ∧ t.projection.hasReconciliationPending = false
    then t.withStatus .paused (some "reconciliation completed") else t)

/-! ### Approvals -/

/-- A binding that an approval names is valid, is of this run, and is of the policy named with it. -/
def checkApprovalBinding (s : RunState) (policySnapshotHash : Option String) :
    Option GovernanceBinding → DurabilityResult Unit
  | none => .ok ()
  | some binding => do
    checkBinding "invalid approval governance binding" binding
    refuseIf (binding.runId ≠ s.runId ∨ policySnapshotHash ≠ some binding.policySnapshotHash)
      (.invalidEvent "approval governance binding identity is inconsistent")

/-- The optional policy hash is well formed. -/
def checkPolicyHash : Option String → DurabilityResult Unit
  | none => .ok ()
  | some hash => validatePolicyHash hash

/-- The approval that a request persists. -/
def requestedApproval (sequence : Nat) (approvalId logicalKey : String)
    (activityId : Option String) (prompt : String) (decoded : DecodedApprovalPayload) :
    DurableApproval where
  approvalId
  logicalKey
  activityId
  kind := decoded.kind
  prompt
  payload := decoded.payload
  policySnapshotHash := decoded.policySnapshotHash
  governanceBinding := decoded.governanceBinding
  requestedAtUnixMs := decoded.requestedAtUnixMs
  expiresAtUnixMs := decoded.expiresAtUnixMs
  status := .pending
  response := none
  resolvedAtUnixMs := none
  timedOut := false
  requestedSequence := sequence
  resolvedSequence := none

def applyApprovalRequested (s : RunState) (version sequence : Nat) (approvalId logicalKey : String)
    (activityId : Option String) (prompt : String) (payload : Value) :
    DurabilityResult RunState := do
  s.ensureActive
  s.ensureNotReconciling
  refuseIf (s.projection.approvals.contains approvalId)
    (.invalidEvent s!"approval `{approvalId}` was requested twice")
  let decoded ← decodeApprovalPayload payload version
  checkPolicyHash decoded.policySnapshotHash
  let expected := debugOption s.policySnapshotHash
  let actual := debugOption decoded.policySnapshotHash
  refuseIf (decoded.policySnapshotHash ≠ s.policySnapshotHash)
    (.invalidEvent
      s!"approval policy snapshot does not match pinned run policy: expected {expected}, got {actual}")
  refuseIf (decoded.governanceBinding ≠ s.governanceBinding)
    (.invalidEvent "approval governance binding does not match pinned run binding")
  s.checkApprovalBinding decoded.policySnapshotHash decoded.governanceBinding
  pure ((s.withApproval approvalId
    (requestedApproval sequence approvalId logicalKey activityId prompt decoded)).withStatus .paused
      (some s!"approval `{approvalId}` required"))

def applyApprovalResolved (s : RunState) (version sequence : Nat) (approvalId : String)
    (approved : Bool) (response : Option Value) : DurabilityResult RunState := do
  let approval ← okOr s.projection.approvals[approvalId]? (.approvalNotFound approvalId)
  refuseIf (approval.status ≠ .pending) (.approvalAlreadyResolved approvalId)
  let decoded ← decodeResolutionPayload approval approved response version
  pure (s.withApproval approvalId
    { approval with
      status := if approved then .approved else .rejected
      response := decoded.response
      resolvedAtUnixMs := decoded.resolvedAtUnixMs
      timedOut := decoded.timedOut
      resolvedSequence := some sequence })

/-! ### Artifacts, checkpoints and the status of the run -/

def applyArtifactPublished (s : RunState) (metadata : ArtifactMetadata) :
    DurabilityResult RunState := do
  s.ensureActive
  let artifactId := metadata.artifactId
  let versions := s.projection.artifacts[artifactId]?.getD []
  let expected := (versions.getLast?.map (·.version + 1)).getD 1
  refuseIf (metadata.version ≠ expected)
    (.invalidArtifactVersion artifactId expected metadata.version)
  refuseIf (metadata.previousVersionId ≠ versions.getLast?.map (·.versionId))
    (.invalidEvent s!"artifact `{artifactId}` previous version does not match active projection")
  let artifacts := s.projection.artifacts.insert artifactId (versions ++ [metadata])
  pure { s with projection := { s.projection with artifacts } }

def applyCheckpointCommitted (s : RunState) (sequence : Nat) (checkpointId : String)
    (label : Option String) : DurabilityResult RunState := do
  s.ensureActive
  refuseIf (s.checkpoints.contains checkpointId)
    (.invalidEvent s!"checkpoint `{checkpointId}` was committed twice")
  let checkpoint : Checkpoint :=
    { checkpointId, runId := s.runId, eventSequence := sequence,
      parentCheckpointId := s.projection.currentCheckpointId, label, projection := s.projection }
  pure { s with
    checkpoints := s.checkpoints.insert checkpointId checkpoint
    projection := { s.projection with currentCheckpointId := some checkpointId } }

def applyRunPaused (s : RunState) (reason : String) : DurabilityResult RunState := do
  s.ensureActive
  s.ensureNotReconciling
  pure (s.withStatus .paused (some reason))

/-- No approval is pending. -/
def ensureNoPendingApprovals (s : RunState) : DurabilityResult Unit :=
  refuseIf (s.projection.pendingApprovalIds ≠ []) .pendingApprovals

/-- No activity awaits reconciliation. -/
def ensureNoReconciliationPending (s : RunState) : DurabilityResult Unit :=
  refuseIf s.projection.hasReconciliationPending .runRequiresReconciliation

def applyRunResumed (s : RunState) : DurabilityResult RunState := do
  refuseIf (s.projection.status ≠ .paused) .notPaused
  s.ensureNoPendingApprovals
  s.ensureNoReconciliationPending
  pure (s.withStatus .running none)

def applyForkCreated (s : RunState) (newRunId checkpointId : String)
    (sideEffectsReconciled : Bool) : DurabilityResult RunState := do
  s.ensureActive
  validateIdentifier "new_run_id" newRunId
  let checkpoint ← s.checkpointById checkpointId
  let checkpoint ← s.checkpointForCurrentRun checkpoint
  s.requireReconciledAfter checkpoint.eventSequence sideEffectsReconciled
  pure s

def applyRunRewound (s : RunState) (checkpointId newBranchId : String)
    (sideEffectsReconciled : Bool) : DurabilityResult RunState := do
  s.ensureActive
  let checkpoint ← s.checkpointById checkpointId
  let checkpoint ← s.checkpointForCurrentRun checkpoint
  s.requireReconciledAfter checkpoint.eventSequence sideEffectsReconciled
  pure { s with projection :=
    { forkProjection checkpoint s.runId newBranchId with
      status := .paused
      pauseReason := some s!"rewound to `{checkpointId}`" } }

def applyRunCompleted (s : RunState) (version : Nat) : DurabilityResult RunState := do
  s.ensureActive
  skipIf (beforeV2 version) s.ensureReservedAuditLifecycleClosed
  s.ensureNoPendingApprovals
  s.ensureNoReconciliationPending
  s.ensureNoRunningActivities "complete"
  pure (s.withStatus .completed none)

/-- What a later event checks before a run fails or is cancelled. -/
def checkV2Stop (s : RunState) (transition : String) : DurabilityResult Unit := do
  s.ensureReservedAuditLifecycleClosed
  s.ensureNoRunningActivities transition

def applyRunFailed (s : RunState) (version : Nat) (error : String) : DurabilityResult RunState := do
  s.ensureActive
  skipIf (beforeV2 version) (s.checkV2Stop "fail")
  pure (s.withStatus .failed (some error))

def applyRunCancelled (s : RunState) (version : Nat) (reason : Option String) :
    DurabilityResult RunState := do
  s.ensureActive
  skipIf (beforeV2 version) (s.checkV2Stop "cancel")
  pure (s.withStatus .cancelled reason)

/-! ### The state machine, and the log around it -/

/-- The events after the first. -/
def applyLater (s : RunState) (version sequence : Nat) : RunEventKind → DurabilityResult RunState
  | .runStarted .. | .forkedFrom .. => .error .alreadyStarted
  | .policySnapshotPinned policySnapshotHash => s.applyPolicySnapshotPinned policySnapshotHash
  | .governanceBindingPinned binding => s.applyGovernanceBindingPinned binding
  | .stateReplaced state => s.applyStateReplaced state
  | .workerLeaseClaimed ownerId leaseId claimedAt expiresAt =>
    s.applyWorkerLeaseClaimed version ownerId leaseId claimedAt expiresAt
  | .workerLeaseRenewed ownerId leaseId renewedAt expiresAt =>
    s.applyWorkerLeaseRenewed version ownerId leaseId renewedAt expiresAt
  | .workerLeaseReleased ownerId leaseId releasedAt =>
    s.applyWorkerLeaseReleased version ownerId leaseId releasedAt
  | .activityScheduled definition => s.applyActivityScheduled version definition
  | .activityAttemptStarted activityId attempt =>
    s.applyActivityAttemptStarted version sequence activityId attempt
  | .activityAttemptCompleted activityId attempt output outputHash =>
    s.applyActivityAttemptCompleted version sequence activityId attempt output outputHash
  | .activityAttemptFailed activityId attempt error retryable effectAmbiguous =>
    s.applyActivityAttemptFailed version sequence activityId attempt error retryable effectAmbiguous
  | .activityAttemptCancelled activityId attempt reason =>
    s.applyActivityAttemptCancelled version sequence activityId attempt reason
  | .activityReconciliationRequired activityId attempt reason =>
    s.applyActivityReconciliationRequired version sequence activityId attempt reason
  | .activityReconciled activityId attempt resolution =>
    s.applyActivityReconciled version sequence activityId attempt resolution
  | .approvalRequested approvalId logicalKey activityId prompt payload =>
    s.applyApprovalRequested version sequence approvalId logicalKey activityId prompt payload
  | .approvalResolved approvalId approved response =>
    s.applyApprovalResolved version sequence approvalId approved response
  | .artifactPublished metadata => s.applyArtifactPublished metadata
  | .checkpointCommitted checkpointId label => s.applyCheckpointCommitted sequence checkpointId label
  | .runPaused reason => s.applyRunPaused reason
  | .runResumed => s.applyRunResumed
  | .forkCreated newRunId checkpointId _ sideEffectsReconciled =>
    s.applyForkCreated newRunId checkpointId sideEffectsReconciled
  | .runRewound checkpointId newBranchId sideEffectsReconciled =>
    s.applyRunRewound checkpointId newBranchId sideEffectsReconciled
  | .runCompleted => s.applyRunCompleted version
  | .runFailed error => s.applyRunFailed version error
  | .runCancelled reason => s.applyRunCancelled version reason

/-- `apply_event_in_place`. -/
def applyEventInPlace (s : RunState) (event : RunEvent) : DurabilityResult RunState :=
  match s.events with
  | [] => s.applyFirst event.kind
  | _ :: _ => s.applyLater event.schemaVersion event.sequence event.kind

/-- `next_sequence`. -/
def nextSequence (s : RunState) : Nat := (s.events.getLast?.map (·.sequence + 1)).getD 1

/-- The run with one event more in its log. -/
def pushEvent (s : RunState) (event : RunEvent) : RunState :=
  { s with events := s.events ++ [event] }

/-- The body of `append_validated_event`, on a clone. -/
def tryAppend (s : RunState) (event : RunEvent) : DurabilityResult (AppendOutcome × RunState) := do
  validateIdentifier "event_id" event.eventId
  refuseIf (event.runId ≠ s.runId) (.wrongRun s.runId event.runId)
  match s.eventById event.eventId with
  | some existing =>
    if existing.kind = event.kind then .ok (.deduplicated existing.sequence, s)
    else .error (.duplicateEventConflict event.eventId)
  | none => do
    refuseIf (event.sequence ≠ s.nextSequence) (.nonMonotonicSequence s.nextSequence event.sequence)
    let t ← s.applyEventInPlace event
    pure (.appended event.sequence, t.pushEvent event)

end RunState

end

end AikitRuntime.Durability
