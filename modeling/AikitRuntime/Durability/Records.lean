import AikitRuntime.Library.SortedMaps
import AikitRuntime.Durability.Governance

/-!
# The records of a durable run

A run is a log of events and what is derived from it: the projection (the active
branch's activities, approvals, artifacts and application state), and the checkpoints
taken of it. This module is the data: the enumerations, the records, the events with
their content, and the errors a rejected transition reports.

Counters are natural numbers. A sequence number is a position in the log and an artifact
version is a position in its history, both of which sit in memory, so neither comes near
`2 ^ 64`; attempt numbers, which are `u32`, are wrapped where the code wraps them.
-/

namespace AikitRuntime.Durability

open Library

/-- `DURABILITY_SCHEMA_VERSION`. -/
def durabilitySchemaVersion : Nat := 3

/-- `MIN_SUPPORTED_DURABILITY_SCHEMA_VERSION`. -/
def minSupportedDurabilitySchemaVersion : Nat := 1

/-- `TERMINAL_ACTIVITY_INVARIANT_SCHEMA_VERSION`. -/
def terminalActivityInvariantSchemaVersion : Nat := 2

/-- `ACTIVITY_ATTEMPT_CANCELLED_SCHEMA_VERSION`. -/
def activityAttemptCancelledSchemaVersion : Nat := 3

/-- `MAX_DURABLE_WORKER_LEASE_MS`. -/
def maxDurableWorkerLeaseMs : Nat := 60 * 60 * 1000

/-- `RUNTIME_RUN_STOPPED_AUDIT_STEP_ID`. -/
def runStoppedAuditStepId : String := "runtime-run-stopped-audit-v2"

/-- `RUNTIME_LEGACY_RUN_STOPPED_AUDIT_STEP_ID`. -/
def legacyRunStoppedAuditStepId : String := "runtime-run-stopped-audit-v1"

/-- `RUNTIME_RECOVERY_RUN_STOPPED_AUDIT_STEP_ID`. -/
def recoveryRunStoppedAuditStepId : String := "runtime-recovery-run-stopped-audit-v1"

/-- `RUNTIME_INVOCATION_LIFECYCLE_STEP_ID`. -/
def invocationLifecycleStepId : String := "runtime-invocation-lifecycle-v1"

/-- `is_supported_durability_schema_version`. -/
def isSupportedDurabilitySchemaVersion (schemaVersion : Nat) : Bool :=
  minSupportedDurabilitySchemaVersion ≤ schemaVersion && schemaVersion ≤ durabilitySchemaVersion

/-- Controls when a coordinator is allowed to acknowledge progress. -/
inductive DurabilityMode where
  | sync | async | exit
  deriving DecidableEq

/-- How an activity may be retried after an ambiguous worker failure. -/
inductive SideEffectClass where
  | pure | idempotent | reconcileRequired
  deriving DecidableEq

/-- The lifecycle of a durable run. -/
inductive DurableRunStatus where
  | running | paused | reconcileRequired | completed | failed | cancelled
  deriving DecidableEq

/-- `is_terminal`. -/
def DurableRunStatus.isTerminal : DurableRunStatus → Bool
  | .completed | .failed | .cancelled => true
  | .running | .paused | .reconcileRequired => false

/-- The lifecycle of one activity attempt. -/
inductive ActivityAttemptStatus where
  | running | completed | failed | reconcileRequired | cancelled
  deriving DecidableEq

/-- The identity and retry contract of one logical activity. -/
structure ActivityDefinition where
  activityId : String
  stableStepId : String
  logicalKey : String
  input : Value
  inputHash : String
  sideEffectClass : SideEffectClass
  idempotencyKey : Option String
  deriving DecidableEq

/-- One execution attempt of an activity. -/
structure ActivityAttempt where
  attempt : Nat
  status : ActivityAttemptStatus
  startedSequence : Nat
  finishedSequence : Option Nat
  output : Option Value
  outputHash : Option String
  error : Option String
  retryable : Bool
  /-- The runtime cannot establish whether an external effect occurred. -/
  effectAmbiguous : Bool
  deriving DecidableEq

/-- An activity and all of its attempts. -/
structure ActivityRecord where
  definition : ActivityDefinition
  attempts : List ActivityAttempt
  deriving DecidableEq

/-- `completed_output`. -/
def ActivityRecord.completedOutput (record : ActivityRecord) : Option Value :=
  (record.attempts.reverse.find? fun attempt => attempt.status = .completed).bind (·.output)

/-- `latest_attempt`. -/
def ActivityRecord.latestAttempt (record : ActivityRecord) : Option ActivityAttempt :=
  record.attempts.getLast?

/-- Versioned metadata of an artifact. -/
structure ArtifactMetadata where
  artifactId : String
  version : Nat
  versionId : String
  branchId : String
  mediaType : String
  sizeBytes : Nat
  contentHash : String
  createdByActivityId : Option String
  previousVersionId : Option String
  deriving DecidableEq

inductive DurableApprovalStatus where
  | pending | approved | rejected
  deriving DecidableEq

inductive DurableApprovalKind where
  | confirmation | missingInput | outputReview | editRetry
  deriving DecidableEq

/-- A persisted approval request. -/
structure DurableApproval where
  approvalId : String
  logicalKey : String
  activityId : Option String
  kind : DurableApprovalKind
  prompt : String
  payload : Value
  policySnapshotHash : Option String
  governanceBinding : Option GovernanceBinding
  requestedAtUnixMs : Option Nat
  expiresAtUnixMs : Option Nat
  status : DurableApprovalStatus
  response : Option Value
  resolvedAtUnixMs : Option Nat
  timedOut : Bool
  requestedSequence : Nat
  resolvedSequence : Option Nat
  deriving DecidableEq

/-- A typed, expiring approval request. -/
structure DurableApprovalRequest where
  logicalKey : String
  activityId : Option String
  kind : DurableApprovalKind
  prompt : String
  payload : Value
  policySnapshotHash : Option String
  governanceBinding : Option GovernanceBinding
  requestedAtUnixMs : Nat
  expiresAtUnixMs : Nat
  deriving DecidableEq

/-- One response supplied while resuming a paused run. -/
structure ApprovalResolution where
  approvalId : String
  approved : Bool
  response : Option Value
  deriving DecidableEq

/-- An execution claim. -/
structure DurableWorkerLease where
  ownerId : String
  leaseId : String
  acquiredAtUnixMs : Nat
  heartbeatAtUnixMs : Nat
  expiresAtUnixMs : Nat
  deriving DecidableEq

/-- The active branch, derived from the event log. -/
structure RunProjection where
  branchId : String
  status : DurableRunStatus
  state : Value
  activities : BTreeMap ActivityRecord
  approvals : BTreeMap DurableApproval
  artifacts : BTreeMap (List ArtifactMetadata)
  currentCheckpointId : Option String
  pauseReason : Option String
  workerLease : Option DurableWorkerLease
  deriving DecidableEq

/-- `pending_approval_ids`. -/
def RunProjection.pendingApprovalIds (projection : RunProjection) : List String :=
  (projection.approvals.values.filter fun approval => approval.status = .pending).map (·.approvalId)

/-- An immutable snapshot of a run projection. -/
structure Checkpoint where
  checkpointId : String
  runId : String
  eventSequence : Nat
  parentCheckpointId : Option String
  label : Option String
  projection : RunProjection
  deriving DecidableEq

/-- What an external reconciliation decided. -/
inductive ActivityReconciliation where
  | completed (output : Value)
  | safeToRetry
  | cancelled
  deriving DecidableEq

/-- What an event says. -/
inductive RunEventKind where
  | runStarted (sessionId : String) (durability : DurabilityMode) (rootBranchId : String)
  | policySnapshotPinned (policySnapshotHash : String)
  | governanceBindingPinned (binding : GovernanceBinding)
  | forkedFrom (sessionId sourceRunId : String) (durability : DurabilityMode)
      (sourceCheckpoint : Checkpoint) (newBranchId : String)
  | stateReplaced (state : Value)
  | workerLeaseClaimed (ownerId leaseId : String) (claimedAtUnixMs expiresAtUnixMs : Nat)
  | workerLeaseRenewed (ownerId leaseId : String) (renewedAtUnixMs expiresAtUnixMs : Nat)
  | workerLeaseReleased (ownerId leaseId : String) (releasedAtUnixMs : Nat)
  | activityScheduled (definition : ActivityDefinition)
  | activityAttemptStarted (activityId : String) (attempt : Nat)
  | activityAttemptCompleted (activityId : String) (attempt : Nat) (output : Value)
      (outputHash : String)
  | activityAttemptFailed (activityId : String) (attempt : Nat) (error : String)
      (retryable effectAmbiguous : Bool)
  | activityAttemptCancelled (activityId : String) (attempt : Nat) (reason : String)
  | activityReconciliationRequired (activityId : String) (attempt : Nat) (reason : String)
  | activityReconciled (activityId : String) (attempt : Nat) (resolution : ActivityReconciliation)
  | approvalRequested (approvalId logicalKey : String) (activityId : Option String)
      (prompt : String) (payload : Value)
  | approvalResolved (approvalId : String) (approved : Bool) (response : Option Value)
  | artifactPublished (metadata : ArtifactMetadata)
  | checkpointCommitted (checkpointId : String) (label : Option String)
  | runPaused (reason : String)
  | runResumed
  | forkCreated (newRunId checkpointId newBranchId : String) (sideEffectsReconciled : Bool)
  | runRewound (checkpointId newBranchId : String) (sideEffectsReconciled : Bool)
  | runCompleted
  | runFailed (error : String)
  | runCancelled (reason : Option String)
  deriving DecidableEq

/-- One immutable event in a run log. -/
structure RunEvent where
  schemaVersion : Nat
  runId : String
  sequence : Nat
  /-- Deduplication identity. Reusing it with different content is an error. -/
  eventId : String
  kind : RunEventKind
  deriving DecidableEq

/-- Result of appending an event to a run. -/
inductive AppendOutcome where
  | appended (sequence : Nat)
  | deduplicated (sequence : Nat)
  deriving DecidableEq

/-- `append_sequence`. -/
def AppendOutcome.sequence : AppendOutcome → Nat
  | .appended sequence | .deduplicated sequence => sequence

/-- Work decision returned for a logical activity. -/
inductive ActivityDecision where
  | execute (activityId : String) (attempt : Nat) (idempotencyKey : Option String)
  | reuseCompleted (activityId : String) (output : Value)
  | reconcileRequired (activityId reason : String)
  | failed (activityId error : String)
  | cancelled (activityId : String)
  deriving DecidableEq

/-- Durable control commands. -/
inductive RunCommand where
  | resume (commandId : String) (approvals : List ApprovalResolution)
  | fork (commandId newRunId checkpointId : String) (sideEffectsReconciled : Bool)
  | rewind (commandId checkpointId : String) (sideEffectsReconciled : Bool)
  | cancel (commandId : String) (reason : Option String)
  deriving DecidableEq

/-- Errors are fail-closed. -/
inductive DurabilityError where
  | invalidIdentifier (field : String)
  | unsupportedSchema (expected actual : Nat)
  | wrongRun (expected actual : String)
  | duplicateEventConflict (eventId : String)
  | nonMonotonicSequence (expected actual : Nat)
  | missingRunStart
  | alreadyStarted
  | terminalRun (status : DurableRunStatus)
  | activityNotFound (activityId : String)
  | activityInputChanged (activityId stableStepId : String)
  | missingIdempotencyKey (activityId : String)
  | invalidActivityTransition (activityId reason : String)
  | approvalNotFound (approvalId : String)
  | approvalAlreadyResolved (approvalId : String)
  | approvalClockRequired (approvalId : String)
  | invalidApprovalResolution (approvalId reason : String)
  | pendingApprovals
  | checkpointNotFound (checkpointId : String)
  | invalidArtifactVersion (artifactId : String) (expected actual : Nat)
  | reconcileRequired (activityIds : List String)
  | notPaused
  | runNotExecuting (status : DurableRunStatus)
  | runRequiresReconciliation
  | workerLeaseHeld (ownerId : String) (expiresAtUnixMs : Nat)
  | workerLeaseLost (ownerId : String)
  | invalidEvent (reason : String)
  deriving DecidableEq

/-- `DurabilityResult<T>`. -/
abbrev DurabilityResult (α : Type) : Type := Except DurabilityError α

/-- The run's state: the log, and what is derived from it. -/
structure RunState where
  schemaVersion : Nat
  sessionId : String
  runId : String
  durability : DurabilityMode
  parentRunId : Option String
  policySnapshotHash : Option String
  governanceBinding : Option GovernanceBinding
  events : List RunEvent
  checkpoints : BTreeMap Checkpoint
  projection : RunProjection
  deriving DecidableEq

/-! ### How the texts of errors quote values -/

/-- `{:?}` of a string, for the characters Rust escapes by name. -/
def debugText (text : String) : String :=
  let escape (c : Char) : List Char := match c with
    | '"' => ['\\', '"']
    | '\\' => ['\\', '\\']
    | '\n' => ['\\', 'n']
    | '\r' => ['\\', 'r']
    | '\t' => ['\\', 't']
    | c => if c.toNat = 0 then ['\\', '0'] else [c]
  String.ofList ('"' :: (text.toList.flatMap escape ++ ['"']))

/-- `{:?}` of an optional string. -/
def debugOption : Option String → String
  | some text => s!"Some({debugText text})"
  | none => "None"

/-- `{:?}` of a list of strings. -/
def debugList (texts : List String) : String :=
  let quoted := ", ".intercalate (texts.map debugText)
  s!"[{quoted}]"

/-! ### Checks that several transitions share -/

/-- `validate_identifier`. -/
def validateIdentifier (field value : String) : DurabilityResult Unit :=
  refuseIf (¬ ValidIdentifier value) (.invalidIdentifier field)

@[simp] theorem validateIdentifier_eq_ok {field value : String} {u : Unit} :
    validateIdentifier field value = .ok u ↔ ValidIdentifier value := by
  simp [validateIdentifier]

/-- `validate_policy_hash`. -/
def validatePolicyHash (hash : String) : DurabilityResult Unit :=
  refuseIf (isSha256Digest hash = false)
    (.invalidEvent "policy snapshot hash must be a sha256 digest")

/-- `validate_worker_lease_window`. -/
def validateWorkerLeaseWindow (startsAtUnixMs expiresAtUnixMs : Nat) : DurabilityResult Unit :=
  refuseIf (¬ (startsAtUnixMs < expiresAtUnixMs ∧
      expiresAtUnixMs - startsAtUnixMs ≤ maxDurableWorkerLeaseMs))
    (.invalidEvent
      s!"durable worker lease must expire within {maxDurableWorkerLeaseMs}ms after its claim or heartbeat")

/-- `invalid_activity`. -/
def invalidActivity (activityId reason : String) : DurabilityError :=
  .invalidActivityTransition activityId reason

/-- An idempotent activity without a key. -/
def ActivityDefinition.lacksIdempotencyKey (definition : ActivityDefinition) : Bool :=
  definition.sideEffectClass = .idempotent && definition.idempotencyKey.all (· = "")

/-- `retry_is_safe`. -/
def retryIsSafe (definition : ActivityDefinition) (effectAmbiguous : Bool) : Bool :=
  !effectAmbiguous || definition.sideEffectClass = .pure ||
    (definition.sideEffectClass = .idempotent && definition.idempotencyKey.any (· ≠ ""))

end AikitRuntime.Durability
