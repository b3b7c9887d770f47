import AikitRuntime.Durability.ReservedAudit

/-!
# Checkpoints and the projections forked from them

A fork, and a rewind, starts from a checkpoint's projection: reserved audit activities are
stripped, the lease is dropped, the branch is renamed, and the run's status is computed
afresh (`forkProjection`). A checkpoint that arrives in a fork event is not trusted:
`validateSourceCheckpoint` restates what a projection must look like, entry by entry.
-/

namespace AikitRuntime.Durability

open Library

/-- The record's latest attempt awaits reconciliation. -/
def ActivityRecord.awaitsReconciliation (record : ActivityRecord) : Bool :=
  record.latestAttempt.any (·.status = .reconcileRequired)

/-- `has_reconciliation_pending`, of a projection. -/
def RunProjection.hasReconciliationPending (projection : RunProjection) : Bool :=
  projection.activities.values.any ActivityRecord.awaitsReconciliation

/-- One of the four reserved steps. -/
def isReservedStep (stableStepId : String) : Bool :=
  stableStepId = legacyRunStoppedAuditStepId || isV2ReservedStep stableStepId

section
variable [Digest]

/-- The identity of a branch's terminal audit. -/
def terminalActivityId (runId branchId : String) : String :=
  stableIdentifier "activity" [runId, branchId, runStoppedAuditStepId, "terminal"]

/-- What a fork keeps of the activities: neither a reserved step, nor an activity that squats on
the identity of the new branch's terminal audit. -/
def survivesFork (terminalId activityId : String) (record : ActivityRecord) : Bool :=
  !isReservedStep record.definition.stableStepId &&
    !(activityId = terminalId || record.definition.activityId = terminalId)

/-- `fork_projection`. -/
def forkProjection (checkpoint : Checkpoint) (destinationRunId newBranchId : String) :
    RunProjection :=
  let source := checkpoint.projection
  let projection : RunProjection :=
    { source with
      activities := BTreeMap.retain
        (survivesFork (terminalActivityId destinationRunId newBranchId)) source.activities
      workerLease := none
      branchId := newBranchId
      currentCheckpointId := some checkpoint.checkpointId }
  if projection.status = .reconcileRequired ∧ projection.hasReconciliationPending then projection
  else if projection.pendingApprovalIds = [] then
    { projection with status := .running, pauseReason := none }
  else
    { projection with status := .paused, pauseReason := some "fork restored pending approvals" }

/-! ### The checks of an imported checkpoint -/

/-- An attempt's payload is what its status calls for. -/
def ActivityAttempt.payloadMatchesStatus (attempt : ActivityAttempt) : Bool :=
  let terminalShape := attempt.finishedSequence.isSome
  let noOutput := attempt.output.isNone && attempt.outputHash.isNone
  match attempt.status with
  | .running =>
    !terminalShape && noOutput && attempt.error.isNone && !attempt.retryable &&
      !attempt.effectAmbiguous
  | .completed =>
    terminalShape &&
      (attempt.output.any fun output => attempt.outputHash = some (stableInputHash output)) &&
      !attempt.retryable && !attempt.effectAmbiguous
  | .failed => terminalShape && noOutput
  | .reconcileRequired => terminalShape && noOutput && attempt.effectAmbiguous
  | .cancelled => terminalShape && noOutput && !attempt.retryable && !attempt.effectAmbiguous

/-- The checks of one attempt, at its index. -/
def validateAttemptEntry (record : ActivityRecord) (entry : ActivityAttempt × Nat) :
    DurabilityResult Unit := do
  let attempt := entry.1
  let index := entry.2
  refuseIf (2 ^ 32 ≤ index + 1)
    (.invalidEvent "fork checkpoint activity attempt counter overflowed")
  refuseIf (attempt.attempt ≠ index + 1 ∨ attempt.startedSequence = 0)
    (.invalidEvent "fork checkpoint activity attempts are not sequential")
  refuseIf (attempt.finishedSequence.any (· < attempt.startedSequence))
    (.invalidEvent "fork checkpoint activity attempt finishes before it starts")
  refuseIf (attempt.payloadMatchesStatus = false)
    (.invalidEvent "fork checkpoint activity attempt payload contradicts its status")
  refuseIf (index + 1 < record.attempts.length ∧
      (attempt.status ≠ .failed ∨ attempt.retryable = false ∨
        retryIsSafe record.definition attempt.effectAmbiguous = false))
    (.invalidEvent "fork checkpoint activity has an attempt after a terminal outcome")

/-- The checks of one activity. -/
def validateActivityEntry (entry : String × ActivityRecord) : DurabilityResult Unit := do
  let activityId := entry.1
  let definition := entry.2.definition
  refuseIf (activityId ≠ definition.activityId)
    (.invalidEvent "fork checkpoint activity map key does not match its definition identity")
  validateIdentifier "activity_id" activityId
  validateIdentifier "stable_step_id" definition.stableStepId
  validateIdentifier "logical_key" definition.logicalKey
  refuseIf (stableInputHash definition.input ≠ definition.inputHash)
    (.invalidEvent "fork checkpoint activity input hash does not match its input")
  refuseIf definition.lacksIdempotencyKey
    (.invalidEvent "fork checkpoint idempotent activity has no idempotency key")
  firstRefusal (validateAttemptEntry entry.2) entry.2.attempts.zipIdx

/-- The checks of one approval. -/
def validateApprovalEntry (entry : String × DurableApproval) : DurabilityResult Unit := do
  let approvalId := entry.1
  let approval := entry.2
  refuseIf (approvalId ≠ approval.approvalId)
    (.invalidEvent "fork checkpoint approval map key does not match its record identity")
  validateIdentifier "approval_id" approvalId
  refuseIf (approval.requestedSequence = 0 ∨
      (approval.status = .pending ∧ (approval.resolvedSequence.isSome ∨
        approval.resolvedAtUnixMs.isSome ∨ approval.timedOut)) ∨
      (approval.status ≠ .pending ∧ approval.resolvedSequence.isNone))
    (.invalidEvent "fork checkpoint approval lifecycle is inconsistent")

/-- The checks of one artifact version, at its index. -/
def validateVersionEntry (versions : List ArtifactMetadata) (entry : ArtifactMetadata × Nat) :
    DurabilityResult Unit := do
  let metadata := entry.1
  let index := entry.2
  let expectedPrevious := if index = 0 then none else versions[index - 1]?.map (·.versionId)
  refuseIf (metadata.version ≠ index + 1 ∨ metadata.previousVersionId ≠ expectedPrevious)
    (.invalidEvent "fork checkpoint artifact version history is inconsistent")
  validateIdentifier "artifact_version_id" metadata.versionId

/-- The checks of one artifact. -/
def validateArtifactEntry (entry : String × List ArtifactMetadata) : DurabilityResult Unit := do
  let artifactId := entry.1
  let versions := entry.2
  refuseIf (versions.any fun metadata => artifactId ≠ metadata.artifactId)
    (.invalidEvent "fork checkpoint artifact map key does not match its metadata identity")
  validateIdentifier "artifact_id" artifactId
  refuseIf (versions = []) (.invalidEvent "fork checkpoint artifact has an empty version history")
  firstRefusal (validateVersionEntry versions) versions.zipIdx

/-- `validate_projection_keyed_identities`. -/
def validateProjectionKeyedIdentities (projection : RunProjection) : DurabilityResult Unit := do
  firstRefusal validateActivityEntry projection.activities.toList
  firstRefusal validateApprovalEntry projection.approvals.toList
  firstRefusal validateArtifactEntry projection.artifacts.toList

/-- `validate_source_checkpoint`. -/
def validateSourceCheckpoint (destinationRunId sourceRunId : String) (checkpoint : Checkpoint) :
    DurabilityResult Unit := do
  validateIdentifier "checkpoint_id" checkpoint.checkpointId
  validateIdentifier "checkpoint_run_id" checkpoint.runId
  validateIdentifier "checkpoint_branch_id" checkpoint.projection.branchId
  validateProjectionKeyedIdentities checkpoint.projection
  refuseIf (sourceRunId = destinationRunId)
    (.invalidEvent "fork source and destination run IDs must differ")
  refuseIf (checkpoint.runId ≠ sourceRunId)
    (.invalidEvent "fork checkpoint does not belong to its declared source run")
  refuseIf (checkpoint.eventSequence = 0)
    (.invalidEvent "fork checkpoint must reference a persisted source event")

end

end AikitRuntime.Durability
