import AikitRuntime.Durability.Transitions

/-!
# What an event does to a run

`Transition s version sequence kind t` is the state machine as a relation: the event of
that kind is accepted in `s`, and leads to `t`. Each constructor is one arm of
`applyLater`: what the arm requires, stated as a fact about the run, and what it changes.
`applyLater_eq_ok` is the equivalence with the executable state machine, so that every
result below is proved by cases on the relation and none unfolds an arm again.
-/

namespace AikitRuntime.Durability

open Library RunState

/-- Another attempt may follow the record's latest one. -/
def ActivityRecord.MayRetry (record : ActivityRecord) : Prop :=
  ∀ previous, record.latestAttempt = some previous →
    previous.status = .failed ∧ previous.retryable = true ∧
      retryIsSafe record.definition previous.effectAmbiguous = true

/-- An attempt that is running or has failed, which may be quarantined. -/
def ActivityAttempt.Unsettled (attempt : ActivityAttempt) : Prop :=
  attempt.status = .running ∨ attempt.status = .failed

/-- The attempt once it is quarantined. -/
def quarantinedAttempt (found : ActivityAttempt) (sequence : Nat) (reason : String) :
    ActivityAttempt :=
  { found with
    status := .reconcileRequired
    finishedSequence := some sequence
    error := some reason
    effectAmbiguous := true }

/-- The attempt once it is completed. -/
def completedAttempt (found : ActivityAttempt) (sequence : Nat) (output : Value)
    (outputHash : String) : ActivityAttempt :=
  { found with
    status := .completed
    finishedSequence := some sequence
    output := some output
    outputHash := some outputHash }

/-- The attempt once it has failed. -/
def failedAttempt (found : ActivityAttempt) (sequence : Nat) (error : String)
    (retryable effectAmbiguous : Bool) : ActivityAttempt :=
  { found with
    status := .failed
    finishedSequence := some sequence
    error := some error
    retryable
    effectAmbiguous }

/-- The attempt once it is cancelled. -/
def cancelledAttempt (found : ActivityAttempt) (sequence : Nat) (reason : String) :
    ActivityAttempt :=
  { found with
    status := .cancelled
    finishedSequence := some sequence
    error := some reason
    retryable := false
    effectAmbiguous := false }

namespace RunState

variable {s t : RunState}

/-- Only the run's first event is logged, and nothing is pinned. -/
def Unpinned (s : RunState) : Prop :=
  s.events.length = 1 ∧ s.policySnapshotHash = none ∧ s.governanceBinding = none

/-- Some activity of the projection is a terminal marker. -/
def HasTerminalMarker (s : RunState) : Prop := s.projection.activities.values.any isTerminalMarker

/-- No attempt of any activity is running. -/
def NoneRunning (s : RunState) : Prop :=
  ∀ (id : String) (r : ActivityRecord), s.projection.activities[id]? = some r →
    ∀ a ∈ r.attempts, a.status ≠ .running

/-- No approval is pending. -/
def NonePending (s : RunState) : Prop :=
  ∀ (id : String) (p : DurableApproval), s.projection.approvals[id]? = some p →
    p.status ≠ .pending

/-- No activity awaits reconciliation. -/
def NoneAwaiting (s : RunState) : Prop :=
  ∀ (id : String) (r : ActivityRecord), s.projection.activities[id]? = some r →
    r.awaitsReconciliation = false

/-! ### What the checks require -/

variable {u : Unit}

@[simp] theorem ensureActive_eq_ok :
    s.ensureActive = .ok u ↔ s.projection.status.isTerminal = false := by
  simp [ensureActive]

@[simp] theorem ensureExecuting_eq_ok :
    s.ensureExecuting = .ok u ↔ s.projection.status = .running := by
  simp only [ensureExecuting, bind_eq_ok, exists_unit, ensureActive_eq_ok, refuseIf_eq_ok, not_not]
  exact ⟨fun h => h.2.2, fun h => by simp [h, DurableRunStatus.isTerminal]⟩

@[simp] theorem ensureNotReconciling_eq_ok :
    s.ensureNotReconciling = .ok u ↔ s.projection.status ≠ .reconcileRequired := by
  simp [ensureNotReconciling]

variable {id : String}

variable {r : ActivityRecord}

@[simp] theorem activity_eq_ok :
    s.activity id = .ok r ↔ s.projection.activities[id]? = some r := by
  simp [activity]

@[simp] theorem checkpointById_eq_ok {c : Checkpoint} :
    s.checkpointById id = .ok c ↔ s.checkpoints[id]? = some c := by
  simp [checkpointById]

@[simp] theorem ensureUnpinned_eq_ok {reason : String} :
    s.ensureUnpinned reason = .ok u ↔ s.Unpinned := by
  simp [ensureUnpinned, Unpinned, not_or]

theorem pendingApprovalIds_eq_nil : s.projection.pendingApprovalIds = [] ↔ s.NonePending := by
  unfold RunProjection.pendingApprovalIds NonePending
  rw [List.map_eq_nil_iff, List.filter_eq_nil_iff]
  constructor
  · intro h id p hp
    simpa using h p (BTreeMap.mem_values.mpr ⟨id, hp⟩)
  · intro h p hp
    obtain ⟨id, hp⟩ := BTreeMap.mem_values.mp hp
    simpa using h id p hp

@[simp] theorem ensureNoPendingApprovals_eq_ok :
    s.ensureNoPendingApprovals = .ok u ↔ s.NonePending := by
  simp [ensureNoPendingApprovals, pendingApprovalIds_eq_nil]

theorem hasReconciliationPending_eq_false :
    s.projection.hasReconciliationPending = false ↔ s.NoneAwaiting := by
  unfold RunProjection.hasReconciliationPending NoneAwaiting
  rw [← Bool.not_eq_true, BTreeMap.any_values]
  exact ⟨fun h id r hr => by simpa using fun hw => h ⟨id, r, hr, hw⟩,
    fun h ⟨id, r, hr, hw⟩ => by simp [h id r hr] at hw⟩

@[simp] theorem ensureNoReconciliationPending_eq_ok :
    s.ensureNoReconciliationPending = .ok u ↔ s.NoneAwaiting := by
  simp [ensureNoReconciliationPending, hasReconciliationPending_eq_false]

@[simp] theorem ensureNoRunningActivities_eq_ok {transition : String} :
    s.ensureNoRunningActivities transition = .ok u ↔ s.NoneRunning := by
  simp only [ensureNoRunningActivities, refuseIf_eq_ok, not_not, List.map_eq_nil_iff,
    List.filter_eq_nil_iff, List.any_eq_true, decide_eq_true_eq, not_exists, not_and, NoneRunning]
  exact ⟨fun h id r hr => h r (BTreeMap.mem_values.mpr ⟨id, hr⟩), fun h r hr =>
    have ⟨id, hid⟩ := BTreeMap.mem_values.mp hr
    h id r hid⟩

@[simp] theorem checkRetry_eq_ok :
    checkRetry id r = .ok u ↔ r.MayRetry := by
  unfold checkRetry ActivityRecord.MayRetry
  cases r.latestAttempt with
  | none => simp
  | some previous => simp [not_or, and_assoc]

@[simp] theorem ensureLeaseFree_eq_ok {claimedAt : Nat} :
    s.ensureLeaseFree claimedAt = .ok u ↔
      ∀ lease, s.projection.workerLease = some lease → lease.expiresAtUnixMs ≤ claimedAt := by
  unfold ensureLeaseFree
  cases s.projection.workerLease <;> simp

theorem settleAttempt_eq_ok {attempt : Nat}
    {settle : ActivityAttempt → ActivityAttempt} :
    s.settleAttempt id attempt settle = .ok t ↔
      ∃ r found, s.projection.activities[id]? = some r ∧ r.findAttempt attempt = some found ∧
        found.status = .running ∧ t = s.withActivity id (r.setAttempt attempt (settle found)) := by
  simp only [settleAttempt, bind_eq_ok, exists_unit, activity_eq_ok, okOr_eq_ok, refuseIf_eq_ok,
    not_not, pure, Except.pure, Except.ok.injEq]
  constructor
  · rintro ⟨r, hr, found, hf, hrun, ht⟩
    exact ⟨r, found, hr, hf, hrun, ht.symm⟩
  · rintro ⟨r, found, hr, hf, hrun, ht⟩
    exact ⟨r, hr, found, hf, hrun, ht.symm⟩

/-- A reserved activity's failure is refused from version 2 on. -/
theorem checkV2Failure_eq_ok :
    s.checkV2Failure id = .ok u ↔
      ∃ r, s.projection.activities[id]? = some r ∧ isReservedAuditActivity r = false := by
  simp [checkV2Failure]

section
variable [Digest]

@[simp] theorem checkBinding_eq_ok {title : String} {b : GovernanceBinding} :
    checkBinding title b = .ok u ↔ b.validate = .ok () := by
  unfold checkBinding
  cases b.validate with
  | ok _ => simp
  | error _ => simp

/-! ### The relation -/

/-- In `s`, an event of a kind is accepted under a version and a sequence, and leads to `t`. -/
inductive Transition (s : RunState) (version sequence : Nat) : RunEventKind → RunState → Prop where
  /-- The policy is pinned by its hash. -/
  | policySnapshotPinned {hash : String} (hunpinned : s.Unpinned)
      (hhash : validatePolicyHash hash = .ok ()) :
      Transition s version sequence (.policySnapshotPinned hash)
        { s with policySnapshotHash := some hash }
  /-- The policy is pinned by its binding. -/
  | governanceBindingPinned {binding : GovernanceBinding} (hunpinned : s.Unpinned)
      (hvalid : binding.validate = .ok ()) (hrun : binding.runId = s.runId) :
      Transition s version sequence (.governanceBindingPinned binding)
        { s with
          policySnapshotHash := some binding.policySnapshotHash
          governanceBinding := some binding }
  /-- The application state is replaced. -/
  | stateReplaced {state : Value} (hrunning : s.projection.status = .running) :
      Transition s version sequence (.stateReplaced state)
        { s with projection := { s.projection with state } }
  /-- A lease is claimed that nobody holds at the time. -/
  | workerLeaseClaimed {ownerId leaseId : String} {claimedAt expiresAt : Nat}
      (hcheck : checkLeaseEvent version ownerId leaseId = .ok ())
      (hwindow : validateWorkerLeaseWindow claimedAt expiresAt = .ok ())
      (hfree : ∀ lease, s.projection.workerLease = some lease →
        lease.expiresAtUnixMs ≤ claimedAt) :
      Transition s version sequence (.workerLeaseClaimed ownerId leaseId claimedAt expiresAt)
        (s.withLease (some ⟨ownerId, leaseId, claimedAt, claimedAt, expiresAt⟩))
  /-- The holder prolongs its lease. -/
  | workerLeaseRenewed {ownerId leaseId : String} {renewedAt expiresAt : Nat}
      {existing : DurableWorkerLease} (hcheck : checkLeaseEvent version ownerId leaseId = .ok ())
      (hwindow : validateWorkerLeaseWindow renewedAt expiresAt = .ok ())
      (hlease : s.projection.workerLease = some existing) (howner : existing.ownerId = ownerId)
      (hid : existing.leaseId = leaseId) (hlive : renewedAt < existing.expiresAtUnixMs)
      (hheartbeat : existing.heartbeatAtUnixMs ≤ renewedAt)
      (hlonger : existing.expiresAtUnixMs < expiresAt) :
      Transition s version sequence (.workerLeaseRenewed ownerId leaseId renewedAt expiresAt)
        (s.withLease (some
          { existing with heartbeatAtUnixMs := renewedAt, expiresAtUnixMs := expiresAt }))
  /-- The holder gives its lease up. -/
  | workerLeaseReleased {ownerId leaseId : String} {releasedAt : Nat}
      {existing : DurableWorkerLease} (hcheck : checkLeaseEvent version ownerId leaseId = .ok ())
      (hlease : s.projection.workerLease = some existing) (howner : existing.ownerId = ownerId)
      (hid : existing.leaseId = leaseId) (hlive : releasedAt < existing.expiresAtUnixMs)
      (hheartbeat : existing.heartbeatAtUnixMs ≤ releasedAt) :
      Transition s version sequence (.workerLeaseReleased ownerId leaseId releasedAt)
        (s.withLease none)
  /-- An activity is scheduled. -/
  | activityScheduled {definition : ActivityDefinition}
      (hrunning : s.projection.status = .running)
      (hhash : stableInputHash definition.input = definition.inputHash)
      (hkey : definition.lacksIdempotencyKey = false)
      (hfresh : s.projection.activities[definition.activityId]? = none)
      (hcheck : s.checkSchedule version definition = .ok ()) :
      Transition s version sequence (.activityScheduled definition)
        (s.withActivity definition.activityId { definition, attempts := [] })
  /-- An attempt is started. -/
  | activityAttemptStarted {id : String} {record : ActivityRecord}
      (hrunning : s.projection.status = .running)
      (hcheck : beforeV2 version = true ∨ s.checkV2Start id = .ok ())
      (hget : s.projection.activities[id]? = some record) (hretry : record.MayRetry) :
      Transition s version sequence (.activityAttemptStarted id record.nextAttempt)
        (s.withActivity id (record.pushAttempt (startedAttempt record.nextAttempt sequence)))
  /-- A running attempt completes. -/
  | activityAttemptCompleted {id : String} {attempt : Nat} {output : Value}
      {record : ActivityRecord} {found : ActivityAttempt}
      (hactive : s.projection.status.isTerminal = false)
      (hcheck : beforeV2 version = true ∨ s.checkV2Completion id output = .ok ())
      (hget : s.projection.activities[id]? = some record)
      (hfind : record.findAttempt attempt = some found) (hstatus : found.status = .running) :
      Transition s version sequence
        (.activityAttemptCompleted id attempt output (stableInputHash output))
        (s.withActivity id (record.setAttempt attempt
          (completedAttempt found sequence output (stableInputHash output))))
  /-- A running attempt fails. -/
  | activityAttemptFailed {id : String} {attempt : Nat} {error : String}
      {retryable effectAmbiguous : Bool} {record : ActivityRecord} {found : ActivityAttempt}
      (hactive : s.projection.status.isTerminal = false)
      (hcheck : beforeV2 version = true ∨ isReservedAuditActivity record = false)
      (hget : s.projection.activities[id]? = some record)
      (hfind : record.findAttempt attempt = some found) (hstatus : found.status = .running) :
      Transition s version sequence
        (.activityAttemptFailed id attempt error retryable effectAmbiguous)
        (s.withActivity id (record.setAttempt attempt
          (failedAttempt found sequence error retryable effectAmbiguous)))
  /-- A running attempt is cancelled. -/
  | activityAttemptCancelled {id : String} {attempt : Nat} {reason : String}
      {record : ActivityRecord} {found : ActivityAttempt}
      (hactive : s.projection.status.isTerminal = false)
      (hversion : activityAttemptCancelledSchemaVersion ≤ version)
      (hget : s.projection.activities[id]? = some record)
      (hreserved : isReservedAuditActivity record = false)
      (hfind : record.findAttempt attempt = some found) (hstatus : found.status = .running) :
      Transition s version sequence (.activityAttemptCancelled id attempt reason)
        (s.withActivity id (record.setAttempt attempt (cancelledAttempt found sequence reason)))
  /-- A reserved activity that never started is quarantined. -/
  | activityOrphaned {id reason : String} {record : ActivityRecord} {migration : Bool}
      (hmigration : (s.isTerminalLegacyOrphan version id 1 ||
        s.isTerminalLegacyRunning version id 1) = migration)
      (hactive : migration = true ∨ s.projection.status.isTerminal = false)
      (hget : s.projection.activities[id]? = some record) (hempty : record.attempts = [])
      (hversion : beforeV2 version = false) (hreserved : isReservedAuditActivity record = true) :
      Transition s version sequence (.activityReconciliationRequired id 1 reason)
        (let t := s.withActivity id (record.pushAttempt (orphanAttempt 1 sequence reason))
        if migration then t else t.withStatus .reconcileRequired (some reason))
  /-- A running or failed attempt is quarantined. -/
  | activityQuarantined {id : String} {attempt : Nat} {reason : String} {record : ActivityRecord}
      {found : ActivityAttempt} {migration : Bool}
      (hmigration : (s.isTerminalLegacyOrphan version id attempt ||
        s.isTerminalLegacyRunning version id attempt) = migration)
      (hactive : migration = true ∨ s.projection.status.isTerminal = false)
      (hget : s.projection.activities[id]? = some record)
      (hfind : record.findAttempt attempt = some found) (hstatus : found.Unsettled) :
      Transition s version sequence (.activityReconciliationRequired id attempt reason)
        (let t := s.withActivity id
          (record.setAttempt attempt (quarantinedAttempt found sequence reason))
        if migration then t else t.withStatus .reconcileRequired (some reason))
  /-- An attempt is reconciled. -/
  | activityReconciled {id : String} {attempt : Nat} {resolution : ActivityReconciliation}
      {record : ActivityRecord} {found : ActivityAttempt}
      (hget : s.projection.activities[id]? = some record)
      (hcheck : beforeV2 version = true ∨
        validateReservedAuditReconciliation s.runId s.projection.activities record resolution
          (s.lifecycleScheduleSequence id record) = .ok ())
      (hattest : s.isTerminalLegacyAttestation record resolution = false ∨
        s.checkAttestation resolution = .ok ())
      (hfind : record.findAttempt attempt = some found)
      (hstatus : found.status = .reconcileRequired ∨
        s.isTerminalLegacyAttestation record resolution = true) :
      Transition s version sequence (.activityReconciled id attempt resolution)
        (let t := s.withActivity id
          (record.setAttempt attempt (resolveAttempt sequence found resolution))
        if s.projection.status.isTerminal = false ∧ t.projection.hasReconciliationPending = false
        then t.withStatus .paused (some "reconciliation completed") else t)
  /-- An approval is requested, under the run's own policy. -/
  | approvalRequested {approvalId logicalKey : String} {activityId : Option String}
      {prompt : String} {payload : Value} {decoded : DecodedApprovalPayload}
      (hactive : s.projection.status.isTerminal = false)
      (hreconciling : s.projection.status ≠ .reconcileRequired)
      (hfresh : s.projection.approvals[approvalId]? = none)
      (hdecoded : decodeApprovalPayload payload version = .ok decoded)
      (hpolicy : checkPolicyHash decoded.policySnapshotHash = .ok ())
      (hhash : decoded.policySnapshotHash = s.policySnapshotHash)
      (hbinding : decoded.governanceBinding = s.governanceBinding)
      (hidentity : s.checkApprovalBinding decoded.policySnapshotHash decoded.governanceBinding =
        .ok ()) :
      Transition s version sequence
        (.approvalRequested approvalId logicalKey activityId prompt payload)
        ((s.withApproval approvalId
          (requestedApproval sequence approvalId logicalKey activityId prompt decoded)).withStatus
            .paused (some s!"approval `{approvalId}` required"))
  /-- A pending approval is resolved. -/
  | approvalResolved {approvalId : String} {approved : Bool} {response : Option Value}
      {approval : DurableApproval} {decoded : DecodedResolutionPayload}
      (hget : s.projection.approvals[approvalId]? = some approval)
      (hpending : approval.status = .pending)
      (hdecoded : decodeResolutionPayload approval approved response version = .ok decoded) :
      Transition s version sequence (.approvalResolved approvalId approved response)
        (s.withApproval approvalId
          { approval with
            status := if approved then .approved else .rejected
            response := decoded.response
            resolvedAtUnixMs := decoded.resolvedAtUnixMs
            timedOut := decoded.timedOut
            resolvedSequence := some sequence })
  /-- The next version of an artifact is published. -/
  | artifactPublished {metadata : ArtifactMetadata} {versions : List ArtifactMetadata}
      (hactive : s.projection.status.isTerminal = false)
      (hversions : versions = s.projection.artifacts[metadata.artifactId]?.getD [])
      (hversion : metadata.version = (versions.getLast?.map (·.version + 1)).getD 1)
      (hprevious : metadata.previousVersionId = versions.getLast?.map (·.versionId)) :
      Transition s version sequence (.artifactPublished metadata)
        { s with projection := { s.projection with
          artifacts := s.projection.artifacts.insert metadata.artifactId
            (versions ++ [metadata]) } }
  /-- A checkpoint is taken. -/
  | checkpointCommitted {checkpointId : String} {label : Option String}
      (hactive : s.projection.status.isTerminal = false)
      (hfresh : s.checkpoints[checkpointId]? = none) :
      Transition s version sequence (.checkpointCommitted checkpointId label)
        { s with
          checkpoints := s.checkpoints.insert checkpointId
            ⟨checkpointId, s.runId, sequence, s.projection.currentCheckpointId, label,
              s.projection⟩
          projection := { s.projection with currentCheckpointId := some checkpointId } }
  /-- The run is paused. -/
  | runPaused {reason : String} (hactive : s.projection.status.isTerminal = false)
      (hreconciling : s.projection.status ≠ .reconcileRequired) :
      Transition s version sequence (.runPaused reason) (s.withStatus .paused (some reason))
  /-- A paused run with nothing open is resumed. -/
  | runResumed (hpaused : s.projection.status = .paused) (hpending : s.NonePending)
      (hawaiting : s.NoneAwaiting) :
      Transition s version sequence .runResumed (s.withStatus .running none)
  /-- A fork is recorded; the run itself is as before. -/
  | forkCreated {newRunId checkpointId newBranchId : String} {sideEffectsReconciled : Bool}
      {stored checkpoint : Checkpoint} (hactive : s.projection.status.isTerminal = false)
      (hrun : ValidIdentifier newRunId) (hstored : s.checkpoints[checkpointId]? = some stored)
      (hcheckpoint : s.checkpointForCurrentRun stored = .ok checkpoint)
      (hreconciled : s.requireReconciledAfter checkpoint.eventSequence sideEffectsReconciled =
        .ok ()) :
      Transition s version sequence
        (.forkCreated newRunId checkpointId newBranchId sideEffectsReconciled) s
  /-- The run goes back to a checkpoint, on a new branch. -/
  | runRewound {checkpointId newBranchId : String} {sideEffectsReconciled : Bool}
      {stored checkpoint : Checkpoint} (hactive : s.projection.status.isTerminal = false)
      (hstored : s.checkpoints[checkpointId]? = some stored)
      (hcheckpoint : s.checkpointForCurrentRun stored = .ok checkpoint)
      (hreconciled : s.requireReconciledAfter checkpoint.eventSequence sideEffectsReconciled =
        .ok ()) :
      Transition s version sequence (.runRewound checkpointId newBranchId sideEffectsReconciled)
        { s with projection :=
          { forkProjection checkpoint s.runId newBranchId with
            status := .paused
            pauseReason := some s!"rewound to `{checkpointId}`" } }
  /-- A run with nothing open completes. -/
  | runCompleted (hactive : s.projection.status.isTerminal = false)
      (hclosed : beforeV2 version = true ∨ s.ensureReservedAuditLifecycleClosed = .ok ())
      (hpending : s.NonePending) (hawaiting : s.NoneAwaiting) (hnone : s.NoneRunning) :
      Transition s version sequence .runCompleted (s.withStatus .completed none)
  /-- The run fails. -/
  | runFailed {error : String} (hactive : s.projection.status.isTerminal = false)
      (hstop : beforeV2 version = true ∨
        s.ensureReservedAuditLifecycleClosed = .ok () ∧ s.NoneRunning) :
      Transition s version sequence (.runFailed error) (s.withStatus .failed (some error))
  /-- The run is cancelled. -/
  | runCancelled {reason : Option String} (hactive : s.projection.status.isTerminal = false)
      (hstop : beforeV2 version = true ∨
        s.ensureReservedAuditLifecycleClosed = .ok () ∧ s.NoneRunning) :
      Transition s version sequence (.runCancelled reason) (s.withStatus .cancelled reason)

/-! ### The relation is the state machine -/

@[simp] theorem checkV2Stop_eq_ok {transition : String} :
    s.checkV2Stop transition = .ok u ↔
      s.ensureReservedAuditLifecycleClosed = .ok () ∧ s.NoneRunning := by
  simp [checkV2Stop]

variable {kind : RunEventKind} {sequence version : Nat}

theorem Transition.of_applyLater
    (h : s.applyLater version sequence kind = .ok t) : Transition s version sequence kind t := by
  cases kind with
  | runStarted => cases h
  | forkedFrom => cases h
  | policySnapshotPinned hash =>
    simp only [applyLater, applyPolicySnapshotPinned, bind_eq_ok, exists_unit,
      ensureUnpinned_eq_ok, pure, Except.pure, Except.ok.injEq] at h
    obtain ⟨hunpinned, hhash, rfl⟩ := h
    exact .policySnapshotPinned hunpinned hhash
  | governanceBindingPinned binding =>
    simp only [applyLater, applyGovernanceBindingPinned, bind_eq_ok, exists_unit,
      ensureUnpinned_eq_ok, checkBinding_eq_ok, refuseIf_eq_ok, not_not, pure, Except.pure,
      Except.ok.injEq] at h
    obtain ⟨hunpinned, hvalid, hrun, rfl⟩ := h
    exact .governanceBindingPinned hunpinned hvalid hrun
  | stateReplaced state =>
    simp only [applyLater, applyStateReplaced, bind_eq_ok, exists_unit, ensureExecuting_eq_ok,
      pure, Except.pure, Except.ok.injEq] at h
    obtain ⟨hrunning, rfl⟩ := h
    exact .stateReplaced hrunning
  | workerLeaseClaimed ownerId leaseId claimedAt expiresAt =>
    simp only [applyLater, applyWorkerLeaseClaimed, bind_eq_ok, exists_unit,
      ensureLeaseFree_eq_ok, pure, Except.pure, Except.ok.injEq] at h
    obtain ⟨hcheck, hwindow, hfree, rfl⟩ := h
    exact .workerLeaseClaimed hcheck hwindow hfree
  | workerLeaseRenewed ownerId leaseId renewedAt expiresAt =>
    simp only [applyLater, applyWorkerLeaseRenewed, bind_eq_ok, exists_unit, okOr_eq_ok,
      refuseIf_eq_ok, not_or, not_not, Nat.not_le, Nat.not_lt, pure, Except.pure, Except.ok.injEq] at h
    obtain ⟨hcheck, hwindow, existing, hlease, ⟨howner, hid, hlive, hbeat, hlonger⟩, rfl⟩ := h
    exact .workerLeaseRenewed hcheck hwindow hlease howner hid hlive hbeat hlonger
  | workerLeaseReleased ownerId leaseId releasedAt =>
    simp only [applyLater, applyWorkerLeaseReleased, bind_eq_ok, exists_unit, okOr_eq_ok,
      refuseIf_eq_ok, not_or, not_not, Nat.not_le, Nat.not_lt, pure, Except.pure, Except.ok.injEq] at h
    obtain ⟨hcheck, existing, hlease, ⟨howner, hid, hlive, hbeat⟩, rfl⟩ := h
    exact .workerLeaseReleased hcheck hlease howner hid hlive hbeat
  | activityScheduled definition =>
    simp only [applyLater, applyActivityScheduled, bind_eq_ok, exists_unit, ensureExecuting_eq_ok,
      refuseIf_eq_ok, not_not, Bool.not_eq_true, BTreeMap.contains_eq_false, pure, Except.pure,
      Except.ok.injEq] at h
    obtain ⟨hrunning, hhash, hkey, hfresh, hcheck, rfl⟩ := h
    exact .activityScheduled hrunning hhash hkey hfresh hcheck
  | activityAttemptStarted id attempt =>
    simp only [applyLater, applyActivityAttemptStarted, bind_eq_ok, exists_unit,
      ensureExecuting_eq_ok, skipIf_eq_ok, activity_eq_ok, refuseIf_eq_ok, not_not,
      checkRetry_eq_ok, pure, Except.pure, Except.ok.injEq] at h
    obtain ⟨hrunning, hcheck, record, hget, rfl, hretry, rfl⟩ := h
    exact .activityAttemptStarted hrunning hcheck hget hretry
  | activityAttemptCompleted id attempt output outputHash =>
    simp only [applyLater, applyActivityAttemptCompleted, bind_eq_ok, exists_unit,
      ensureActive_eq_ok, skipIf_eq_ok, refuseIf_eq_ok, not_not, settleAttempt_eq_ok] at h
    obtain ⟨hactive, rfl, hcheck, record, found, hget, hfind, hstatus, rfl⟩ := h
    exact .activityAttemptCompleted hactive hcheck hget hfind hstatus
  | activityAttemptFailed id attempt error retryable effectAmbiguous =>
    simp only [applyLater, applyActivityAttemptFailed, bind_eq_ok, exists_unit,
      ensureActive_eq_ok, skipIf_eq_ok, checkV2Failure_eq_ok, settleAttempt_eq_ok] at h
    obtain ⟨hactive, hcheck, record, found, hget, hfind, hstatus, rfl⟩ := h
    refine .activityAttemptFailed hactive (hcheck.imp_right ?_) hget hfind hstatus
    rintro ⟨r, hr, hreserved⟩
    rw [hget] at hr
    cases hr
    exact hreserved
  | activityAttemptCancelled id attempt reason =>
    simp only [applyLater, applyActivityAttemptCancelled, bind_eq_ok, exists_unit,
      ensureActive_eq_ok, refuseIf_eq_ok, Nat.not_lt, activity_eq_ok, settleAttempt_eq_ok,
      Bool.not_eq_true] at h
    obtain ⟨hactive, hversion, r, hr, hreserved, record, found, hget, hfind, hstatus, rfl⟩ := h
    rw [hget] at hr
    cases hr
    exact .activityAttemptCancelled hactive hversion hget hreserved hfind hstatus
  | activityReconciliationRequired id attempt reason =>
    simp only [applyLater, applyActivityReconciliationRequired, bind_eq_ok, exists_unit,
      skipIf_eq_ok, ensureActive_eq_ok, activity_eq_ok, pure, Except.pure, Except.ok.injEq] at h
    obtain ⟨hactive, record, hget, quarantined, hquarantine, rfl⟩ := h
    unfold quarantineAttempt at hquarantine
    split at hquarantine
    · next hempty =>
      simp only [bind_eq_ok, exists_unit, refuseIf_eq_ok, not_or, not_not, Bool.not_eq_true,
        Bool.not_eq_false, pure, Except.pure, Except.ok.injEq] at hquarantine
      obtain ⟨⟨hversion, rfl, hreserved⟩, rfl⟩ := hquarantine
      exact .activityOrphaned rfl hactive hget hempty hversion hreserved
    · next hsome =>
      simp only [bind_eq_ok, exists_unit, okOr_eq_ok, refuseIf_eq_ok, not_not, pure, Except.pure,
        Except.ok.injEq] at hquarantine
      obtain ⟨found, hfind, hstatus, rfl⟩ := hquarantine
      exact .activityQuarantined rfl hactive hget hfind hstatus
  | activityReconciled id attempt resolution =>
    simp only [applyLater, applyActivityReconciled, bind_eq_ok, exists_unit, skipIf_eq_ok,
      activity_eq_ok, okOr_eq_ok, refuseIf_eq_ok, not_and_or, not_not, Bool.not_eq_false, pure,
      Except.pure, Except.ok.injEq] at h
    obtain ⟨record, hget, hcheck, hattest, found, hfind, hstatus, rfl⟩ := h
    exact .activityReconciled hget hcheck hattest hfind hstatus
  | approvalRequested approvalId logicalKey activityId prompt payload =>
    simp only [applyLater, applyApprovalRequested, bind_eq_ok, exists_unit, ensureActive_eq_ok,
      ensureNotReconciling_eq_ok, refuseIf_eq_ok, not_not, Bool.not_eq_true,
      BTreeMap.contains_eq_false, pure, Except.pure, Except.ok.injEq] at h
    obtain ⟨hactive, hrec, hfresh, decoded, hdecoded, hpolicy, hhash, hbinding, hid, rfl⟩ := h
    exact .approvalRequested hactive hrec hfresh hdecoded hpolicy hhash hbinding hid
  | approvalResolved approvalId approved response =>
    simp only [applyLater, applyApprovalResolved, bind_eq_ok, exists_unit, okOr_eq_ok,
      refuseIf_eq_ok, not_not, pure, Except.pure, Except.ok.injEq] at h
    obtain ⟨approval, hget, hpending, decoded, hdecoded, rfl⟩ := h
    exact .approvalResolved hget hpending hdecoded
  | artifactPublished metadata =>
    simp only [applyLater, applyArtifactPublished, bind_eq_ok, exists_unit, ensureActive_eq_ok,
      refuseIf_eq_ok, not_not, pure, Except.pure, Except.ok.injEq] at h
    obtain ⟨hactive, hversion, hprevious, rfl⟩ := h
    exact .artifactPublished hactive rfl hversion hprevious
  | checkpointCommitted checkpointId label =>
    simp only [applyLater, applyCheckpointCommitted, bind_eq_ok, exists_unit, ensureActive_eq_ok,
      refuseIf_eq_ok, Bool.not_eq_true, BTreeMap.contains_eq_false, pure, Except.pure,
      Except.ok.injEq] at h
    obtain ⟨hactive, hfresh, rfl⟩ := h
    exact .checkpointCommitted hactive hfresh
  | runPaused reason =>
    simp only [applyLater, applyRunPaused, bind_eq_ok, exists_unit, ensureActive_eq_ok,
      ensureNotReconciling_eq_ok, pure, Except.pure, Except.ok.injEq] at h
    obtain ⟨hactive, hreconciling, rfl⟩ := h
    exact .runPaused hactive hreconciling
  | runResumed =>
    simp only [applyLater, applyRunResumed, bind_eq_ok, exists_unit, refuseIf_eq_ok, not_not,
      ensureNoPendingApprovals_eq_ok, ensureNoReconciliationPending_eq_ok, pure, Except.pure,
      Except.ok.injEq] at h
    obtain ⟨hpaused, hpending, hawaiting, rfl⟩ := h
    exact .runResumed hpaused hpending hawaiting
  | forkCreated newRunId checkpointId newBranchId reconciled =>
    simp only [applyLater, applyForkCreated, bind_eq_ok, exists_unit, ensureActive_eq_ok,
      validateIdentifier_eq_ok, checkpointById_eq_ok, pure, Except.pure, Except.ok.injEq] at h
    obtain ⟨hactive, hrun, stored, hstored, checkpoint, hcheckpoint, hreconciled, rfl⟩ := h
    exact .forkCreated hactive hrun hstored hcheckpoint hreconciled
  | runRewound checkpointId newBranchId reconciled =>
    simp only [applyLater, applyRunRewound, bind_eq_ok, exists_unit, ensureActive_eq_ok,
      checkpointById_eq_ok, pure, Except.pure, Except.ok.injEq] at h
    obtain ⟨hactive, stored, hstored, checkpoint, hcheckpoint, hreconciled, rfl⟩ := h
    exact .runRewound hactive hstored hcheckpoint hreconciled
  | runCompleted =>
    simp only [applyLater, applyRunCompleted, bind_eq_ok, exists_unit, ensureActive_eq_ok,
      skipIf_eq_ok, ensureNoPendingApprovals_eq_ok, ensureNoReconciliationPending_eq_ok,
      ensureNoRunningActivities_eq_ok, pure, Except.pure, Except.ok.injEq] at h
    obtain ⟨hactive, hclosed, hpending, hawaiting, hnone, rfl⟩ := h
    exact .runCompleted hactive hclosed hpending hawaiting hnone
  | runFailed error =>
    simp only [applyLater, applyRunFailed, bind_eq_ok, exists_unit, ensureActive_eq_ok,
      skipIf_eq_ok, checkV2Stop_eq_ok, pure, Except.pure, Except.ok.injEq] at h
    obtain ⟨hactive, hstop, rfl⟩ := h
    exact .runFailed hactive hstop
  | runCancelled reason =>
    simp only [applyLater, applyRunCancelled, bind_eq_ok, exists_unit, ensureActive_eq_ok,
      skipIf_eq_ok, checkV2Stop_eq_ok, pure, Except.pure, Except.ok.injEq] at h
    obtain ⟨hactive, hstop, rfl⟩ := h
    exact .runCancelled hactive hstop

theorem Transition.applyLater
    (h : Transition s version sequence kind t) : s.applyLater version sequence kind = .ok t := by
  cases h with
  | policySnapshotPinned hunpinned hhash =>
    simp only [applyLater, applyPolicySnapshotPinned, bind_eq_ok, exists_unit,
      ensureUnpinned_eq_ok, pure, Except.pure]
    exact ⟨hunpinned, hhash, trivial⟩
  | governanceBindingPinned hunpinned hvalid hrun =>
    simp only [applyLater, applyGovernanceBindingPinned, bind_eq_ok, exists_unit,
      ensureUnpinned_eq_ok, checkBinding_eq_ok, refuseIf_eq_ok, not_not, pure, Except.pure]
    exact ⟨hunpinned, hvalid, hrun, trivial⟩
  | stateReplaced hrunning =>
    simp only [applyLater, applyStateReplaced, bind_eq_ok, exists_unit,
      ensureExecuting_eq_ok, pure, Except.pure]
    exact ⟨hrunning, trivial⟩
  | workerLeaseClaimed hcheck hwindow hfree =>
    simp only [applyLater, applyWorkerLeaseClaimed, bind_eq_ok, exists_unit,
      ensureLeaseFree_eq_ok, pure, Except.pure]
    exact ⟨hcheck, hwindow, hfree, trivial⟩
  | workerLeaseRenewed hcheck hwindow hlease howner hid hlive hbeat hlonger =>
    simp only [applyLater, applyWorkerLeaseRenewed, bind_eq_ok, exists_unit, okOr_eq_ok,
      refuseIf_eq_ok, not_or, not_not, Nat.not_le, Nat.not_lt, pure, Except.pure]
    exact ⟨hcheck, hwindow, _, hlease, ⟨howner, hid, hlive, hbeat, hlonger⟩, rfl⟩
  | workerLeaseReleased hcheck hlease howner hid hlive hbeat =>
    simp only [applyLater, applyWorkerLeaseReleased, bind_eq_ok, exists_unit, okOr_eq_ok,
      refuseIf_eq_ok, not_or, not_not, Nat.not_le, Nat.not_lt, pure, Except.pure]
    exact ⟨hcheck, _, hlease, ⟨howner, hid, hlive, hbeat⟩, trivial⟩
  | activityScheduled hrunning hhash hkey hfresh hcheck =>
    simp only [applyLater, applyActivityScheduled, bind_eq_ok, exists_unit,
      ensureExecuting_eq_ok, refuseIf_eq_ok, not_not, Bool.not_eq_true,
      BTreeMap.contains_eq_false, pure, Except.pure]
    exact ⟨hrunning, hhash, hkey, hfresh, hcheck, trivial⟩
  | activityAttemptStarted hrunning hcheck hget hretry =>
    simp only [applyLater, applyActivityAttemptStarted, bind_eq_ok, exists_unit,
      ensureExecuting_eq_ok, skipIf_eq_ok, activity_eq_ok, refuseIf_eq_ok, not_not,
      checkRetry_eq_ok, pure, Except.pure]
    exact ⟨hrunning, hcheck, _, hget, rfl, hretry, rfl⟩
  | activityAttemptCompleted hactive hcheck hget hfind hstatus =>
    simp only [applyLater, applyActivityAttemptCompleted, bind_eq_ok, exists_unit,
      ensureActive_eq_ok, skipIf_eq_ok, refuseIf_eq_ok, not_not, settleAttempt_eq_ok]
    exact ⟨hactive, trivial, hcheck, _, _, hget, hfind, hstatus, rfl⟩
  | activityAttemptFailed hactive hcheck hget hfind hstatus =>
    simp only [applyLater, applyActivityAttemptFailed, bind_eq_ok, exists_unit,
      ensureActive_eq_ok, skipIf_eq_ok, checkV2Failure_eq_ok, settleAttempt_eq_ok]
    exact ⟨hactive, hcheck.imp_right fun hr => ⟨_, hget, hr⟩, _, _, hget, hfind, hstatus, rfl⟩
  | activityAttemptCancelled hactive hversion hget hreserved hfind hstatus =>
    simp only [applyLater, applyActivityAttemptCancelled, bind_eq_ok, exists_unit,
      ensureActive_eq_ok, refuseIf_eq_ok, Nat.not_lt, activity_eq_ok, settleAttempt_eq_ok,
      Bool.not_eq_true]
    exact ⟨hactive, hversion, _, hget, hreserved, _, _, hget, hfind, hstatus, rfl⟩
  | activityOrphaned hmigration hactive hget hempty hversion hreserved =>
    subst hmigration
    simp only [applyLater, applyActivityReconciliationRequired, bind_eq_ok, exists_unit,
      skipIf_eq_ok, ensureActive_eq_ok, activity_eq_ok, pure, Except.pure, Except.ok.injEq]
    refine ⟨hactive, _, hget, _, ?_, rfl⟩
    unfold quarantineAttempt
    rw [if_pos hempty]
    simp only [bind_eq_ok, exists_unit, refuseIf_eq_ok, not_or, not_not, Bool.not_eq_true,
      Bool.not_eq_false, pure, Except.pure]
    exact ⟨⟨hversion, trivial, hreserved⟩, trivial⟩
  | @activityQuarantined _ _ _ record _ _ hmigration hactive hget hfind hstatus =>
    subst hmigration
    simp only [applyLater, applyActivityReconciliationRequired, bind_eq_ok, exists_unit,
      skipIf_eq_ok, ensureActive_eq_ok, activity_eq_ok, pure, Except.pure, Except.ok.injEq]
    refine ⟨hactive, _, hget, _, ?_, rfl⟩
    have hsome : record.attempts ≠ [] := by
      rintro hnil
      rw [ActivityRecord.findAttempt, hnil] at hfind
      cases hfind
    unfold quarantineAttempt
    rw [if_neg hsome]
    simp only [bind_eq_ok, exists_unit, okOr_eq_ok, refuseIf_eq_ok, not_not, pure, Except.pure]
    exact ⟨_, hfind, hstatus, rfl⟩
  | activityReconciled hget hcheck hattest hfind hstatus =>
    simp only [applyLater, applyActivityReconciled, bind_eq_ok, exists_unit, skipIf_eq_ok,
      activity_eq_ok, okOr_eq_ok, refuseIf_eq_ok, not_and_or, not_not, Bool.not_eq_false, pure,
      Except.pure]
    exact ⟨_, hget, hcheck, hattest, _, hfind, hstatus, rfl⟩
  | approvalRequested hactive hrec hfresh hdecoded hpolicy hhash hbinding hid =>
    simp only [applyLater, applyApprovalRequested, bind_eq_ok, exists_unit,
      ensureActive_eq_ok, ensureNotReconciling_eq_ok, refuseIf_eq_ok, not_not, Bool.not_eq_true,
      BTreeMap.contains_eq_false, pure, Except.pure]
    exact ⟨hactive, hrec, hfresh, _, hdecoded, hpolicy, hhash, hbinding, hid, rfl⟩
  | approvalResolved hget hpending hdecoded =>
    simp only [applyLater, applyApprovalResolved, bind_eq_ok, exists_unit, okOr_eq_ok,
      refuseIf_eq_ok, not_not, pure, Except.pure]
    exact ⟨_, hget, hpending, _, hdecoded, rfl⟩
  | artifactPublished hactive hversions hversion hprevious =>
    subst hversions
    simp only [applyLater, applyArtifactPublished, bind_eq_ok, exists_unit,
      ensureActive_eq_ok, refuseIf_eq_ok, not_not, pure, Except.pure]
    exact ⟨hactive, hversion, hprevious, trivial⟩
  | checkpointCommitted hactive hfresh =>
    simp only [applyLater, applyCheckpointCommitted, bind_eq_ok, exists_unit,
      ensureActive_eq_ok, refuseIf_eq_ok, Bool.not_eq_true, BTreeMap.contains_eq_false, pure,
      Except.pure]
    exact ⟨hactive, hfresh, trivial⟩
  | runPaused hactive hreconciling =>
    simp only [applyLater, applyRunPaused, bind_eq_ok, exists_unit, ensureActive_eq_ok,
      ensureNotReconciling_eq_ok, pure, Except.pure]
    exact ⟨hactive, hreconciling, trivial⟩
  | runResumed hpaused hpending hawaiting =>
    simp only [applyLater, applyRunResumed, bind_eq_ok, exists_unit, refuseIf_eq_ok,
      not_not, ensureNoPendingApprovals_eq_ok, ensureNoReconciliationPending_eq_ok, pure,
      Except.pure]
    exact ⟨hpaused, hpending, hawaiting, trivial⟩
  | forkCreated hactive hrun hstored hcheckpoint hreconciled =>
    simp only [applyLater, applyForkCreated, bind_eq_ok, exists_unit, ensureActive_eq_ok,
      validateIdentifier_eq_ok, checkpointById_eq_ok, pure, Except.pure]
    exact ⟨hactive, hrun, _, hstored, _, hcheckpoint, hreconciled, trivial⟩
  | runRewound hactive hstored hcheckpoint hreconciled =>
    simp only [applyLater, applyRunRewound, bind_eq_ok, exists_unit, ensureActive_eq_ok,
      checkpointById_eq_ok, pure, Except.pure]
    exact ⟨hactive, _, hstored, _, hcheckpoint, hreconciled, rfl⟩
  | runCompleted hactive hclosed hpending hawaiting hnone =>
    simp only [applyLater, applyRunCompleted, bind_eq_ok, exists_unit, ensureActive_eq_ok,
      skipIf_eq_ok, ensureNoPendingApprovals_eq_ok, ensureNoReconciliationPending_eq_ok,
      ensureNoRunningActivities_eq_ok, pure, Except.pure]
    exact ⟨hactive, hclosed, hpending, hawaiting, hnone, trivial⟩
  | runFailed hactive hstop =>
    simp only [applyLater, applyRunFailed, bind_eq_ok, exists_unit, ensureActive_eq_ok,
      skipIf_eq_ok, checkV2Stop_eq_ok, pure, Except.pure]
    exact ⟨hactive, hstop, trivial⟩
  | runCancelled hactive hstop =>
    simp only [applyLater, applyRunCancelled, bind_eq_ok, exists_unit, ensureActive_eq_ok,
      skipIf_eq_ok, checkV2Stop_eq_ok, pure, Except.pure]
    exact ⟨hactive, hstop, trivial⟩

end

end RunState

end AikitRuntime.Durability
