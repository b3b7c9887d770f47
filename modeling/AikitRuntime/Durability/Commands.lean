import AikitRuntime.Durability.Transitions

/-!
# The operations of a run

What callers do to a run: append an event, schedule and settle activities, request and
resolve approvals, publish artifacts, take checkpoints, pause, finish, and apply the
control commands (resume, fork, rewind, cancel). Every one of them changes the run by
appending events, directly on the run or on a clone that is installed at the end, so each
is a `Method`: what it had appended before an error stays, unless it worked on a clone.
-/

namespace AikitRuntime.Durability

open Library

/-- Result of applying a durable control command. -/
inductive CommandOutcome where
  | resumed (sequence : Nat)
  | forked (run : RunState)
  | rewound (checkpointId : String) (sequence : Nat)
  | cancelled (sequence : Nat)
  deriving DecidableEq

/-- An operation on `&mut RunState`. -/
abbrev RunMethod (α : Type) : Type := Method RunState DurabilityError α

open Method

section
variable [Digest]

namespace RunState

/-! ### Appending -/

/-- `append_validated_event`. -/
def appendValidatedEvent (event : RunEvent) : RunMethod AppendOutcome := fun s =>
  match s.tryAppend event with
  | .ok (outcome, t) => .ok outcome t
  | .error error => .error error s

/-- `append_event`. -/
def appendEvent (event : RunEvent) : RunMethod AppendOutcome := do
  check (refuseIf (event.schemaVersion ≠ durabilitySchemaVersion)
    (.unsupportedSchema durabilitySchemaVersion event.schemaVersion))
  appendValidatedEvent event

/-- The schema version of a replayed event is supported, and not below its predecessor's. -/
def checkReplayedVersion (s : RunState) (event : RunEvent) : DurabilityResult Unit := do
  refuseIf (isSupportedDurabilitySchemaVersion event.schemaVersion = false)
    (.unsupportedSchema durabilitySchemaVersion event.schemaVersion)
  refuseIf (s.events.getLast?.any fun previous => event.schemaVersion < previous.schemaVersion)
    (.invalidEvent "durability event schema versions must be monotonic")

/-- `append_replayed_event`. -/
def appendReplayedEvent (event : RunEvent) : RunMethod AppendOutcome := do
  let s ← read id
  check (s.checkReplayedVersion event)
  appendValidatedEvent event

/-- The event that `emit` appends. -/
def nextEvent (s : RunState) (eventId : String) (kind : RunEventKind) : RunEvent where
  schemaVersion := durabilitySchemaVersion
  runId := s.runId
  sequence := s.nextSequence
  eventId
  kind

/-- `emit`. -/
def emit (eventId : String) (kind : RunEventKind) : RunMethod AppendOutcome := do
  let s ← read id
  appendEvent (s.nextEvent eventId kind)

/-! ### Making a run -/

/-- `RunState::blank`. -/
def blank (sessionId runId : String) (durability : DurabilityMode) (projection : RunProjection) :
    RunState where
  schemaVersion := durabilitySchemaVersion
  sessionId
  runId
  durability
  parentRunId := none
  policySnapshotHash := none
  governanceBinding := none
  events := []
  checkpoints := ∅
  projection

/-- `RunState::new`. -/
def new (sessionId runId : String) (durability : DurabilityMode) : DurabilityResult RunState := do
  validateIdentifier "session_id" sessionId
  validateIdentifier "run_id" runId
  let projection := RunProjection.root runId
  build (emit (stableIdentifier "event" [runId, "run_started"])
      (.runStarted sessionId durability projection.branchId))
    (blank sessionId runId durability projection)

/-- `RunState::new_with_governance_binding`. -/
def newWithGovernanceBinding (sessionId runId : String) (durability : DurabilityMode)
    (binding : GovernanceBinding) : DurabilityResult RunState := do
  checkBinding "invalid governance binding" binding
  refuseIf (binding.runId ≠ runId)
    (.invalidEvent "governance binding run_id does not match durable run")
  let state ← new sessionId runId durability
  build (emit (stableIdentifier "event" [state.runId, "governance_binding_pinned"])
    (.governanceBindingPinned binding)) state

/-- The session and the durability that a first event declares. -/
def openingOf : RunEventKind → Option (String × DurabilityMode)
  | .runStarted sessionId durability _ => some (sessionId, durability)
  | .forkedFrom sessionId _ durability _ _ => some (sessionId, durability)
  | _ => none

/-- One turn of the replay loop. -/
def replayEvent (event : RunEvent) : RunMethod Unit := do
  let _ ← appendReplayedEvent event
  pure ()

/-- `RunState::from_events`. -/
def fromEvents (events : List RunEvent) : DurabilityResult RunState := do
  let first ← okOr events.head? .missingRunStart
  let opening ← okOr (openingOf first.kind) .missingRunStart
  validateIdentifier "session_id" opening.1
  validateIdentifier "run_id" first.runId
  build (each replayEvent events) (blank opening.1 first.runId opening.2 (RunProjection.root first.runId))

/-! ### Worker leases -/

/-- `claim_worker_lease`. -/
def claimWorkerLease (ownerId leaseId : String) (claimedAtUnixMs expiresAtUnixMs : Nat) :
    RunMethod Bool := do
  check (validateIdentifier "worker_owner_id" ownerId)
  check (validateIdentifier "worker_lease_id" leaseId)
  check (validateWorkerLeaseWindow claimedAtUnixMs expiresAtUnixMs)
  let s ← read id
  let _ ← emit (stableIdentifier "event"
      [s.runId, "worker_lease_claimed", leaseId, toString claimedAtUnixMs])
    (.workerLeaseClaimed ownerId leaseId claimedAtUnixMs expiresAtUnixMs)
  pure s.projection.workerLease.isSome

/-- `renew_worker_lease`. -/
def renewWorkerLease (ownerId leaseId : String) (renewedAtUnixMs expiresAtUnixMs : Nat) :
    RunMethod Unit := do
  check (validateIdentifier "worker_owner_id" ownerId)
  check (validateIdentifier "worker_lease_id" leaseId)
  check (validateWorkerLeaseWindow renewedAtUnixMs expiresAtUnixMs)
  let s ← read id
  let _ ← emit (stableIdentifier "event"
      [s.runId, "worker_lease_renewed", leaseId, toString renewedAtUnixMs])
    (.workerLeaseRenewed ownerId leaseId renewedAtUnixMs expiresAtUnixMs)
  pure ()

/-- `release_worker_lease`. -/
def releaseWorkerLease (ownerId leaseId : String) (releasedAtUnixMs : Nat) : RunMethod Unit := do
  check (validateIdentifier "worker_owner_id" ownerId)
  check (validateIdentifier "worker_lease_id" leaseId)
  let s ← read id
  let _ ← emit (stableIdentifier "event"
      [s.runId, "worker_lease_released", leaseId, toString releasedAtUnixMs])
    (.workerLeaseReleased ownerId leaseId releasedAtUnixMs)
  pure ()

/-! ### Activities -/

/-- `replace_state`. -/
def replaceState (mutationId : String) (state : Value) : RunMethod AppendOutcome := do
  check (validateIdentifier "mutation_id" mutationId)
  let s ← read id
  check s.ensureExecuting
  emit (stableIdentifier "event" [s.runId, s.projection.branchId, "state", mutationId])
    (.stateReplaced state)

/-- The identities of the events of one attempt. -/
def attemptEventId (activityId : String) (attempt : Nat) (what : String) : String :=
  stableIdentifier "event" [activityId, toString attempt, what]

/-- The end of `decide_activity`: start the next attempt. -/
def startNextAttempt (activityId : String) : RunMethod ActivityDecision := do
  let s ← read id
  let record ← check (s.activity activityId)
  let attempt := record.attempts.length + 1
  check (refuseIf (2 ^ 32 ≤ attempt)
    (.invalidActivityTransition activityId "activity attempt counter overflowed"))
  let _ ← emit (attemptEventId activityId attempt "started")
    (.activityAttemptStarted activityId attempt)
  pure (.execute activityId attempt record.definition.idempotencyKey)

/-- Record that an attempt requires reconciliation, and answer so. -/
def quarantine (activityId : String) (attempt : Nat) (reason : String) :
    RunMethod ActivityDecision := do
  let _ ← emit (attemptEventId activityId attempt "reconcile_required")
    (.activityReconciliationRequired activityId attempt reason)
  pure (.reconcileRequired activityId reason)

/-- `decide_activity`. -/
def decideActivity (activityId : String) : RunMethod ActivityDecision := do
  let s ← read id
  let record ← check (s.activity activityId)
  match record.completedOutput, record.latestAttempt with
  | some output, _ => pure (.reuseCompleted activityId output)
  | none, none => startNextAttempt activityId
  | none, some latest =>
    match latest.status with
    | .running =>
      if retryIsSafe record.definition true then do
        let _ ← emit (attemptEventId activityId latest.attempt "interrupted")
          (.activityAttemptFailed activityId latest.attempt
            "worker interrupted before completion was committed" true true)
        startNextAttempt activityId
      else
        quarantine activityId latest.attempt
          "previous attempt may have produced an uncommitted external effect"
    | .failed =>
      if latest.retryable = false then
        pure (.failed activityId (latest.error.getD "activity failed"))
      else if retryIsSafe record.definition latest.effectAmbiguous = false then
        quarantine activityId latest.attempt "failed attempt has an ambiguous external effect"
      else startNextAttempt activityId
    | .reconcileRequired =>
      pure (.reconcileRequired activityId
        (latest.error.getD "external side effect requires reconciliation"))
    | .cancelled => pure (.cancelled activityId)
    -- a panic in the source: a completed attempt has an output, so the first case applies
    | .completed => throw (.invalidEvent "handled above")

/-- The scheduled activity of a step and key. -/
def findActivity (s : RunState) (stableStepId logicalKey : String) : Option ActivityRecord :=
  s.projection.activities.values.find? fun record =>
    record.definition.stableStepId = stableStepId && record.definition.logicalKey = logicalKey

/-- What `prepare_activity` requires of an activity that is already scheduled. -/
def checkSameContract (definition : ActivityDefinition) (inputHash : String)
    (sideEffectClass : SideEffectClass) (idempotencyKey : Option String) :
    DurabilityResult Unit := do
  refuseIf (definition.inputHash ≠ inputHash)
    (.activityInputChanged definition.activityId definition.stableStepId)
  refuseIf (definition.sideEffectClass ≠ sideEffectClass ∨
      definition.idempotencyKey ≠ idempotencyKey)
    (.invalidActivityTransition definition.activityId
      "retry contract changed for an existing stable activity")

/-- The definition under which `prepare_activity` schedules an activity. -/
def newDefinition (s : RunState) (stableStepId logicalKey : String) (input : Value)
    (sideEffectClass : SideEffectClass) (idempotencyKey : Option String) : ActivityDefinition where
  activityId := stableIdentifier "activity"
    [s.runId, s.projection.branchId, stableStepId, logicalKey]
  stableStepId
  logicalKey
  input
  inputHash := stableInputHash input
  sideEffectClass
  idempotencyKey

/-- `prepare_activity`. -/
def prepareActivity (stableStepId logicalKey : String) (input : Value)
    (sideEffectClass : SideEffectClass) (idempotencyKey : Option String) :
    RunMethod ActivityDecision := do
  check (validateIdentifier "stable_step_id" stableStepId)
  check (validateIdentifier "logical_key" logicalKey)
  let s ← read id
  check s.ensureExecuting
  match s.findActivity stableStepId logicalKey with
  | some record => do
    check (checkSameContract record.definition (stableInputHash input) sideEffectClass
      idempotencyKey)
    decideActivity record.definition.activityId
  | none => do
    let definition := s.newDefinition stableStepId logicalKey input sideEffectClass idempotencyKey
    check (refuseIf definition.lacksIdempotencyKey (.missingIdempotencyKey definition.activityId))
    let _ ← emit (stableIdentifier "event" [definition.activityId, "scheduled"])
      (.activityScheduled definition)
    decideActivity definition.activityId

/-- `complete_activity`. -/
def completeActivity (activityId : String) (attempt : Nat) (output : Value) :
    RunMethod AppendOutcome := do
  let s ← read id
  check s.ensureActive
  let record ← check (s.activity activityId)
  let outputHash := stableInputHash output
  let eventId := attemptEventId activityId attempt "completed"
  match (record.findAttempt attempt).filter (·.status = .completed) with
  | some existing =>
    if existing.outputHash = some outputHash then
      pure (.deduplicated (existing.finishedSequence.getD existing.startedSequence))
    else throw (.duplicateEventConflict eventId)
  | none => emit eventId (.activityAttemptCompleted activityId attempt output outputHash)

/-- `fail_activity`. -/
def failActivity (activityId : String) (attempt : Nat) (error : String)
    (retryable effectAmbiguous : Bool) : RunMethod ActivityDecision := do
  let s ← read id
  check s.ensureActive
  let record ← check (s.activity activityId)
  if isReservedAuditActivity record then
    quarantine activityId attempt s!"reserved audit activity requires reconciliation: {error}"
  else do
    let _ ← emit (attemptEventId activityId attempt "failed")
      (.activityAttemptFailed activityId attempt error retryable effectAmbiguous)
    -- the event changes no definition, so the record read before it answers here too
    if effectAmbiguous ∧ retryIsSafe record.definition true = false then
      quarantine activityId attempt s!"activity failed ambiguously: {error}"
    else if retryable then decideActivity activityId
    else pure (.failed activityId error)

/-- `cancel_activity`. -/
def cancelActivity (activityId : String) (attempt : Nat) (reason : String)
    (effectAmbiguous : Bool) : RunMethod ActivityDecision := do
  let s ← read id
  check s.ensureActive
  if effectAmbiguous then failActivity activityId attempt reason false effectAmbiguous
  else do
    let record ← check (s.activity activityId)
    if isReservedAuditActivity record then
      failActivity activityId attempt reason false effectAmbiguous
    else do
      let _ ← emit (attemptEventId activityId attempt "cancelled")
        (.activityAttemptCancelled activityId attempt reason)
      pure (.cancelled activityId)

/-- `quarantine_unstarted_reserved_activity`. -/
def quarantineUnstartedReservedActivity (activityId reason : String) : RunMethod Unit := do
  let s ← read id
  let record ← check (s.activity activityId)
  check (refuseIf (isReservedAuditActivity record = false ∨ record.attempts ≠ [])
    (invalidActivity activityId "only an unstarted reserved audit activity can be quarantined"))
  check (skipIf (s.projection.status.isTerminal ∧
    record.definition.stableStepId = legacyRunStoppedAuditStepId) s.ensureActive)
  let _ ← emit (stableIdentifier "event" [activityId, "1", "orphan_reconcile_required"])
    (.activityReconciliationRequired activityId 1 reason)
  pure ()

/-- `quarantine_terminal_legacy_running_activity`. -/
def quarantineTerminalLegacyRunningActivity (activityId reason : String) : RunMethod Unit := do
  let s ← read id
  check (refuseIf (s.projection.status.isTerminal = false)
    (invalidActivity activityId "legacy terminal quarantine requires a terminal run"))
  let record ← check (s.activity activityId)
  let latest ← check (okOr record.latestAttempt
    (invalidActivity activityId "activity has not started"))
  check (refuseIf (isReservedAuditActivity record ∨
      record.definition.sideEffectClass ≠ .reconcileRequired ∨ latest.status ≠ .running ∨
      s.attemptHasV1Provenance activityId latest.attempt = false)
    (invalidActivity activityId
      "only a v1-provenanced terminal reconciliation-required running attempt can be quarantined"))
  let _ ← emit (attemptEventId activityId latest.attempt "legacy_terminal_quarantine")
    (.activityReconciliationRequired activityId latest.attempt reason)
  pure ()

/-- `reconcile_activity`. -/
def reconcileActivity (reconciliationId activityId : String)
    (resolution : ActivityReconciliation) : RunMethod AppendOutcome := do
  check (validateIdentifier "reconciliation_id" reconciliationId)
  let s ← read id
  let record ← check (s.activity activityId)
  check (validateReservedAuditReconciliation s.runId s.projection.activities record resolution
    (s.lifecycleScheduleSequence activityId record))
  let latest ← check (okOr record.latestAttempt
    (invalidActivity activityId "activity has not started"))
  emit (stableIdentifier "event"
      [activityId, toString latest.attempt, "reconciled", reconciliationId])
    (.activityReconciled activityId latest.attempt resolution)

/-! ### Approvals -/

/-- A reference to an activity resolves. -/
def checkActivityReference (s : RunState) : Option String → DurabilityResult Unit
  | none => .ok ()
  | some activityId => do
    let _ ← s.activity activityId
    pure ()

/-- `request_approval`. -/
def requestApproval (logicalKey : String) (activityId : Option String) (prompt : String)
    (payload : Value) : RunMethod String := do
  check (validateIdentifier "logical_key" logicalKey)
  let s ← read id
  check s.ensureActive
  check s.ensureNotReconciling
  check (s.checkActivityReference activityId)
  let approvalId := stableIdentifier "approval" [s.runId, s.projection.branchId, logicalKey]
  let _ ← emit (stableIdentifier "event" [approvalId, "requested"])
    (.approvalRequested approvalId logicalKey activityId prompt payload)
  pure approvalId

/-- The policy hash that a request names is the run's. -/
def checkRequestPolicy (expected actual : Option String) : DurabilityResult Unit :=
  match expected, actual with
  | some _, none =>
    .error (.invalidEvent "governed approval is missing its policy snapshot hash")
  | expected, actual =>
    let expectedText := debugOption expected
    let actualText := debugOption actual
    refuseIf (expected ≠ actual) (.invalidEvent
      s!"approval policy snapshot does not match run: expected {expectedText}, got {actualText}")

/-- The binding that a request names is the run's. -/
def checkRequestBinding (expected actual : Option GovernanceBinding) : DurabilityResult Unit :=
  match expected, actual with
  | some _, none =>
    .error (.invalidEvent "governed approval is missing its complete governance binding")
  | expected, actual => refuseIf (expected ≠ actual)
    (.invalidEvent "approval governance binding does not match run")

/-- The checks of `request_typed_approval`, on a request with its binding filled in. -/
def checkApprovalRequest (s : RunState) (request : DurableApprovalRequest) :
    DurabilityResult Unit := do
  checkRequestPolicy s.policySnapshotHash request.policySnapshotHash
  checkRequestBinding s.governanceBinding request.governanceBinding
  s.checkApprovalBinding request.policySnapshotHash request.governanceBinding
  checkPolicyHash request.policySnapshotHash

/-- `request_typed_approval`. -/
def requestTypedApproval (request : DurableApprovalRequest) : RunMethod String := do
  check (validateIdentifier "logical_key" request.logicalKey)
  check (refuseIf (isBlank request.prompt) (.invalidEvent "approval prompt cannot be empty"))
  check (refuseIf (request.expiresAtUnixMs ≤ request.requestedAtUnixMs)
    (.invalidEvent "approval expiry must be after its request time"))
  let s ← read id
  check (refuseIf (s.policySnapshotHash.isSome ∧ s.governanceBinding.isNone)
    (.invalidEvent "legacy hash-only governed runs are read-only for new approvals"))
  let request := { request with
    governanceBinding := request.governanceBinding.or s.governanceBinding }
  check (s.checkApprovalRequest request)
  requestApproval request.logicalKey request.activityId request.prompt (encodeApprovalEnvelope
    { schemaVersion := durabilitySchemaVersion, kind := request.kind, payload := request.payload,
      policySnapshotHash := request.policySnapshotHash,
      governanceBinding := request.governanceBinding,
      requestedAtUnixMs := request.requestedAtUnixMs,
      expiresAtUnixMs := request.expiresAtUnixMs })

/-- The response that `resolve_approval` persists. -/
def resolutionResponse (approval : DurableApproval) (response : Option Value)
    (nowUnixMs : Option Nat) (timedOut : Bool) : Option Value :=
  match nowUnixMs, approval.expiresAtUnixMs with
  | some resolvedAtUnixMs, some _ => some (encodeResolutionEnvelope
    { schemaVersion := durabilitySchemaVersion, resolvedAtUnixMs, timedOut, response })
  | _, _ => response

/-- `resolve_approval`. -/
def resolveApproval (commandId : String) (resolution : ApprovalResolution)
    (nowUnixMs : Option Nat) (timedOut : Bool) : RunMethod Unit := do
  let s ← read id
  let approvalId := resolution.approvalId
  let approval ← check (okOr s.projection.approvals[approvalId]? (.approvalNotFound approvalId))
  check (refuseIf (approval.status ≠ .pending) (.approvalAlreadyResolved approvalId))
  check (validateApprovalResolution approval resolution nowUnixMs timedOut)
  let _ ← emit (stableIdentifier "event" [approvalId, "resolved", commandId])
    (.approvalResolved approvalId resolution.approved
      (resolutionResponse approval resolution.response nowUnixMs timedOut))
  pure ()

/-- The pending approvals whose deadline has passed. -/
def expiredApprovalIds (s : RunState) (nowUnixMs : Nat) : List String :=
  (s.projection.approvals.values.filter fun approval =>
    approval.status = .pending && approval.expiresAtUnixMs.any (· ≤ nowUnixMs)).map (·.approvalId)

/-- The denial of an approval that has timed out. -/
def timeoutResolution (approvalId : String) : ApprovalResolution where
  approvalId
  approved := false
  response := some approvalTimeoutResponse

/-- `expire_approvals`. -/
def expireApprovals (expirationId : String) (nowUnixMs : Nat) : RunMethod (List String) := do
  check (validateIdentifier "expiration_id" expirationId)
  let s ← read id
  check s.ensureActive
  let expiredIds := s.expiredApprovalIds nowUnixMs
  onCandidate (each (fun approvalId =>
    resolveApproval expirationId (timeoutResolution approvalId) (some nowUnixMs) true) expiredIds)
  pure expiredIds

/-! ### Artifacts, checkpoints and the status of the run -/

/-- The metadata that `publish_artifact` publishes. -/
def nextArtifactVersion (s : RunState) (artifactId mediaType : String) (sizeBytes : Nat)
    (contentHash : String) (createdByActivityId : Option String) : ArtifactMetadata :=
  let prior := s.projection.artifacts[artifactId]?.bind List.getLast?
  let version := (prior.map (·.version + 1)).getD 1
  { artifactId, version,
    versionId := stableIdentifier "artifact_version"
      [s.runId, s.projection.branchId, artifactId, toString version],
    branchId := s.projection.branchId, mediaType, sizeBytes, contentHash, createdByActivityId,
    previousVersionId := prior.map (·.versionId) }

/-- `publish_artifact`. -/
def publishArtifact (artifactId mediaType : String) (sizeBytes : Nat) (contentHash : String)
    (createdByActivityId : Option String) : RunMethod ArtifactMetadata := do
  check (validateIdentifier "artifact_id" artifactId)
  let s ← read id
  check s.ensureActive
  check (s.checkActivityReference createdByActivityId)
  let metadata := s.nextArtifactVersion artifactId mediaType sizeBytes contentHash
    createdByActivityId
  let _ ← emit (stableIdentifier "event" [metadata.versionId, "published"])
    (.artifactPublished metadata)
  pure metadata

/-- `checkpoint`. -/
def checkpoint (checkpointKey : String) (label : Option String) : RunMethod Checkpoint := do
  check (validateIdentifier "checkpoint_key" checkpointKey)
  let s ← read id
  check s.ensureActive
  check s.ensureNotReconciling
  let checkpointId := stableIdentifier "checkpoint"
    [s.runId, s.projection.branchId, checkpointKey]
  let _ ← emit (stableIdentifier "event" [checkpointId, "committed"])
    (.checkpointCommitted checkpointId label)
  -- the source indexes the map, which holds every checkpoint that the log commits
  let t ← read id
  check (t.checkpointById checkpointId)

/-- `pause`. -/
def pause (pauseId reason : String) : RunMethod Unit := do
  check (validateIdentifier "pause_id" pauseId)
  let s ← read id
  check s.ensureActive
  check s.ensureNotReconciling
  let _ ← emit (stableIdentifier "event" [s.runId, "pause", pauseId]) (.runPaused reason)
  pure ()

/-- `complete_run`. -/
def completeRun (completionId : String) : RunMethod AppendOutcome := do
  check (validateIdentifier "completion_id" completionId)
  let s ← read id
  check s.ensureActive
  check s.ensureReservedAuditLifecycleClosed
  emit (stableIdentifier "event" [s.runId, "complete", completionId]) .runCompleted

/-- `fail_run`. -/
def failRun (failureId error : String) : RunMethod AppendOutcome := do
  check (validateIdentifier "failure_id" failureId)
  let s ← read id
  check s.ensureActive
  check s.ensureReservedAuditLifecycleClosed
  emit (stableIdentifier "event" [s.runId, "fail", failureId]) (.runFailed error)

/-! ### Control commands -/

/-- The checks and resolutions of `resume`, on the clone. -/
def resumeCandidate (commandId : String) (approvals : List ApprovalResolution)
    (nowUnixMs : Option Nat) (eventId : String) : RunMethod CommandOutcome := do
  let s ← read id
  let typedPending := s.projection.approvals.values.find? fun approval =>
    approval.status = .pending && approval.expiresAtUnixMs.isSome
  let expiredIds := (nowUnixMs.map s.expiredApprovalIds).getD []
  check (match typedPending, nowUnixMs with
    | some approval, none => .error (.approvalClockRequired approval.approvalId)
    | _, _ => .ok ())
  each (fun approvalId =>
    resolveApproval commandId (timeoutResolution approvalId) nowUnixMs true) expiredIds
  each (fun resolution => resolveApproval commandId resolution nowUnixMs false)
    (approvals.filter fun resolution => !expiredIds.contains resolution.approvalId)
  let t ← read id
  check t.ensureNoPendingApprovals
  let outcome ← emit eventId .runResumed
  pure (.resumed outcome.sequence)

/-- `resume`. -/
def resume (commandId : String) (approvals : List ApprovalResolution) (nowUnixMs : Option Nat) :
    RunMethod CommandOutcome := do
  check (validateIdentifier "command_id" commandId)
  let s ← read id
  let eventId := stableIdentifier "event" [s.runId, "resume", commandId]
  match s.eventById eventId with
  | some event =>
    if event.kind = .runResumed then pure (.resumed event.sequence)
    else throw (.duplicateEventConflict eventId)
  | none => do
    check s.ensureNotReconciling
    check (refuseIf (s.projection.status ≠ .paused) .notPaused)
    onCandidate (resumeCandidate commandId approvals nowUnixMs eventId)

/-- `binding.for_run(new_run_id)`, with its error. -/
def bindFork (binding : GovernanceBinding) (newRunId : String) :
    DurabilityResult GovernanceBinding :=
  match binding.forRun newRunId with
  | .ok binding => .ok binding
  | .error error =>
    .error (.invalidEvent s!"cannot bind fork governance identity: {error.text}")

/-- The events of a fork: its origin, and what it is pinned to. -/
def forkEvents (s : RunState) (newRunId : String) (checkpoint : Checkpoint)
    (newBranchId commandId : String) : RunMethod Unit := do
  let _ ← emit (stableIdentifier "event" [newRunId, "forked_from", commandId])
    (.forkedFrom s.sessionId s.runId s.durability checkpoint newBranchId)
  match s.governanceBinding, s.policySnapshotHash with
  | some binding, _ => do
    let binding ← check (bindFork binding newRunId)
    let _ ← emit (stableIdentifier "event" [newRunId, "governance_binding_pinned"])
      (.governanceBindingPinned binding)
    pure ()
  | none, some policySnapshotHash => do
    let _ ← emit (stableIdentifier "event" [newRunId, "policy_snapshot_pinned"])
      (.policySnapshotPinned policySnapshotHash)
    pure ()
  | none, none => pure ()

/-- `build_fork`. -/
def buildFork (s : RunState) (newRunId : String) (checkpoint : Checkpoint)
    (newBranchId commandId : String) : DurabilityResult RunState :=
  build (s.forkEvents newRunId checkpoint newBranchId commandId)
    (blank s.sessionId newRunId s.durability (forkProjection checkpoint newRunId newBranchId))

/-- The branch that an earlier `ForkCreated` of the same command recorded. -/
def repeatedForkBranch (newRunId checkpointId : String) (sideEffectsReconciled : Bool) :
    RunEventKind → Option String
  | .forkCreated existingRunId existingCheckpointId existingBranchId existingReconciled =>
    if existingRunId = newRunId ∧ existingCheckpointId = checkpointId ∧
        existingReconciled = sideEffectsReconciled then some existingBranchId else none
  | _ => none

/-- `fork`. -/
def fork (commandId newRunId checkpointId : String) (sideEffectsReconciled : Bool) :
    RunMethod CommandOutcome := do
  check (validateIdentifier "command_id" commandId)
  check (validateIdentifier "new_run_id" newRunId)
  let s ← read id
  check (refuseIf (newRunId = s.runId)
    (.invalidEvent "fork destination must differ from its source run"))
  let checkpoint ← check (s.checkpointById checkpointId)
  let checkpoint ← check (s.checkpointForCurrentRun checkpoint)
  let newBranchId := stableIdentifier "branch" [newRunId, "fork", commandId]
  let eventId := stableIdentifier "event" [s.runId, "fork", commandId]
  match s.eventById eventId with
  | some event =>
    match repeatedForkBranch newRunId checkpointId sideEffectsReconciled event.kind with
    | some existingBranchId => do
      let forked ← check (s.buildFork newRunId checkpoint existingBranchId commandId)
      pure (.forked forked)
    | none => throw (.duplicateEventConflict eventId)
  | none => do
    check (s.requireReconciledAfter checkpoint.eventSequence sideEffectsReconciled)
    onCandidate do
      let _ ← emit eventId
        (.forkCreated newRunId checkpointId newBranchId sideEffectsReconciled)
      let candidate ← read id
      let forked ← check (candidate.buildFork newRunId checkpoint newBranchId commandId)
      pure (.forked forked)

/-- An earlier `RunRewound` is of the same command. -/
def isRepeatedRewind (checkpointId : String) (sideEffectsReconciled : Bool) : RunEventKind → Bool
  | .runRewound existingCheckpointId _ existingReconciled =>
    existingCheckpointId = checkpointId && existingReconciled = sideEffectsReconciled
  | _ => false

/-- `rewind`. -/
def rewind (commandId checkpointId : String) (sideEffectsReconciled : Bool) :
    RunMethod CommandOutcome := do
  check (validateIdentifier "command_id" commandId)
  let s ← read id
  let checkpoint ← check (s.checkpointById checkpointId)
  let checkpoint ← check (s.checkpointForCurrentRun checkpoint)
  let newBranchId := stableIdentifier "branch" [s.runId, "rewind", commandId, checkpointId]
  let eventId := stableIdentifier "event" [s.runId, "rewind", commandId]
  match s.eventById eventId with
  | some event =>
    if isRepeatedRewind checkpointId sideEffectsReconciled event.kind then
      pure (.rewound checkpointId event.sequence)
    else throw (.duplicateEventConflict eventId)
  | none => do
    check (s.requireReconciledAfter checkpoint.eventSequence sideEffectsReconciled)
    let outcome ← emit eventId (.runRewound checkpointId newBranchId sideEffectsReconciled)
    pure (.rewound checkpointId outcome.sequence)

/-- `cancel`. -/
def cancel (commandId : String) (reason : Option String) : RunMethod CommandOutcome := do
  check (validateIdentifier "command_id" commandId)
  let s ← read id
  let eventId := stableIdentifier "event" [s.runId, "cancel", commandId]
  match s.eventById eventId with
  | some event =>
    if event.kind = .runCancelled reason then pure (.cancelled event.sequence)
    else throw (.duplicateEventConflict eventId)
  | none => do
    check s.ensureActive
    check s.ensureReservedAuditLifecycleClosed
    let outcome ← emit eventId (.runCancelled reason)
    pure (.cancelled outcome.sequence)

/-- `apply_command`. -/
def applyCommand : RunCommand → RunMethod CommandOutcome
  | .resume commandId approvals => resume commandId approvals none
  | .fork commandId newRunId checkpointId sideEffectsReconciled =>
    fork commandId newRunId checkpointId sideEffectsReconciled
  | .rewind commandId checkpointId sideEffectsReconciled =>
    rewind commandId checkpointId sideEffectsReconciled
  | .cancel commandId reason => cancel commandId reason

/-- `apply_command_at`. -/
def applyCommandAt (command : RunCommand) (nowUnixMs : Nat) : RunMethod CommandOutcome :=
  match command with
  | .resume commandId approvals => resume commandId approvals (some nowUnixMs)
  | command => applyCommand command

end RunState

end

end AikitRuntime.Durability
