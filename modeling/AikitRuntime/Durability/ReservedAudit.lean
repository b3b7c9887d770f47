import AikitRuntime.Durability.Envelopes

/-!
# Reserved audit activities

Four stable steps are reserved for the runtime's own audit delivery: the terminal audit
of a run (`RUN_STOPPED`), its recovery, the lifecycle of an invocation, and the
quarantined v1 form of the first. Their activities are checked against each other before
they are scheduled, started, completed or reconciled. This module is those checks, in
the order of the source; each either passes or refuses with the source's reason.

The checks only read: the projection's activities, one record and a value. A record is
reserved by its definition alone, which no later event changes.
-/

namespace AikitRuntime.Durability

open Library

/-- `is_reserved_audit_activity`. -/
def isReservedAuditActivity (record : ActivityRecord) : Bool :=
  let definition := record.definition
  if definition.stableStepId = legacyRunStoppedAuditStepId then
    definition.logicalKey = "terminal"
  else if definition.stableStepId = runStoppedAuditStepId then
    definition.logicalKey = "terminal" &&
      ((definition.input.get "replay").isSome || (definition.input.get "legacy_resolution").isSome)
  else if definition.stableStepId = recoveryRunStoppedAuditStepId then
    (definition.input.get "replay").isSome
  else if definition.stableStepId = invocationLifecycleStepId then
    definition.input.getU64 "schema_version" = some 1 &&
      definition.input.getStr "invocation_id" = some definition.logicalKey
  else false

/-- One of the three reserved steps that schema version 2 introduced. -/
def isV2ReservedStep (stableStepId : String) : Bool :=
  stableStepId = runStoppedAuditStepId || stableStepId = recoveryRunStoppedAuditStepId ||
    stableStepId = invocationLifecycleStepId

/-- One of the two steps whose activities deliver a terminal audit. -/
def isTerminalAuditStep (stableStepId : String) : Bool :=
  stableStepId = runStoppedAuditStepId || stableStepId = recoveryRunStoppedAuditStepId

/-- Reservedness depends on the definition alone. -/
theorem isReservedAuditActivity_congr {r r' : ActivityRecord} (h : r.definition = r'.definition) :
    isReservedAuditActivity r = isReservedAuditActivity r' := by
  unfold isReservedAuditActivity
  rw [h]

/-- Only reserved steps are reserved. -/
theorem step_of_isReservedAuditActivity {r : ActivityRecord} (h : isReservedAuditActivity r) :
    r.definition.stableStepId = legacyRunStoppedAuditStepId ∨
      isV2ReservedStep r.definition.stableStepId := by
  simp only [isReservedAuditActivity] at h
  unfold isV2ReservedStep
  split at h
  · next hlegacy => exact .inl hlegacy
  · right
    split at h
    · next hstopped => simp [hstopped]
    · split at h
      · next hrecovery => simp [hrecovery]
      · split at h
        · next hlifecycle => simp [hlifecycle]
        · cases h

/-- The record's latest attempt is running. -/
def ActivityRecord.isRunning (record : ActivityRecord) : Bool :=
  record.latestAttempt.any (·.status = .running)

section
variable [Digest]

/-! ### Replay envelopes -/

/-- `validate_audit_replay_binding`. -/
def validateAuditReplayBinding (replay : Value) (requireStable : Bool) : DurabilityResult Unit := do
  let binding ← okOr (replay.get "audit_binding")
    (.invalidEvent "terminal audit replay is missing its audit delivery binding")
  let binding ← okOr (decodeAuditReplayBinding binding)
    (.invalidEvent "terminal audit replay delivery binding is malformed")
  let validDeliveryId := binding.deliveryId.all fun id => id ≠ "" && !hasControl id
  refuseIf (binding.schemaVersion ≠ 1 ∨ binding.maxPreviewBytes = 0 ∨ validDeliveryId = false)
    (.invalidEvent "terminal audit replay delivery binding is malformed")
  refuseIf (requireStable ∧ (binding.deliveryId.isNone ∨ binding.sinkCount = 0 ∨
      binding.failureMode ≠ .failClosed))
    (.invalidEvent "terminal audit SafeToRetry requires a stable fail-closed delivery binding")

/-- The receipt's `usage` has exactly the five counters, each a `u64`. -/
def isExactUsage (usage : Value) : Bool :=
  usage.asObject.any fun fields =>
    fields.length = 5 && fields.all (fun field => usageFields.contains field.1) &&
      (decodeUsage usage).isSome

/-- `validate_replay_value`. -/
def validateReplayValue (replay : Value) (expectedKind : String) : DurabilityResult Unit := do
  refuseIf (replay.isObject = false)
    (.invalidEvent "terminal audit replay envelope must be an object")
  let valid := replay.getU64 "schema_version" = some 1 && replay.getStr "kind" = some expectedKind &&
    (replay.getU64 "run_stopped_sequence").any (0 < ·) &&
    (replay.get "terminal_receipt").any Value.isObject &&
    (replay.getStr "audit_reason").any (· ≠ "") && (replay.getU64 "audit_turns").isSome
  refuseIf (valid = false)
    (.invalidEvent "terminal audit replay envelope is incomplete or malformed")
  refuseIf (decodeRunStoppedAuditReplayEnvelope replay).isNone
    (.invalidEvent "terminal audit replay envelope contains unsupported fields or values")
  validateAuditReplayBinding replay false
  let receipt ← okOr ((replay.get "terminal_receipt").filter Value.isObject)
    (.invalidEvent "terminal audit replay receipt is malformed")
  -- `usize::try_from(turns)` never fails on a 64-bit target
  let validReceipt := (receipt.getU64 "turns").isSome && (receipt.getStr "reason").any (· ≠ "") &&
    (receipt.get "usage").any isExactUsage
  refuseIf (validReceipt = false) (.invalidEvent "terminal audit replay receipt is malformed")
  refuseIf (expectedKind ≠ "recovery" ∧
      (replay.getU64 "audit_turns" ≠ receipt.getU64 "turns" ∨
        replay.getStr "audit_reason" ≠ receipt.getStr "reason"))
    (.invalidEvent "terminal audit replay event does not match its terminal receipt")

/-- `json!({"accepted": true})`. -/
def acceptedOutput : Value := .ofFields [("accepted", .bool true)]

/-- `validate_terminal_replay_input`. -/
def validateTerminalReplayInput (record : ActivityRecord) (recovery : Bool) (runId : String) :
    DurabilityResult Unit := do
  let kind := if recovery then "recovery" else "canonical"
  let activityId := record.definition.activityId
  let replay ← okOr (record.definition.input.get "replay")
    (.invalidEvent "legacy/hash-only terminal audit intent cannot be retried automatically; reconcile it as Completed with the exact accepted output")
  refuseIf (replay.isObject = false)
    (.invalidEvent "reserved audit replay envelope must be an object")
  let invocationId := replay.getStr "invocation_id"
  let logicalKeyMatches := if recovery then invocationId = some record.definition.logicalKey
    else record.definition.logicalKey = "terminal"
  let valid := replay.getU64 "schema_version" = some 1 &&
    (replay.getStr "audit_run_id").any (fun id => id = runId && id ≠ "" && !hasControl id) &&
    invocationId.any (fun id => id ≠ "" && !hasControl id) &&
    (replay.getU64 "run_stopped_sequence").any (0 < ·) &&
    (replay.get "terminal_receipt").any Value.isObject &&
    (replay.getStr "audit_reason").any (· ≠ "") && (replay.getU64 "audit_turns").isSome &&
    replay.getStr "kind" = some kind && logicalKeyMatches
  refuseIf (valid = false)
    (.invalidEvent s!"reserved audit replay envelope is invalid for `{activityId}`")
  validateReplayValue replay kind
  let expectedOutput ← if recovery then .ok acceptedOutput else
    okOr (replay.get "terminal_receipt")
      (.invalidEvent "terminal audit replay is missing its terminal receipt")
  let expectedHash ← okOr (record.definition.input.getStr "expected_output_hash")
    (.invalidEvent "typed terminal audit replay is missing its expected output hash")
  refuseIf (stableInputHash expectedOutput ≠ expectedHash)
    (.invalidEvent "terminal audit replay expected output hash is invalid")
  validateAuditReplayBinding replay true

/-! ### Completions -/

/-- `validate_reserved_audit_completion_output`. -/
def validateReservedAuditCompletionOutput (record : ActivityRecord) (output : Value) :
    DurabilityResult Unit :=
  let definition := record.definition
  if isTerminalAuditStep definition.stableStepId = false then .ok () else do
    refuseIf (definition.stableStepId = runStoppedAuditStepId ∧ definition.logicalKey ≠ "terminal")
      (.invalidEvent "canonical terminal audit must use the reserved terminal logical key")
    refuseIf (definition.stableStepId = runStoppedAuditStepId ∧
        (definition.input.get "legacy_resolution").isSome)
      (.invalidEvent "legacy terminal audit bridge is completion-only through explicit reconciliation")
    let expectedHash := (definition.input.get "expected_output_hash").or
      (if definition.stableStepId = runStoppedAuditStepId then definition.input.get "input_hash"
        else none)
    let expectedHash ← okOr (expectedHash.bind Value.asStr)
      (.invalidEvent "reserved terminal audit is missing its expected output hash")
    refuseIf (stableInputHash output ≠ expectedHash)
      (.invalidEvent "reserved terminal audit completion does not match its delivery intent")

/-! ### The v1 terminal audit, and its bridge -/

/-- The attempt is the accepted, or the rejected, delivery that a source names. -/
def matchesLegacySource (attempt : ActivityAttempt) : Option String → Bool
  | some expectedHash => attempt.status = .completed && attempt.outputHash = some expectedHash &&
      attempt.output.map stableInputHash = some expectedHash
  | none => (attempt.status = .failed || attempt.status = .cancelled) && attempt.output.isNone &&
      attempt.outputHash.isNone

/-- `validate_legacy_resolution_source`. -/
def validateLegacyResolutionSource (activities : BTreeMap ActivityRecord)
    (definition : ActivityDefinition) : DurabilityResult Unit := do
  let input ← okOr definition.input.asObject
    (.invalidEvent "legacy terminal resolution input must be an object")
  let sourceValue ← okOr (Value.field? "legacy_resolution" input)
    (.invalidEvent "legacy terminal resolution input is missing its source binding")
  let source ← okOr (decodeLegacyResolutionSource sourceValue)
    (.invalidEvent "legacy terminal resolution source binding is malformed")
  refuseIf (input.length ≠ 1 ∨ source.schemaVersion ≠ legacyRunStoppedResolutionSchemaVersion ∨
      source.kind ≠ legacyRunStoppedResolutionKind ∨ source.sourceActivityId = "" ∨
      hasControl source.sourceActivityId ∨ source.sourceAttempt = 0 ∨
      source.sourceStartedSequence = 0)
    (.invalidEvent "legacy terminal resolution source binding is malformed")
  let legacy ← okOr (activities[source.sourceActivityId]?.filter fun record =>
      record.definition.stableStepId = legacyRunStoppedAuditStepId &&
        record.definition.logicalKey = "terminal")
    (.invalidEvent "legacy terminal resolution source activity was not found")
  let attempt ← okOr (legacy.latestAttempt.filter fun attempt =>
      attempt.attempt = source.sourceAttempt &&
        attempt.startedSequence = source.sourceStartedSequence)
    (.invalidEvent "legacy terminal resolution source attempt does not match")
  refuseIf (matchesLegacySource attempt source.sourceOutputHash = false)
    (.invalidEvent "legacy terminal resolution source fingerprint does not match")

/-- `validate_legacy_source_attestation`. -/
def validateLegacySourceAttestation (source : ActivityRecord) (output : Value) :
    DurabilityResult Unit := do
  let attempt ← okOr source.latestAttempt
    (.invalidEvent "legacy RunStopped source has no attempt to attest")
  let resolution ← okOr (decodeLegacyResolutionEnvelope output)
    (.invalidEvent "legacy RunStopped source attestation is malformed")
  refuseIf (source.definition.stableStepId ≠ legacyRunStoppedAuditStepId ∨
      source.definition.logicalKey ≠ "terminal" ∨ attempt.status = .completed ∨
      resolution.schemaVersion ≠ legacyRunStoppedResolutionSchemaVersion ∨
      resolution.kind ≠ legacyRunStoppedResolutionKind ∨
      resolution.sourceActivityId ≠ source.definition.activityId ∨
      resolution.sourceAttempt ≠ attempt.attempt ∨
      resolution.sourceStartedSequence ≠ attempt.startedSequence ∨
      resolution.sourceOutputHash ≠ none ∨ resolution.terminalReceipt.reason = "")
    (.invalidEvent "legacy RunStopped source attestation does not match its durable attempt")

/-- `validate_legacy_terminal_resolution`. -/
def validateLegacyTerminalResolution (activities : BTreeMap ActivityRecord)
    (bridge : ActivityRecord) (output : Value) : DurabilityResult Unit := do
  refuseIf (bridge.definition.stableStepId ≠ runStoppedAuditStepId ∨
      bridge.definition.logicalKey ≠ "terminal")
    (.invalidEvent "legacy terminal resolution must use the canonical terminal bridge")
  validateLegacyResolutionSource activities bridge.definition
  let source ← okOr ((bridge.definition.input.get "legacy_resolution").bind
      decodeLegacyResolutionSource)
    (.invalidEvent "legacy terminal resolution bridge has a malformed source binding")
  let resolution ← okOr (decodeLegacyResolutionEnvelope output)
    (.invalidEvent "legacy terminal resolution envelope is malformed")
  refuseIf (resolution.schemaVersion ≠ legacyRunStoppedResolutionSchemaVersion ∨
      resolution.kind ≠ legacyRunStoppedResolutionKind ∨
      resolution.sourceActivityId ≠ source.sourceActivityId ∨
      resolution.sourceAttempt ≠ source.sourceAttempt ∨
      resolution.sourceStartedSequence ≠ source.sourceStartedSequence ∨
      resolution.sourceOutputHash ≠ source.sourceOutputHash ∨
      resolution.terminalReceipt.reason = "")
    (.invalidEvent "legacy terminal resolution does not match its accepted source receipt")

/-! ### Scheduling a terminal audit -/

/-- The lifecycle of the invocation, while it is running. -/
def isActiveLifecycle (invocationId : String) (record : ActivityRecord) : Bool :=
  record.definition.stableStepId = invocationLifecycleStepId && isReservedAuditActivity record &&
    record.definition.logicalKey = invocationId && record.isRunning

/-- A completed canonical audit whose receipt a recovery replays. -/
def isRecoverableReceipt (activities : BTreeMap ActivityRecord) (replay : Value)
    (invocationId : String) (record : ActivityRecord) : Bool :=
  record.definition.stableStepId = runStoppedAuditStepId &&
    record.definition.logicalKey = "terminal" &&
    record.completedOutput.any fun output =>
      if (record.definition.input.get "legacy_resolution").isSome then
        (decodeLegacyResolutionEnvelope output).any fun resolution =>
          (validateLegacyTerminalResolution activities record output).isOk &&
            replay.get "terminal_receipt" = some (encodeRunStoppedReceipt resolution.terminalReceipt)
      else
        ((record.definition.input.get "replay").bind (·.getStr "invocation_id") ≠ some invocationId) &&
          (validateReservedAuditCompletionOutput record output).isOk &&
          replay.get "terminal_receipt" = some output

/-- `validate_terminal_audit_schedule_input`. -/
def validateTerminalAuditScheduleInput (activities : BTreeMap ActivityRecord)
    (definition : ActivityDefinition) (kind runId : String) : DurabilityResult Unit := do
  let input ← okOr definition.input.asObject
    (.invalidEvent "terminal audit input must be an object")
  refuseIf (input.length ≠ 2)
    (.invalidEvent "terminal audit input must contain only replay and expected output hash")
  let replay ← okOr (Value.field? "replay" input)
    (.invalidEvent "terminal audit input is missing its replay envelope")
  validateReplayValue replay kind
  refuseIf (replay.getStr "audit_run_id" ≠ some runId)
    (.invalidEvent "terminal audit replay does not belong to the durable run")
  let invocationId ← okOr ((replay.getStr "invocation_id").filter fun id =>
      id ≠ "" && !hasControl id)
    (.invalidEvent "terminal audit replay has an invalid invocation identity")
  refuseIf (kind = "recovery" ∧ invocationId ≠ definition.logicalKey)
    (.invalidEvent "recovery terminal audit logical key does not match its invocation")
  let matchingLifecycles := activities.values.filter fun record =>
    isActiveLifecycle invocationId record &&
      record.definition.input.getStr "audit_run_id" = some runId
  refuseIf (matchingLifecycles.length ≠ 1)
    (.invalidEvent "terminal audit schedule requires one exact active invocation lifecycle")
  let matchingLifecycleId := (activities.values.find? (isActiveLifecycle invocationId)).map
    (·.definition.activityId)
  refuseIf (activities.values.any fun record =>
      record.definition.activityId ≠ matchingLifecycleId.getD "" && record.isRunning)
    (.invalidEvent "terminal audit schedule is blocked by another running activity")
  let expectedOutput ← if kind = "recovery" then .ok acceptedOutput else
    okOr (replay.get "terminal_receipt")
      (.invalidEvent "canonical terminal audit replay has no terminal receipt")
  refuseIf ((Value.field? "expected_output_hash" input).bind Value.asStr ≠
      some (stableInputHash expectedOutput))
    (.invalidEvent "terminal audit delivery intent has an invalid expected output hash")
  refuseIf (kind = "recovery" ∧
      activities.values.any (isRecoverableReceipt activities replay invocationId) = false)
    (.invalidEvent "recovery terminal audit requires the exact completed canonical receipt")

/-- The duplicate that `validate_reserved_audit_schedule` looks for. -/
def isDuplicateReserved (definition : ActivityDefinition) (record : ActivityRecord) : Bool :=
  record.definition.stableStepId = definition.stableStepId &&
    (if definition.stableStepId = runStoppedAuditStepId then record.definition.logicalKey = "terminal"
      else record.definition.logicalKey = definition.logicalKey) &&
    isReservedAuditActivity record

/-- `validate_reserved_audit_schedule`. -/
def validateReservedAuditSchedule (runId branchId : String) (activities : BTreeMap ActivityRecord)
    (definition : ActivityDefinition) : DurabilityResult Unit := do
  let stableStepId := definition.stableStepId
  refuseIf (stableStepId = legacyRunStoppedAuditStepId)
    (.invalidEvent "new v2 runs cannot schedule the quarantined v1 RunStopped audit activity")
  if isV2ReservedStep stableStepId = false then .ok () else do
    refuseIf (definition.activityId ≠
        stableIdentifier "activity" [runId, branchId, stableStepId, definition.logicalKey] ∨
        definition.sideEffectClass ≠ .reconcileRequired ∨ definition.idempotencyKey.isSome)
      (.invalidEvent "reserved audit activity has a non-canonical durable definition")
    refuseIf (activities.values.any (isDuplicateReserved definition))
      (.invalidEvent "reserved audit activity identity was scheduled more than once")
    if stableStepId = runStoppedAuditStepId then do
      refuseIf (definition.logicalKey ≠ "terminal")
        (.invalidEvent "canonical terminal audit must use the reserved terminal logical key")
      if (definition.input.get "legacy_resolution").isSome then
        validateLegacyResolutionSource activities definition
      else validateTerminalAuditScheduleInput activities definition "canonical" runId
    else if stableStepId = recoveryRunStoppedAuditStepId then
      validateTerminalAuditScheduleInput activities definition "recovery" runId
    else do
      let input ← okOr definition.input.asObject
        (.invalidEvent "invocation lifecycle input must be an object")
      refuseIf (input.length ≠ 3 ∨ definition.input.getU64 "schema_version" ≠ some 1 ∨
          definition.input.getStr "audit_run_id" ≠ some runId ∨
          definition.input.getStr "invocation_id" ≠ some definition.logicalKey ∨
          definition.logicalKey = "" ∨ hasControl definition.logicalKey)
        (.invalidEvent "invocation lifecycle durable identity is malformed")

/-! ### The lifecycle of an invocation -/

/-- The invocation that a terminal audit's replay names. -/
def replayInvocationId (record : ActivityRecord) : Option String :=
  (record.definition.input.get "replay").bind (·.getStr "invocation_id")

/-- `validate_lifecycle_not_started_output`. -/
def validateLifecycleNotStartedOutput (runId : String) (activities : BTreeMap ActivityRecord)
    (record : ActivityRecord) (output : Value) (boundarySequence : Nat)
    (requireSyntheticOrphan : Bool) : DurabilityResult Unit :=
  let expectedRunId := record.definition.input.getStr "audit_run_id"
  let expectedInvocationId := record.definition.input.getStr "invocation_id"
  let exactShape := output.asObject.any (·.length = 3)
  let linkedTerminalMarker := activities.values.any fun candidate =>
    isTerminalAuditStep candidate.definition.stableStepId &&
      replayInvocationId candidate = expectedInvocationId
  let postFenceAttempt := activities.values.any fun candidate =>
    candidate.definition.activityId ≠ record.definition.activityId &&
      candidate.attempts.any (boundarySequence < ·.startedSequence)
  let syntheticOrphan := record.latestAttempt.any fun attempt =>
    attempt.status = .reconcileRequired && attempt.finishedSequence = some attempt.startedSequence
  refuseIf (exactShape = false ∨ expectedRunId ≠ some runId ∨
      output.getStr "audit_run_id" ≠ expectedRunId ∨
      output.getStr "invocation_id" ≠ expectedInvocationId ∨ linkedTerminalMarker ∨
      postFenceAttempt ∨ (requireSyntheticOrphan ∧ syntheticOrphan = false))
    (.invalidEvent
      "unstarted invocation lifecycle completion has invalid identity or post-fence work")

/-- The terminal audit that a lifecycle's replay is linked to. -/
def isLinkedAudit (kind expectedInvocationId : String) (identity : Value)
    (candidate : ActivityRecord) : Bool :=
  let definition := candidate.definition
  if definition.stableStepId = runStoppedAuditStepId then
    kind = "canonical" && definition.input.get "replay" = some identity &&
      definition.logicalKey = "terminal"
  else if definition.stableStepId = recoveryRunStoppedAuditStepId then
    kind = "recovery" && definition.input.get "replay" = some identity &&
      definition.logicalKey = expectedInvocationId
  else false

/-- A linked audit was delivered, or its retry is authorized. -/
def checkLinkedDelivery (status : Option String) (kind runId : String)
    (linkedAudit : Option ActivityRecord) : DurabilityResult Bool :=
  match linkedAudit with
  | none => .ok false
  | some candidate =>
    if status = some "audit_closed" then
      match candidate.completedOutput with
      | some acceptedOutput => do
        validateReservedAuditCompletionOutput candidate acceptedOutput
        pure true
      | none => .ok false
    else if status = some "terminal_replay_authorized" then
      if candidate.latestAttempt.any fun attempt =>
          attempt.status = .failed && attempt.retryable && !attempt.effectAmbiguous then do
        validateTerminalReplayInput candidate (kind = "recovery") runId
        pure true
      else .ok false
    else .ok false

/-- `validate_lifecycle_reconciliation_output`. -/
def validateLifecycleReconciliationOutput (runId : String) (activities : BTreeMap ActivityRecord)
    (record : ActivityRecord) (output : Value) : DurabilityResult Unit := do
  let expectedRunId ← okOr (record.definition.input.getStr "audit_run_id")
    (.invalidEvent "invocation lifecycle is missing its durable audit run identity")
  refuseIf (expectedRunId ≠ runId)
    (.invalidEvent "invocation lifecycle audit identity does not match its durable run")
  let expectedInvocationId ← okOr (record.definition.input.getStr "invocation_id")
    (.invalidEvent "invocation lifecycle is missing its durable audit invocation identity")
  let status := output.getStr "status"
  refuseIf (¬ (status = some "audit_closed" ∨ status = some "terminal_replay_authorized"))
    (.invalidEvent "ambiguous invocation lifecycle reconciliation requires an explicit audit_closed outcome")
  let identity ← okOr (output.get "replay")
    (.invalidEvent "closed invocation lifecycle reconciliation requires a replay envelope")
  refuseIf (identity.getStr "audit_run_id" ≠ some expectedRunId ∨
      identity.getStr "invocation_id" ≠ some expectedInvocationId)
    (.invalidEvent
      "invocation lifecycle reconciliation identity does not match its durable fence")
  let kind ← okOr (identity.getStr "kind")
    (.invalidEvent "invocation lifecycle replay is missing its delivery kind")
  refuseIf (¬ (kind = "canonical" ∨ kind = "recovery" ∨ kind = "direct"))
    (.invalidEvent "invocation lifecycle replay has an unsupported delivery kind")
  validateReplayValue identity kind
  let linkedAudit := activities.values.find? (isLinkedAudit kind expectedInvocationId identity)
  refuseIf ((kind = "canonical" ∨ kind = "recovery") ∧ linkedAudit.isNone)
    (.invalidEvent
      "invocation lifecycle replay does not match its linked terminal audit activity")
  if kind = "canonical" ∨ kind = "recovery" then do
    let delivered ← checkLinkedDelivery status kind expectedRunId linkedAudit
    refuseIf (delivered = false)
      (.invalidEvent "linked terminal audit lifecycle must record either an accepted delivery or an authorized retry")
  else do
    refuseIf (status ≠ some "audit_closed")
      (.invalidEvent "direct invocation lifecycle reconciliation requires an audit_closed outcome")
    refuseIf (activities.values.any fun candidate =>
        isTerminalAuditStep candidate.definition.stableStepId &&
          replayInvocationId candidate = some expectedInvocationId)
      (.invalidEvent "invocation lifecycle must use the replay envelope from its linked terminal audit activity")

/-! ### Starting, completing and reconciling -/

/-- A closed lifecycle that authorizes a terminal audit's retry. -/
def authorizesRetry (runId : String) (activities : BTreeMap ActivityRecord)
    (replay : Option Value) (lifecycle : ActivityRecord) : Bool :=
  lifecycle.definition.stableStepId = invocationLifecycleStepId &&
    isReservedAuditActivity lifecycle &&
    replay.bind (·.getStr "invocation_id") = some lifecycle.definition.logicalKey &&
    lifecycle.completedOutput.any fun output =>
      output.getStr "status" = some "terminal_replay_authorized" && output.get "replay" = replay &&
        (validateLifecycleReconciliationOutput runId activities lifecycle output).isOk

/-- `validate_reserved_audit_attempt_start`. -/
def validateReservedAuditAttemptStart (runId : String) (activities : BTreeMap ActivityRecord)
    (record : ActivityRecord) : DurabilityResult Unit :=
  let definition := record.definition
  if isReservedAuditActivity record = false then .ok ()
  else if definition.stableStepId = legacyRunStoppedAuditStepId then
    .error (.invalidEvent "quarantined v1 RunStopped audit cannot start a new v2 attempt")
  else if definition.stableStepId = invocationLifecycleStepId then
    refuseIf (definition.input.getStr "audit_run_id" ≠ some runId)
      (.invalidEvent "invocation lifecycle attempt does not belong to the durable run")
  else if definition.stableStepId = runStoppedAuditStepId ∧
      (definition.input.get "legacy_resolution").isSome then
    validateLegacyResolutionSource activities definition
  else
    let recovery : Bool := definition.stableStepId ≠ runStoppedAuditStepId
    if record.attempts.isEmpty then
      validateTerminalAuditScheduleInput activities definition
        (if recovery then "recovery" else "canonical") runId
    else do
      validateTerminalReplayInput record recovery runId
      refuseIf (activities.values.any
          (authorizesRetry runId activities (definition.input.get "replay")) = false)
        (.invalidEvent "terminal audit retry has no exact authorized lifecycle closure")

/-- `validate_reserved_audit_attempt_completion`. -/
def validateReservedAuditAttemptCompletion (runId : String) (activities : BTreeMap ActivityRecord)
    (record : ActivityRecord) (output : Value) : DurabilityResult Unit :=
  let stableStepId := record.definition.stableStepId
  if isReservedAuditActivity record = false then .ok ()
  else if stableStepId = legacyRunStoppedAuditStepId then
    .error (.invalidEvent "quarantined v1 RunStopped audit cannot receive a new v2 completion")
  else if isTerminalAuditStep stableStepId then validateReservedAuditCompletionOutput record output
  else if output.getStr "status" = some "not_started" then do
    let attempt ← okOr record.latestAttempt
      (.invalidEvent "unstarted invocation lifecycle has no durable attempt")
    validateLifecycleNotStartedOutput runId activities record output attempt.startedSequence false
  else if output.getStr "status" = some "audit_closed" then
    validateLifecycleReconciliationOutput runId activities record output
  else if output.getStr "status" = some "terminal_replay_authorized" then
    .error (.invalidEvent "terminal replay authorization requires an ActivityReconciled event")
  else
    .error (.invalidEvent "invocation lifecycle completion has an unsupported outcome")

/-- `validate_reserved_audit_reconciliation`. -/
def validateReservedAuditReconciliation (runId : String) (activities : BTreeMap ActivityRecord)
    (record : ActivityRecord) (resolution : ActivityReconciliation)
    (lifecycleScheduleSequence : Option Nat) : DurabilityResult Unit :=
  let stableStepId := record.definition.stableStepId
  let activityId := record.definition.activityId
  if isReservedAuditActivity record = false then .ok ()
  else if stableStepId = legacyRunStoppedAuditStepId then
    match resolution with
    | .completed output => validateLegacySourceAttestation record output
    | .safeToRetry | .cancelled => .error (.invalidEvent
        "quarantined v1 RunStopped audit accepts only a typed completed operator attestation")
  else match resolution with
    | .cancelled => .error (.invalidEvent
        s!"reserved fail-closed audit activity `{activityId}` cannot be reconciled as cancelled")
    | .safeToRetry =>
      if stableStepId = invocationLifecycleStepId then .error (.invalidEvent
        "invocation audit lifecycle reconciliation is completion-only; reconcile the external RunStopped outcome explicitly")
      else
        validateTerminalReplayInput record (stableStepId = recoveryRunStoppedAuditStepId) runId
    | .completed output =>
      if stableStepId = invocationLifecycleStepId then
        if output.getStr "status" = some "not_started" then do
          let boundarySequence ← okOr lifecycleScheduleSequence
            (.invalidEvent "orphan invocation lifecycle schedule boundary was not found")
          validateLifecycleNotStartedOutput runId activities record output boundarySequence true
        else validateLifecycleReconciliationOutput runId activities record output
      else if stableStepId = runStoppedAuditStepId ∧
          (record.definition.input.get "legacy_resolution").isSome then
        validateLegacyTerminalResolution activities record output
      else validateReservedAuditCompletionOutput record output

/-! ### Closing a run -/

/-- A completed bridge that accounts for a v1 terminal audit. -/
def bridgesLegacy (activities : BTreeMap ActivityRecord) (legacy bridge : ActivityRecord) : Bool :=
  bridge.completedOutput.any fun output =>
    (validateLegacyTerminalResolution activities bridge output).isOk &&
      (bridge.definition.input.get "legacy_resolution").bind (·.getStr "source_activity_id") =
        some legacy.definition.activityId

/-- A reserved activity that keeps a run from becoming terminal. -/
def isOpenAudit (activities : BTreeMap ActivityRecord) (record : ActivityRecord) : Bool :=
  isReservedAuditActivity record &&
    if record.definition.stableStepId = legacyRunStoppedAuditStepId then
      !activities.values.any (bridgesLegacy activities record)
    else record.completedOutput.isNone

/-- The terminal marker: a reserved terminal audit, or its recovery. -/
def isTerminalMarker (record : ActivityRecord) : Bool :=
  isTerminalAuditStep record.definition.stableStepId && isReservedAuditActivity record

end

end AikitRuntime.Durability
