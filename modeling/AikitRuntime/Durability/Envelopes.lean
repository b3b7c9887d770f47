import AikitRuntime.Durability.Records

/-!
# Envelopes inside the log's JSON

Structured values that travel as JSON and are read back: the envelope of a typed
approval, the clock envelope of its resolution, and the receipts that reserved audit
activities carry. Each has its struct, its decoder (fields in the order of the source,
with the struct's own rules for absent and unknown fields), and its encoder where the
code writes one.
-/

namespace AikitRuntime.Durability

open Library Decoder

/-- `DURABLE_APPROVAL_ENVELOPE_KEY`. -/
def durableApprovalEnvelopeKey : String := "$aikit_durable_approval"

/-- `DURABLE_RESOLUTION_ENVELOPE_KEY`. -/
def durableResolutionEnvelopeKey : String := "$aikit_durable_resolution"

/-- `LEGACY_RUN_STOPPED_RESOLUTION_SCHEMA_VERSION`. -/
def legacyRunStoppedResolutionSchemaVersion : Nat := 1

/-- `LEGACY_RUN_STOPPED_RESOLUTION_KIND`. -/
def legacyRunStoppedResolutionKind : String := "legacy_run_stopped_v1"

def ofNat (n : Nat) : Value := .number (.posInt n)

/-- The entry of a field with `skip_serializing_if = "Option::is_none"`. -/
def entryIfSome (key : String) (value : Option Value) : List (String × Value) :=
  (value.map fun v => (key, v)).toList

/-! ### Governance bindings -/

/-- `GovernanceBinding`'s `Deserialize`: the wire struct, and then `validate`. -/
def decodeGovernanceBinding [Digest] : Decoder GovernanceBinding := fun value => do
  let binding ← record (some ["schema_version", "policy_snapshot_hash", "tenant_id", "agent_id",
      "run_id", "binding_hash"]) (do
    let schemaVersion ← required "schema_version" u32
    let policySnapshotHash ← required "policy_snapshot_hash" text
    let tenantId ← defaulted "tenant_id" (nullable text) none
    let agentId ← defaulted "agent_id" (nullable text) none
    let runId ← required "run_id" text
    let bindingHash ← required "binding_hash" text
    pure (⟨schemaVersion, policySnapshotHash, tenantId, agentId, runId, bindingHash⟩ :
      GovernanceBinding)) value
  match binding.validate with
  | .ok () => some binding
  | .error _ => none

def encodeGovernanceBinding (b : GovernanceBinding) : Value :=
  .ofFields ([("schema_version", ofNat b.schemaVersion),
      ("policy_snapshot_hash", .string b.policySnapshotHash)] ++
    entryIfSome "tenant_id" (b.tenantId.map .string) ++
    entryIfSome "agent_id" (b.agentId.map .string) ++
    [("run_id", .string b.runId), ("binding_hash", .string b.bindingHash)])

/-! ### Typed approvals -/

/-- `DurableApprovalKind`, by its serialized names. -/
def approvalKindNames : List (String × DurableApprovalKind) :=
  [("confirmation", .confirmation), ("missing_input", .missingInput),
    ("output_review", .outputReview), ("edit_retry", .editRetry)]

def encodeApprovalKind : DurableApprovalKind → Value
  | .confirmation => .string "confirmation"
  | .missingInput => .string "missing_input"
  | .outputReview => .string "output_review"
  | .editRetry => .string "edit_retry"

structure DurableApprovalEnvelope where
  schemaVersion : Nat
  kind : DurableApprovalKind
  payload : Value
  policySnapshotHash : Option String
  governanceBinding : Option GovernanceBinding
  requestedAtUnixMs : Nat
  expiresAtUnixMs : Nat
  deriving DecidableEq

def decodeApprovalEnvelope [Digest] : Decoder DurableApprovalEnvelope :=
  record (some ["schema_version", "kind", "payload", "policy_snapshot_hash", "governance_binding",
      "requested_at_unix_ms", "expires_at_unix_ms"]) do
    let schemaVersion ← required "schema_version" u32
    let kind ← required "kind" (variant approvalKindNames)
    let payload ← required "payload" value
    let policySnapshotHash ← defaulted "policy_snapshot_hash" (nullable text) none
    let governanceBinding ← defaulted "governance_binding" (nullable decodeGovernanceBinding) none
    let requestedAtUnixMs ← required "requested_at_unix_ms" u64
    let expiresAtUnixMs ← required "expires_at_unix_ms" u64
    pure ⟨schemaVersion, kind, payload, policySnapshotHash, governanceBinding, requestedAtUnixMs,
      expiresAtUnixMs⟩

/-- `json!({ DURABLE_APPROVAL_ENVELOPE_KEY: envelope })`. -/
def encodeApprovalEnvelope (e : DurableApprovalEnvelope) : Value :=
  .ofFields [(durableApprovalEnvelopeKey, .ofFields
    ([("schema_version", ofNat e.schemaVersion), ("kind", encodeApprovalKind e.kind),
        ("payload", e.payload)] ++
      entryIfSome "policy_snapshot_hash" (e.policySnapshotHash.map .string) ++
      entryIfSome "governance_binding" (e.governanceBinding.map encodeGovernanceBinding) ++
      [("requested_at_unix_ms", ofNat e.requestedAtUnixMs),
        ("expires_at_unix_ms", ofNat e.expiresAtUnixMs)]))]

structure DurableResolutionEnvelope where
  schemaVersion : Nat
  resolvedAtUnixMs : Nat
  timedOut : Bool
  response : Option Value
  deriving DecidableEq

def decodeResolutionEnvelope : Decoder DurableResolutionEnvelope :=
  record (some ["schema_version", "resolved_at_unix_ms", "timed_out", "response"]) do
    let schemaVersion ← required "schema_version" u32
    let resolvedAtUnixMs ← required "resolved_at_unix_ms" u64
    let timedOut ← required "timed_out" flag
    let response ← defaulted "response" (nullable value) none
    pure ⟨schemaVersion, resolvedAtUnixMs, timedOut, response⟩

/-- `json!({ DURABLE_RESOLUTION_ENVELOPE_KEY: envelope })`. -/
def encodeResolutionEnvelope (e : DurableResolutionEnvelope) : Value :=
  .ofFields [(durableResolutionEnvelopeKey, .ofFields
    ([("schema_version", ofNat e.schemaVersion), ("resolved_at_unix_ms", ofNat e.resolvedAtUnixMs),
        ("timed_out", .bool e.timedOut)] ++ entryIfSome "response" e.response))]

/-- `json!({"reason": "approval_timeout"})`. -/
def approvalTimeoutResponse : Value := .ofFields [("reason", .string "approval_timeout")]

/-! ### Receipts of reserved audit activities -/

/-- `Usage`. -/
structure Usage where
  inputTokens : Nat
  outputTokens : Nat
  cacheCreationInputTokens : Nat
  cacheReadInputTokens : Nat
  reasoningTokens : Nat
  deriving DecidableEq

/-- The names of `Usage`'s fields. -/
def usageFields : List String :=
  ["input_tokens", "output_tokens", "cache_creation_input_tokens", "cache_read_input_tokens",
    "reasoning_tokens"]

def decodeUsage : Decoder Usage := record none do
  let inputTokens ← defaulted "input_tokens" u64 0
  let outputTokens ← defaulted "output_tokens" u64 0
  let cacheCreationInputTokens ← defaulted "cache_creation_input_tokens" u64 0
  let cacheReadInputTokens ← defaulted "cache_read_input_tokens" u64 0
  let reasoningTokens ← defaulted "reasoning_tokens" u64 0
  pure ⟨inputTokens, outputTokens, cacheCreationInputTokens, cacheReadInputTokens, reasoningTokens⟩

/-- `DurableRunStoppedReceipt`. -/
structure RunStoppedReceipt where
  turns : Nat
  reason : String
  usage : Usage
  deriving DecidableEq

def decodeRunStoppedReceipt : Decoder RunStoppedReceipt :=
  record (some ["turns", "reason", "usage"]) do
    let turns ← required "turns" u64
    let reason ← required "reason" text
    let usage ← required "usage" decodeUsage
    pure ⟨turns, reason, usage⟩

/-- `serde_json::to_value(receipt)`. -/
def encodeRunStoppedReceipt (r : RunStoppedReceipt) : Value :=
  .ofFields [("turns", ofNat r.turns), ("reason", .string r.reason), ("usage", .ofFields
    [("input_tokens", ofNat r.usage.inputTokens), ("output_tokens", ofNat r.usage.outputTokens),
      ("cache_creation_input_tokens", ofNat r.usage.cacheCreationInputTokens),
      ("cache_read_input_tokens", ofNat r.usage.cacheReadInputTokens),
      ("reasoning_tokens", ofNat r.usage.reasoningTokens)])]

/-- `DurableRunStoppedAuditKind`. -/
inductive RunStoppedAuditKind where
  | canonical | recovery | direct
  deriving DecidableEq

inductive AuditPayloadPolicy where
  | metadataOnly | full
  deriving DecidableEq

inductive AuditFailureMode where
  | bestEffort | failClosed
  deriving DecidableEq

structure AuditReplayBinding where
  schemaVersion : Nat
  deliveryId : Option String
  sinkCount : Nat
  payloadPolicy : AuditPayloadPolicy
  failureMode : AuditFailureMode
  maxPreviewBytes : Nat
  deriving DecidableEq

def decodeAuditReplayBinding : Decoder AuditReplayBinding :=
  record (some ["schema_version", "delivery_id", "sink_count", "payload_policy", "failure_mode",
      "max_preview_bytes"]) do
    let schemaVersion ← required "schema_version" u32
    let deliveryId ← optional "delivery_id" text
    let sinkCount ← required "sink_count" u64
    let payloadPolicy ← required "payload_policy"
      (variant [("metadata_only", .metadataOnly), ("full", .full)])
    let failureMode ← required "failure_mode"
      (variant [("best_effort", .bestEffort), ("fail_closed", .failClosed)])
    let maxPreviewBytes ← required "max_preview_bytes" u64
    pure ⟨schemaVersion, deliveryId, sinkCount, payloadPolicy, failureMode, maxPreviewBytes⟩

/-- `DurableRunStoppedAuditReplayEnvelope`. -/
structure RunStoppedAuditReplayEnvelope where
  schemaVersion : Nat
  kind : RunStoppedAuditKind
  terminalReceipt : RunStoppedReceipt
  auditRunId : String
  invocationId : String
  runStoppedSequence : Nat
  auditTurns : Nat
  auditReason : String
  auditBinding : AuditReplayBinding
  deriving DecidableEq

def decodeRunStoppedAuditReplayEnvelope : Decoder RunStoppedAuditReplayEnvelope :=
  record (some ["schema_version", "kind", "terminal_receipt", "audit_run_id", "invocation_id",
      "run_stopped_sequence", "audit_turns", "audit_reason", "audit_binding"]) do
    let schemaVersion ← required "schema_version" u32
    let kind ← required "kind"
      (variant [("canonical", .canonical), ("recovery", .recovery), ("direct", .direct)])
    let terminalReceipt ← required "terminal_receipt" decodeRunStoppedReceipt
    let auditRunId ← required "audit_run_id" text
    let invocationId ← required "invocation_id" text
    let runStoppedSequence ← required "run_stopped_sequence" u64
    let auditTurns ← required "audit_turns" u64
    let auditReason ← required "audit_reason" text
    let auditBinding ← required "audit_binding" decodeAuditReplayBinding
    pure ⟨schemaVersion, kind, terminalReceipt, auditRunId, invocationId, runStoppedSequence,
      auditTurns, auditReason, auditBinding⟩

/-- `DurableLegacyRunStoppedResolutionSource`. -/
structure LegacyRunStoppedResolutionSource where
  schemaVersion : Nat
  kind : String
  sourceActivityId : String
  sourceAttempt : Nat
  sourceStartedSequence : Nat
  sourceOutputHash : Option String
  deriving DecidableEq

/-- The fields that a source and a resolution share, in order. -/
def legacyResolutionSourceFields : List String :=
  ["schema_version", "kind", "source_activity_id", "source_attempt", "source_started_sequence",
    "source_output_hash"]

def readLegacyResolutionSource : FieldReader LegacyRunStoppedResolutionSource := do
  let schemaVersion ← required "schema_version" u32
  let kind ← required "kind" text
  let sourceActivityId ← required "source_activity_id" text
  let sourceAttempt ← required "source_attempt" u32
  let sourceStartedSequence ← required "source_started_sequence" u64
  let sourceOutputHash ← optional "source_output_hash" text
  pure ⟨schemaVersion, kind, sourceActivityId, sourceAttempt, sourceStartedSequence, sourceOutputHash⟩

def decodeLegacyResolutionSource : Decoder LegacyRunStoppedResolutionSource :=
  record (some legacyResolutionSourceFields) readLegacyResolutionSource

/-- `DurableLegacyRunStoppedResolutionEnvelope`: a source's fields, and the attested receipt. -/
structure LegacyRunStoppedResolutionEnvelope extends LegacyRunStoppedResolutionSource where
  terminalReceipt : RunStoppedReceipt
  deriving DecidableEq

def decodeLegacyResolutionEnvelope : Decoder LegacyRunStoppedResolutionEnvelope :=
  record (some (legacyResolutionSourceFields ++ ["terminal_receipt"])) do
    let source ← readLegacyResolutionSource
    let terminalReceipt ← required "terminal_receipt" decodeRunStoppedReceipt
    pure { source with terminalReceipt }

/-! ### Approval payloads and resolutions -/

/-- `DecodedApprovalPayload`. -/
structure DecodedApprovalPayload where
  kind : DurableApprovalKind
  payload : Value
  policySnapshotHash : Option String
  governanceBinding : Option GovernanceBinding
  requestedAtUnixMs : Option Nat
  expiresAtUnixMs : Option Nat
  deriving DecidableEq

/-- `decode_approval_payload`. -/
def decodeApprovalPayload [Digest] (payload : Value) (eventSchemaVersion : Nat) :
    DurabilityResult DecodedApprovalPayload :=
  match payload.get durableApprovalEnvelopeKey with
  | none => .ok
    { kind := .confirmation, payload, policySnapshotHash := none, governanceBinding := none,
      requestedAtUnixMs := none, expiresAtUnixMs := none }
  | some envelope => do
    let envelope ← okOr (decodeApprovalEnvelope envelope)
      (.invalidEvent "invalid durable approval envelope")
    refuseIf (envelope.schemaVersion ≠ eventSchemaVersion)
      (.unsupportedSchema eventSchemaVersion envelope.schemaVersion)
    refuseIf (envelope.expiresAtUnixMs ≤ envelope.requestedAtUnixMs)
      (.invalidEvent "approval expiry must be after its request time")
    pure { kind := envelope.kind, payload := envelope.payload,
           policySnapshotHash := envelope.policySnapshotHash,
           governanceBinding := envelope.governanceBinding,
           requestedAtUnixMs := some envelope.requestedAtUnixMs,
           expiresAtUnixMs := some envelope.expiresAtUnixMs }

/-- The part of `validate_approval_resolution` about the clock. -/
def validateResolutionClock (approval : DurableApproval) (resolution : ApprovalResolution)
    (nowUnixMs : Option Nat) (timedOut : Bool) : DurabilityResult Unit :=
  let invalid (reason : String) : DurabilityError :=
    .invalidApprovalResolution approval.approvalId reason
  match approval.requestedAtUnixMs, approval.expiresAtUnixMs with
  | some requestedAt, some expiresAt => do
    let now ← okOr nowUnixMs (.approvalClockRequired approval.approvalId)
    refuseIf (now < requestedAt) (invalid "resolution predates the approval request")
    if timedOut then
      refuseIf (resolution.approved ∨ now < expiresAt)
        (invalid "timeout denial is before expiry or marked approved")
    else
      refuseIf (expiresAt ≤ now) (invalid "approval has timed out")
  | _, _ => refuseIf timedOut (invalid "legacy approval cannot carry a timeout resolution")

/-- The part of `validate_approval_resolution` about what an approval must answer. -/
def validateResolutionResponse (approval : DurableApproval) (response : Option Value) :
    DurabilityResult Unit :=
  let invalid (reason : String) : DurabilityError :=
    .invalidApprovalResolution approval.approvalId reason
  match approval.kind with
  | .missingInput =>
    refuseIf (response.all Value.isNull) (invalid "missing_input requires a non-null response")
  | .editRetry => do
    let action ← okOr (response.bind (·.getStr "action"))
      (invalid "edit_retry requires an edit or retry action")
    refuseIf (¬ (action = "edit" ∨ action = "retry"))
      (invalid "edit_retry action must be edit or retry")
    refuseIf (action = "edit" ∧ (response.bind (·.get "value")).isNone)
      (invalid "edit action requires a value")
  | .confirmation | .outputReview => .ok ()

/-- `validate_approval_resolution`. -/
def validateApprovalResolution (approval : DurableApproval) (resolution : ApprovalResolution)
    (nowUnixMs : Option Nat) (timedOut : Bool) : DurabilityResult Unit := do
  validateResolutionClock approval resolution nowUnixMs timedOut
  if resolution.approved then validateResolutionResponse approval resolution.response else .ok ()

/-- `DecodedResolutionPayload`. -/
structure DecodedResolutionPayload where
  response : Option Value
  resolvedAtUnixMs : Option Nat
  timedOut : Bool
  deriving DecidableEq

/-- `decode_resolution_payload`. -/
def decodeResolutionPayload (approval : DurableApproval) (approved : Bool)
    (response : Option Value) (eventSchemaVersion : Nat) :
    DurabilityResult DecodedResolutionPayload :=
  match approval.expiresAtUnixMs with
  | none => .ok { response, resolvedAtUnixMs := none, timedOut := false }
  | some _ => do
    let envelope ← okOr (response.bind (·.get durableResolutionEnvelopeKey))
      (.invalidApprovalResolution approval.approvalId
        "typed approval resolution is missing its trusted clock envelope")
    let envelope ← okOr (decodeResolutionEnvelope envelope)
      (.invalidApprovalResolution approval.approvalId "invalid resolution envelope")
    refuseIf (envelope.schemaVersion ≠ eventSchemaVersion)
      (.unsupportedSchema eventSchemaVersion envelope.schemaVersion)
    validateApprovalResolution approval
      { approvalId := approval.approvalId, approved, response := envelope.response }
      (some envelope.resolvedAtUnixMs) envelope.timedOut
    pure { response := envelope.response, resolvedAtUnixMs := some envelope.resolvedAtUnixMs,
           timedOut := envelope.timedOut }

end AikitRuntime.Durability
