import AikitRuntime.A2a.Messages

/-!
# What the A2A mapper stores

A message that is accepted leaves a receipt, a task, a dispatch that a host is to run, and an event that
is to be published; a cancellation leaves a control of its own. Each record names its owner, the subject
and the tenant of the principal whose request made it. An owner's keys are framed by lengths
(`scopedIndexKey`); the ids of events and cancellations are digests of what they are about.
-/

namespace AikitRuntime.A2a

open Library Durability Mcp

/-! ### Tasks -/

/-- `A2aTaskState`. -/
inductive A2aTaskState where
  | submitted | working | inputRequired | authRequired | completed | failed | cancelled | rejected
  deriving DecidableEq

namespace A2aTaskState

def json : A2aTaskState → Value
  | submitted => .string "TASK_STATE_SUBMITTED"
  | working => .string "TASK_STATE_WORKING"
  | inputRequired => .string "TASK_STATE_INPUT_REQUIRED"
  | authRequired => .string "TASK_STATE_AUTH_REQUIRED"
  | completed => .string "TASK_STATE_COMPLETED"
  | failed => .string "TASK_STATE_FAILED"
  | cancelled => .string "TASK_STATE_CANCELED"
  | rejected => .string "TASK_STATE_REJECTED"

/-- `{state:?}`. -/
def debug : A2aTaskState → String
  | submitted => "Submitted"
  | working => "Working"
  | inputRequired => "InputRequired"
  | authRequired => "AuthRequired"
  | completed => "Completed"
  | failed => "Failed"
  | cancelled => "Cancelled"
  | rejected => "Rejected"

/-- `A2aTaskState::is_terminal`. -/
def isTerminal : A2aTaskState → Bool
  | completed | failed | cancelled | rejected => true
  | submitted | working | inputRequired | authRequired => false

/-- The task waits for its client: `InputRequired` or `AuthRequired`. -/
def isWaiting : A2aTaskState → Bool
  | inputRequired | authRequired => true
  | _ => false

end A2aTaskState

open A2aTaskState in
/-- `valid_transition`. -/
def validTransition (current next : A2aTaskState) : Bool :=
  if current = next then !current.isTerminal
  else match current with
    | submitted => [working, rejected, cancelled].contains next
    | working => [inputRequired, authRequired, completed, failed, cancelled, rejected].contains next
    | inputRequired | authRequired => [working, failed, cancelled, rejected].contains next
    | completed | failed | cancelled | rejected => false

/-- A task that is over does not go on. -/
theorem live_of_validTransition {current next : A2aTaskState} (h : validTransition current next = true) :
    current.isTerminal = false := by
  revert h
  cases current <;> cases next <;> decide

/-- `A2aRunMapping`. -/
structure A2aRunMapping where
  contextId : String
  sessionId : String
  taskId : String
  runId : String
  messageId : String
  deriving DecidableEq

def A2aRunMapping.json (mapping : A2aRunMapping) : Value :=
  .ofFields [("context_id", .string mapping.contextId), ("session_id", .string mapping.sessionId),
    ("task_id", .string mapping.taskId), ("run_id", .string mapping.runId),
    ("message_id", .string mapping.messageId)]

/-- `A2aTaskRecord`. -/
structure A2aTaskRecord where
  mapping : A2aRunMapping
  state : A2aTaskState
  ownerSubject : String
  ownerTenantId : Option String
  createdRevision : Nat
  updatedRevision : Nat
  statusMessage : Option String
  statusTimestampUnixMs : Option Nat
  deriving DecidableEq

def A2aTaskRecord.json (task : A2aTaskRecord) : Value :=
  .ofFields ([("mapping", task.mapping.json), ("state", task.state.json),
      ("owner_subject", .string task.ownerSubject)] ++
    optionalField "owner_tenant_id" (task.ownerTenantId.map .string) ++
    [("created_revision", natural task.createdRevision),
      ("updated_revision", natural task.updatedRevision)] ++
    optionalField "status_message" (task.statusMessage.map .string) ++
    optionalField "status_timestamp_unix_ms" (task.statusTimestampUnixMs.map natural))

/-! ### Owners -/

/-- `A2aContextOwner`. -/
structure A2aContextOwner where
  subject : String
  tenantId : Option String
  deriving DecidableEq

namespace A2aContextOwner

/-- `A2aContextOwner::from_principal`. -/
def fromPrincipal (principal : ProtocolPrincipal) : A2aContextOwner :=
  ⟨principal.subject, principal.tenantId⟩

/-- `A2aContextOwner::matches`. -/
def admits (owner : A2aContextOwner) (principal : ProtocolPrincipal) : Bool :=
  principal.matchesIdentity owner.subject owner.tenantId

theorem admits_iff {owner : A2aContextOwner} {principal : ProtocolPrincipal} :
    owner.admits principal = true ↔ owner = fromPrincipal principal := by
  unfold admits ProtocolPrincipal.matchesIdentity fromPrincipal
  rw [Bool.and_eq_true, decide_eq_true_iff, decide_eq_true_iff, A2aContextOwner.mk.injEq, eq_comm,
    eq_comm (a := owner.tenantId)]

/-- The derived order: by subject, then by tenant, no tenant first. -/
def cmp : A2aContextOwner → A2aContextOwner → Ordering :=
  compareLex (compareOn (·.subject)) (compareOn (·.tenantId))

end A2aContextOwner

/-- The owner of a task. -/
def A2aTaskRecord.owner (task : A2aTaskRecord) : A2aContextOwner :=
  ⟨task.ownerSubject, task.ownerTenantId⟩

/-- `scoped_index_key`. -/
def scopedIndexKey (kind subject : String) (tenantId : Option String) (value : String) : String :=
  let tenant := tenantId.getD ""
  s!"a2a:v1:{kind}:{subject.utf8ByteSize}:{subject}{tenant.utf8ByteSize}:{tenant}" ++
    s!"{value.utf8ByteSize}:{value}"

/-- `scoped_context_key_for_owner`. -/
def scopedContextKey (owner : A2aContextOwner) (contextId : String) : String :=
  scopedIndexKey "context" owner.subject owner.tenantId contextId

/-- `scoped_receipt_key_for_owner`. -/
def scopedReceiptKey (owner : A2aContextOwner) (messageId : String) : String :=
  scopedIndexKey "receipt" owner.subject owner.tenantId messageId

/-- `scoped_dispatch_key_for_owner`. -/
def scopedDispatchKey (owner : A2aContextOwner) (messageId : String) : String :=
  scopedIndexKey "dispatch" owner.subject owner.tenantId messageId

/-! ### Envelopes -/

def GovernanceDenialCode.json : GovernanceDenialCode → Value
  | .invalidRequest => .string "invalid_request"
  | .missingPrincipal => .string "missing_principal"
  | .missingScope => .string "missing_scope"
  | .principalMismatch => .string "principal_mismatch"
  | .unknownTarget => .string "unknown_target"
  | .stateConflict => .string "state_conflict"
  | .invalidApproval => .string "invalid_approval"
  | .duplicateConflict => .string "duplicate_conflict"

def GovernanceAuthorization.json : GovernanceAuthorization → Value
  | .allowed => .ofFields [("status", .string "allowed")]
  | .denied code reason =>
    .ofFields [("status", .string "denied"), ("code", GovernanceDenialCode.json code),
      ("reason", .string reason)]

def CorrelationIdentity.json (correlation : CorrelationIdentity) : Value :=
  .ofFields ([("correlation_id", .string correlation.correlationId),
      ("request_id", .string correlation.requestId)] ++
    optionalField "session_id" (correlation.sessionId.map .string) ++
    optionalField "run_id" (correlation.runId.map .string))

/-- A set of texts. -/
def setJson (s : BTreeSet) : Value := .array (s.elements.map .string)

def ProtocolPrincipal.json (principal : ProtocolPrincipal) : Value :=
  .ofFields ([("subject", .string principal.subject)] ++
    optionalField "tenant_id" (principal.tenantId.map .string) ++ [("scopes", setJson principal.scopes)])

/-- The envelope of an A2A request, its version and its protocol included. -/
def GovernanceEnvelope.json (envelope : GovernanceEnvelope) : Value :=
  .ofFields ([("schema_version", natural 2), ("protocol", .string "a2a"),
      ("correlation", CorrelationIdentity.json envelope.correlation)] ++
    optionalField "principal" (envelope.principal.map ProtocolPrincipal.json) ++
    [("operation", .string envelope.operation), ("target", .string envelope.target),
      ("required_scopes", setJson envelope.requiredScopes),
      ("authorization", GovernanceAuthorization.json envelope.authorization)])

/-! ### Receipts -/

/-- `A2aMessageReceipt`. -/
structure A2aMessageReceipt where
  message : A2aMessage
  mapping : A2aRunMapping
  ownerSubject : String
  ownerTenantId : Option String
  acceptedRevision : Nat
  deriving DecidableEq

namespace A2aMessageReceipt

variable (receipt : A2aMessageReceipt)

def owner : A2aContextOwner := ⟨receipt.ownerSubject, receipt.ownerTenantId⟩

def json : Value :=
  .ofFields ([("message", receipt.message.json), ("mapping", receipt.mapping.json),
      ("owner_subject", .string receipt.ownerSubject)] ++
    optionalField "owner_tenant_id" (receipt.ownerTenantId.map .string) ++
    [("accepted_revision", natural receipt.acceptedRevision)])

end A2aMessageReceipt

/-! ### Dispatches -/

/-- `A2aDispatchOutboxState`. -/
inductive A2aDispatchOutboxState where
  | queued | running | reconcilePending | settled
  deriving DecidableEq

def A2aDispatchOutboxState.json : A2aDispatchOutboxState → Value
  | .queued => .string "queued"
  | .running => .string "running"
  | .reconcilePending => .string "reconcile_pending"
  | .settled => .string "settled"

/-- `A2aSendResponsePolicy`. -/
inductive A2aSendResponsePolicy where
  | blocking | immediate | streaming
  deriving DecidableEq

def A2aSendResponsePolicy.json : A2aSendResponsePolicy → Value
  | .blocking => .string "blocking"
  | .immediate => .string "immediate"
  | .streaming => .string "streaming"

/-- `A2aDispatchResponse`. -/
inductive A2aDispatchResponse where
  | task (finalizedByDispatch : Bool) (artifacts : List A2aArtifact)
  | message (message : A2aMessage)
  deriving DecidableEq

def A2aDispatchResponse.json : A2aDispatchResponse → Value
  | .task finalizedByDispatch artifacts =>
    .ofFields ([("kind", .string "task"), ("finalized_by_dispatch", .bool finalizedByDispatch)] ++
      optionalField "artifacts"
        (if artifacts.isEmpty then none else some (.array (artifacts.map A2aArtifact.json))))
  | .message content => .ofFields [("kind", .string "message"), ("message", content.json)]

/-- `A2aDispatchOutboxRecord`. -/
structure A2aDispatchOutboxRecord where
  dispatchId : String
  ownerSubject : String
  ownerTenantId : Option String
  messageId : String
  taskId : String
  contextId : String
  sessionId : String
  runId : String
  message : A2aMessage
  resumedFrom : Option A2aTaskState
  envelope : GovernanceEnvelope
  state : A2aDispatchOutboxState
  response : A2aDispatchResponse
  responsePolicy : A2aSendResponsePolicy
  immediateResponse : Option A2aTaskRecord
  attempts : Nat
  lastError : Option String
  createdRevision : Nat
  updatedRevision : Nat
  deriving DecidableEq

namespace A2aDispatchOutboxRecord

variable (record : A2aDispatchOutboxRecord)

/-- `dispatch_owner`. -/
def owner : A2aContextOwner := ⟨record.ownerSubject, record.ownerTenantId⟩

def json : Value :=
  .ofFields ([("dispatch_id", .string record.dispatchId), ("owner_subject", .string record.ownerSubject)] ++
    optionalField "owner_tenant_id" (record.ownerTenantId.map .string) ++
    [("message_id", .string record.messageId), ("task_id", .string record.taskId),
      ("context_id", .string record.contextId), ("session_id", .string record.sessionId),
      ("run_id", .string record.runId), ("message", record.message.json)] ++
    optionalField "resumed_from" (record.resumedFrom.map A2aTaskState.json) ++
    [("envelope", GovernanceEnvelope.json record.envelope), ("state", record.state.json),
      ("response", record.response.json), ("response_policy", record.responsePolicy.json)] ++
    optionalField "immediate_response" (record.immediateResponse.map A2aTaskRecord.json) ++
    [("attempts", natural record.attempts)] ++
    optionalField "last_error" (record.lastError.map .string) ++
    [("created_revision", natural record.createdRevision),
      ("updated_revision", natural record.updatedRevision)])

/-- What a replacement of the record under a key may not change. -/
def SameIdentity (id : String) (replacement current : A2aDispatchOutboxRecord) : Prop :=
  replacement.dispatchId = id ∧ replacement.owner = current.owner ∧
    replacement.messageId = current.messageId ∧ replacement.taskId = current.taskId ∧
    replacement.contextId = current.contextId ∧ replacement.sessionId = current.sessionId ∧
    replacement.runId = current.runId ∧ replacement.message = current.message ∧
    replacement.envelope = current.envelope ∧
    replacement.createdRevision = current.createdRevision

instance (id : String) (replacement current : A2aDispatchOutboxRecord) :
    Decidable (SameIdentity id replacement current) :=
  inferInstanceAs (Decidable (_ ∧ _))

end A2aDispatchOutboxRecord

/-! ### Cancellations -/

/-- `A2aCancellationOutboxState`. -/
inductive A2aCancellationOutboxState where
  | queued | running | reconcilePending | settled
  deriving DecidableEq

def A2aCancellationOutboxState.json : A2aCancellationOutboxState → Value
  | .queued => .string "queued"
  | .running => .string "running"
  | .reconcilePending => .string "reconcile_pending"
  | .settled => .string "settled"

/-- `A2aCancellationOutboxRecord`. -/
structure A2aCancellationOutboxRecord where
  cancellationId : String
  ownerSubject : String
  ownerTenantId : Option String
  taskId : String
  contextId : String
  sessionId : String
  runId : String
  task : A2aTaskRecord
  envelope : GovernanceEnvelope
  state : A2aCancellationOutboxState
  attempts : Nat
  lastError : Option String
  createdRevision : Nat
  updatedRevision : Nat
  deriving DecidableEq

namespace A2aCancellationOutboxRecord

variable (record : A2aCancellationOutboxRecord)

/-- `cancellation_owner`. -/
def owner : A2aContextOwner := ⟨record.ownerSubject, record.ownerTenantId⟩

def json : Value :=
  .ofFields ([("cancellation_id", .string record.cancellationId),
      ("owner_subject", .string record.ownerSubject)] ++
    optionalField "owner_tenant_id" (record.ownerTenantId.map .string) ++
    [("task_id", .string record.taskId), ("context_id", .string record.contextId),
      ("session_id", .string record.sessionId), ("run_id", .string record.runId),
      ("task", record.task.json), ("envelope", GovernanceEnvelope.json record.envelope),
      ("state", record.state.json), ("attempts", natural record.attempts)] ++
    optionalField "last_error" (record.lastError.map .string) ++
    [("created_revision", natural record.createdRevision),
      ("updated_revision", natural record.updatedRevision)])

/-- What a replacement of the record under a key may not change. -/
def SameIdentity (id : String) (replacement current : A2aCancellationOutboxRecord) : Prop :=
  replacement.cancellationId = id ∧ replacement.owner = current.owner ∧
    replacement.taskId = current.taskId ∧ replacement.contextId = current.contextId ∧
    replacement.sessionId = current.sessionId ∧ replacement.runId = current.runId ∧
    replacement.task = current.task ∧ replacement.envelope = current.envelope ∧
    replacement.createdRevision = current.createdRevision

instance (id : String) (replacement current : A2aCancellationOutboxRecord) :
    Decidable (SameIdentity id replacement current) := inferInstanceAs (Decidable (_ ∧ _))

end A2aCancellationOutboxRecord

/-- `cancellation_id_for_task`. -/
def cancellationIdForTask [Digest] (task : A2aTaskRecord) : String :=
  "a2a-cancellation-" ++ stableInputHash (.ofFields
    [("owner_subject", .string task.ownerSubject), ("owner_tenant_id", textOrNull task.ownerTenantId),
      ("task_id", .string task.mapping.taskId), ("run_id", .string task.mapping.runId)])

/-- `make_cancellation_record`. -/
def makeCancellationRecord [Digest] (task : A2aTaskRecord) (envelope : GovernanceEnvelope)
    (state : A2aCancellationOutboxState) (revision : Nat) : A2aCancellationOutboxRecord where
  cancellationId := cancellationIdForTask task
  ownerSubject := task.ownerSubject
  ownerTenantId := task.ownerTenantId
  taskId := task.mapping.taskId
  contextId := task.mapping.contextId
  sessionId := task.mapping.sessionId
  runId := task.mapping.runId
  task
  envelope
  state
  attempts := 0
  lastError := none
  createdRevision := revision
  updatedRevision := revision

/-! ### Events -/

/-- `A2aPendingEventState`. -/
inductive A2aPendingEventState where
  | pending | reconcilePending | settled | quarantined
  deriving DecidableEq

namespace A2aPendingEventState

def json : A2aPendingEventState → Value
  | pending => .string "pending"
  | reconcilePending => .string "reconcile_pending"
  | settled => .string "settled"
  | quarantined => .string "quarantined"

/-- The event is still to be published. -/
def isOpen : A2aPendingEventState → Bool
  | pending | reconcilePending => true
  | settled | quarantined => false

end A2aPendingEventState

/-- `A2aEventQuarantineReason`. -/
inductive A2aEventQuarantineReason where
  | attemptsExhausted | deterministicPoison
  deriving DecidableEq

namespace A2aEventQuarantineReason

def json : A2aEventQuarantineReason → Value
  | attemptsExhausted => .string "attempts_exhausted"
  | deterministicPoison => .string "deterministic_poison"

/-- `A2aEventQuarantineReason::diagnostic`. -/
def diagnostic : A2aEventQuarantineReason → String
  | attemptsExhausted => "event publication attempt limit exhausted"
  | deterministicPoison => "event publication rejected as deterministic poison"

end A2aEventQuarantineReason

/-- `A2aPendingEventKind`. -/
inductive A2aPendingEventKind where
  | taskCreated | messageAccepted | statusChanged | cancellationRequested | directMessageResponse
  | recoveredSnapshot | artifactProduced
  deriving DecidableEq

namespace A2aPendingEventKind

def json : A2aPendingEventKind → Value
  | taskCreated => .string "task_created"
  | messageAccepted => .string "message_accepted"
  | statusChanged => .string "status_changed"
  | cancellationRequested => .string "cancellation_requested"
  | directMessageResponse => .string "direct_message_response"
  | recoveredSnapshot => .string "recovered_snapshot"
  | artifactProduced => .string "artifact_produced"

/-- `event_kind_delivery_rank`. -/
def deliveryRank : A2aPendingEventKind → Nat
  | artifactProduced => 0
  | _ => 1

end A2aPendingEventKind

/-- `A2aPendingEventIntent`. -/
structure A2aPendingEventIntent where
  eventId : String
  ownerSubject : String
  ownerTenantId : Option String
  taskId : String
  contextId : String
  sessionId : String
  runId : String
  sourceRevision : Nat
  kind : A2aPendingEventKind
  messageId : Option String
  payloadHash : String
  task : A2aTaskRecord
  responseMessage : Option A2aMessage
  artifactId : Option String
  state : A2aPendingEventState
  attempts : Nat
  transientFailures : Nat
  nextAttemptAtUnixMs : Option Nat
  lastError : Option String
  quarantineReason : Option A2aEventQuarantineReason
  createdRevision : Nat
  updatedRevision : Nat
  deriving DecidableEq

namespace A2aPendingEventIntent

variable (event : A2aPendingEventIntent)

/-- `event_owner`. -/
def owner : A2aContextOwner := ⟨event.ownerSubject, event.ownerTenantId⟩

def json : Value :=
  .ofFields ([("event_id", .string event.eventId), ("owner_subject", .string event.ownerSubject)] ++
    optionalField "owner_tenant_id" (event.ownerTenantId.map .string) ++
    [("task_id", .string event.taskId), ("context_id", .string event.contextId),
      ("session_id", .string event.sessionId), ("run_id", .string event.runId),
      ("source_revision", natural event.sourceRevision), ("kind", event.kind.json)] ++
    optionalField "message_id" (event.messageId.map .string) ++
    [("payload_hash", .string event.payloadHash), ("task", event.task.json)] ++
    optionalField "response_message" (event.responseMessage.map A2aMessage.json) ++
    optionalField "artifact_id" (event.artifactId.map .string) ++
    [("state", event.state.json), ("attempts", natural event.attempts)] ++
    optionalField "transient_failures"
      (if event.transientFailures = 0 then none else some (natural event.transientFailures)) ++
    optionalField "next_attempt_at_unix_ms" (event.nextAttemptAtUnixMs.map natural) ++
    optionalField "last_error" (event.lastError.map .string) ++
    optionalField "quarantine_reason" (event.quarantineReason.map A2aEventQuarantineReason.json) ++
    [("created_revision", natural event.createdRevision),
      ("updated_revision", natural event.updatedRevision)])

/-- What a replacement of the record under a key may not change. -/
def SameIdentity (id : String) (replacement current : A2aPendingEventIntent) : Prop :=
  replacement.eventId = id ∧ replacement.owner = current.owner ∧
    replacement.taskId = current.taskId ∧ replacement.contextId = current.contextId ∧
    replacement.sessionId = current.sessionId ∧ replacement.runId = current.runId ∧
    replacement.sourceRevision = current.sourceRevision ∧ replacement.kind = current.kind ∧
    replacement.messageId = current.messageId ∧ replacement.payloadHash = current.payloadHash ∧
    replacement.task = current.task ∧ replacement.createdRevision = current.createdRevision

instance (id : String) (replacement current : A2aPendingEventIntent) :
    Decidable (SameIdentity id replacement current) :=
  inferInstanceAs (Decidable (_ ∧ _))

end A2aPendingEventIntent

/-- `make_pending_event_full`. -/
def makePendingEventFull [Digest] (task : A2aTaskRecord) (sourceRevision : Nat)
    (kind : A2aPendingEventKind) (messageId : Option String) (responseMessage : Option A2aMessage)
    (artifactId : Option String) (state : A2aPendingEventState) (createdRevision : Nat) :
    A2aPendingEventIntent :=
  let payload := Value.ofFields ([("kind", kind.json), ("task", task.json)] ++
    optionalField "response_message" (responseMessage.map A2aMessage.json) ++
    optionalField "artifact_id" (artifactId.map .string))
  let identity := Value.ofFields ([("owner_subject", .string task.ownerSubject),
      ("owner_tenant_id", textOrNull task.ownerTenantId), ("task_id", .string task.mapping.taskId),
      ("context_id", .string task.mapping.contextId), ("session_id", .string task.mapping.sessionId),
      ("run_id", .string task.mapping.runId), ("source_revision", natural sourceRevision),
      ("kind", kind.json), ("message_id", textOrNull messageId)] ++
    optionalField "artifact_id" (artifactId.map .string))
  { eventId := "a2a-event-" ++ stableInputHash identity
    ownerSubject := task.ownerSubject
    ownerTenantId := task.ownerTenantId
    taskId := task.mapping.taskId
    contextId := task.mapping.contextId
    sessionId := task.mapping.sessionId
    runId := task.mapping.runId
    sourceRevision
    kind
    messageId
    payloadHash := stableInputHash payload
    task
    responseMessage
    artifactId
    state
    attempts := 0
    transientFailures := 0
    nextAttemptAtUnixMs := none
    lastError := none
    quarantineReason := none
    createdRevision
    updatedRevision := createdRevision }

/-- `make_pending_event`. -/
def makePendingEvent [Digest] (task : A2aTaskRecord) (sourceRevision : Nat) (kind : A2aPendingEventKind)
    (messageId : Option String) (state : A2aPendingEventState) (createdRevision : Nat) :
    A2aPendingEventIntent :=
  makePendingEventFull task sourceRevision kind messageId none none state createdRevision

/-- `make_artifact_pending_event`. -/
def makeArtifactPendingEvent [Digest] (task : A2aTaskRecord) (sourceRevision : Nat) (artifactId : String)
    (createdRevision : Nat) : A2aPendingEventIntent :=
  makePendingEventFull task sourceRevision .artifactProduced none none (some artifactId) .pending
    createdRevision

/-- `validate_task_artifacts`. -/
def validateTaskArtifacts (artifacts : List A2aArtifact) (taskState : A2aTaskState) :
    ProtocolResult Unit := do
  refuseIf (maxArtifactsPerTask < artifacts.length)
    (.invalid s!"A2A task must not contain more than {maxArtifactsPerTask} artifacts")
  refuseIf (artifacts ≠ [] ∧ taskState ≠ .completed)
    (.invalid "A2A task artifacts require a completed task")
  validateEachArtifact artifacts ∅
  refuseIf (maxArtifactBytesPerTask < serializedBytes (.array (artifacts.map A2aArtifact.json)))
    (.invalid s!"A2A task artifacts must not exceed {maxArtifactBytesPerTask} serialized bytes")

end AikitRuntime.A2a
