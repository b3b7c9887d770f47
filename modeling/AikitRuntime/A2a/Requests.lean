import AikitRuntime.A2a.Operations
import AikitRuntime.Mcp.Registry

/-!
# What clients ask of the mapper

`SendMessage` starts a task or goes on with one, `CancelTask` leaves a control, `GetTask` and `ListTasks`
read. Each request is governed: its envelope says whether the principal may make it, and a request that
names a task of another owner is answered as if there were none.

`prepareSendMessageCandidateWithResponsePolicy` works on an isolated mapper, and what it had changed when
it denies a request stays changed there. `prepareSendMessage` installs the candidate of an authorized
request only.
-/

namespace AikitRuntime.A2a

open Library Durability Mcp

/-! ### Actions -/

/-- `A2aListTasksRequest`. -/
structure A2aListTasksRequest where
  tenant : Option String
  contextId : Option String
  status : Option A2aTaskState
  statusTimestampAfterUnixMs : Option Nat
  pageSize : Option Nat
  pageToken : Option String
  deriving DecidableEq

/-- `A2aTaskPage`. -/
structure A2aTaskPage where
  tasks : List A2aTaskRecord
  nextPageToken : String
  pageSize : Nat
  totalSize : Nat
  deriving DecidableEq

/-- `A2aAction`. -/
inductive A2aAction where
  | dispatchMessage (message : A2aMessage) (mapping : A2aRunMapping) (resumedFrom : Option A2aTaskState)
  | duplicateMessage (receipt : A2aMessageReceipt)
  | getTask (task : A2aTaskRecord)
  | listTasks (page : A2aTaskPage)
  | cancelTask (task : A2aTaskRecord)
  deriving DecidableEq

/-- `A2aCancellationOutboxRecord::action`. -/
def A2aCancellationOutboxRecord.action (record : A2aCancellationOutboxRecord) : A2aAction :=
  .cancelTask record.task

/-- `SEND_MESSAGE_SCOPE`. -/
def sendMessageScope : String := "a2a:message:send"

/-- `TASK_READ_SCOPE`. -/
def taskReadScope : String := "a2a:tasks:read"

/-- `TASK_CANCEL_SCOPE`. -/
def taskCancelScope : String := "a2a:tasks:cancel"

/-! ### Page tokens -/

/-- `A2aPageCursor`. -/
structure A2aPageCursor where
  schemaVersion : Nat
  snapshotHash : String
  queryHash : String
  nextTaskId : String
  deriving DecidableEq

/-- Base64 without padding, and `serde_json::from_slice` of a cursor. -/
class PageCodec where
  encode : List UInt8 → String
  decode : String → Option (List UInt8)
  fromSlice : List UInt8 → Option A2aPageCursor

/-- `serde_json::to_vec` of a cursor. -/
def A2aPageCursor.toVec (cursor : A2aPageCursor) : List UInt8 :=
  let fields : List (String × List Char) :=
    [("schema_version", (toString cursor.schemaVersion).toList),
      ("snapshot_hash", jsonString cursor.snapshotHash), ("query_hash", jsonString cursor.queryHash),
      ("next_task_id", jsonString cursor.nextTaskId)]
  utf8 ('\x7b' :: (commaSeparated (fields.map fun field => jsonString field.1 ++ ':' :: field.2) ++
    ['\x7d']))

/-- `encode_page_token`. -/
def encodePageToken [PageCodec] (taskId snapshotHash queryHash : String) : String :=
  PageCodec.encode (A2aPageCursor.toVec ⟨2, snapshotHash, queryHash, taskId⟩)

/-- `decode_page_token`. -/
def decodePageToken [PageCodec] (pageToken : String) : ProtocolResult A2aPageCursor := do
  refuseIf (pageToken = "") (.invalid "A2A page_token must not be empty")
  refuseIf (1024 < pageToken.utf8ByteSize) (.invalid "A2A page_token must not exceed 1024 bytes")
  let decoded ← okOr (PageCodec.decode pageToken) (.invalid "A2A page_token is not a valid opaque cursor")
  let cursor ← okOr (PageCodec.fromSlice decoded)
    (.invalid "A2A page_token has an invalid cursor payload")
  refuseIf (cursor.schemaVersion ≠ 2) (.invalid "A2A page_token uses an unsupported cursor version")
  validateIdentifier "A2A page_token snapshot hash" cursor.snapshotHash
  validateIdentifier "A2A page_token query hash" cursor.queryHash
  validateIdentifier "A2A page_token task id" cursor.nextTaskId
  pure cursor

/-- `A2aListTasksRequest::validate`. -/
def A2aListTasksRequest.validate [PageCodec] (request : A2aListTasksRequest) : ProtocolResult Unit := do
  firstRefusal (validateIdentifier "A2A list tenant") request.tenant.toList
  firstRefusal (validateIdentifier "A2A list context_id") request.contextId.toList
  refuseIf (request.pageSize.any fun pageSize => pageSize < 1 || 100 < pageSize)
    (.invalid "A2A page_size must be between 1 and 100")
  firstRefusal (fun pageToken => (decodePageToken pageToken).map fun _ => ())
    (request.pageToken.filter (· ≠ "")).toList

/-- `list_query_hash`. -/
def listQueryHash [Digest] (principal : ProtocolPrincipal) (request : A2aListTasksRequest) : String :=
  stableInputHash (.ofFields
    [("subject", .string principal.subject), ("principal_tenant", textOrNull principal.tenantId),
      ("requested_tenant", textOrNull request.tenant), ("context_id", textOrNull request.contextId),
      ("status", (request.status.map A2aTaskState.json).getD .null)])

/-- `list_snapshot_hash`. -/
def listSnapshotHash [Digest] (tasks : List A2aTaskRecord) : String :=
  stableInputHash (.array (tasks.map A2aTaskRecord.json))

/-! ### Envelopes -/

/-- `task_envelope`. -/
def taskEnvelope (task : A2aTaskRecord) (correlation : CorrelationIdentity)
    (principal : Option ProtocolPrincipal) (operation scope : String) : GovernanceEnvelope :=
  let envelope := GovernanceEnvelope.evaluate correlation principal operation task.mapping.taskId
    (scopes [scope])
  if envelope.authorization.isAllowed then
    if principal.all fun value => !task.owner.admits value then
      envelope.deny .unknownTarget "A2A task is not accessible"
    else { envelope with
      correlation := { envelope.correlation with
        sessionId := some task.mapping.sessionId, runId := some task.mapping.runId } }
  else envelope

/-- `denied_unknown_task`. -/
def deniedUnknownTask (correlation : CorrelationIdentity) (principal : Option ProtocolPrincipal)
    (operation taskId scope : String) : GovernedAction A2aAction :=
  let envelope := GovernanceEnvelope.evaluate correlation principal operation taskId (scopes [scope])
  .denied (if envelope.authorization.isAllowed then
    envelope.deny .unknownTarget "A2A task is not accessible" else envelope)

/-- The denial code of an error that `preflight_send_message` raises. -/
def sendDenialCode : ProtocolErrorCode → GovernanceDenialCode
  | .notFound => .unknownTarget
  | .invalidRequest => .invalidRequest
  | .invalidTransition | .conflict | .unauthorized | .forbidden | .cancelled => .stateConflict

/-- `make_dispatch_record`. -/
def makeDispatchRecord (principal : ProtocolPrincipal) (message : A2aMessage) (mapping : A2aRunMapping)
    (resumedFrom : Option A2aTaskState) (envelope : GovernanceEnvelope) (revision : Nat)
    (policy : A2aSendResponsePolicy) (immediateTask : Option A2aTaskRecord) : A2aDispatchOutboxRecord where
  dispatchId := scopedDispatchKey (.fromPrincipal principal) mapping.messageId
  ownerSubject := principal.subject
  ownerTenantId := principal.tenantId
  messageId := mapping.messageId
  taskId := mapping.taskId
  contextId := mapping.contextId
  sessionId := mapping.sessionId
  runId := mapping.runId
  message
  resumedFrom
  envelope
  state := .queued
  response := .task false []
  responsePolicy := policy
  immediateResponse := immediateTask
  attempts := 0
  lastError := none
  createdRevision := revision
  updatedRevision := revision

/-! ### Generated ids -/

/-- `format!("{prefix}-{sequence:016}")`. -/
def generatedId (kind : String) (sequence : Nat) : String := kind ++ "-" ++ padded sequence

theorem generatedId_inj {kind : String} {n k : Nat} (h : generatedId kind n = generatedId kind k) : n = k := by
  have hpadded : padded n = padded k := by simpa [generatedId, String.append_right_inj] using h
  rw [← ofDigitChars_padded n, hpadded, ofDigitChars_padded k]

/-- What `getrandom::fill` yields each time it is called: bytes, or a failure. -/
abbrev Draws : Type := Nat → Option (Vector UInt8 16)

/-- `a2a-context-random-` and the bytes in hexadecimal. -/
def randomContextId (bytes : Vector UInt8 16) : String :=
  "a2a-context-random-" ++ String.ofList (bytes.toList.flatMap fun byte =>
    [Sha256.hexDigit (byte.toNat / 16), Sha256.hexDigit (byte.toNat % 16)])

/-- A receipt, as it is measured. -/
def receiptEntryStorageBytes (key : String) (receipt : A2aMessageReceipt) : ProtocolResult Nat :=
  serializedEntryStorageBytes key receipt.json "receipt"

namespace A2aMapper

variable (m : A2aMapper)

/-! ### `SendMessage` -/

/-- `preview_id`. -/
def previewId (kind : String) (offset : Nat) : ProtocolResult String := do
  refuseIf (maxSafeInteger ≤ m.nextSequence + offset)
    (.conflict "A2A mapper identifier reached the cross-language integer limit")
  pure (generatedId kind (m.nextSequence + offset))

/-- The session that a message's context has or would get, and how many ids that takes. -/
def previewSession (owner : A2aContextOwner) (contextId : String) : ProtocolResult (String × Nat) :=
  match m.contexts[scopedContextKey owner contextId]? with
  | some sessionId => .ok (sessionId, 0)
  | none => (m.previewId "a2a-session" 0).map (·, 1)

/-- The mapping that a message would get, and how many revisions that takes. -/
def projectedMapping (message : A2aMessage) (principal : ProtocolPrincipal) :
    ProtocolResult (A2aRunMapping × Nat) :=
  match message.taskId with
  | some taskId => do
    let task ← okOr (m.tasks[taskId]?.filter fun task => task.owner.admits principal)
      (.notFound "A2A task is not accessible")
    pure ({ task.mapping with messageId := message.messageId }, if task.state.isWaiting then 2 else 1)
  | none => do
    let contextId := message.contextId.getD (randomContextId (Vector.replicate 16 0))
    let (sessionId, offset) ← m.previewSession (.fromPrincipal principal) contextId
    let taskId ← m.previewId "a2a-task" offset
    let runId ← m.previewId "a2a-run" (offset + 1)
    pure (⟨contextId, sessionId, taskId, runId, message.messageId⟩, 2)

/-- The receipt that accepting a message would leave (`projected_receipt`). -/
def projectedReceipt (message : A2aMessage) (principal : ProtocolPrincipal) :
    ProtocolResult (String × A2aMessageReceipt) := do
  let (mapping, revisionSteps) ← m.projectedMapping message principal
  refuseIf (maxSafeInteger < m.revision + revisionSteps)
    (.conflict "A2A mapper revision reached the cross-language integer limit")
  pure (scopedReceiptKey (.fromPrincipal principal) message.messageId,
    ⟨message, mapping, principal.subject, principal.tenantId, m.revision + revisionSteps⟩)

/-- What `preflight_send_message` checks of the task that a message names. -/
def preflightTask (message : A2aMessage) (principal : ProtocolPrincipal) (taskId : String) :
    ProtocolResult Unit := do
  let task ← okOr (m.tasks[taskId]?.filter fun task => task.owner.admits principal)
    (.notFound "A2A task is not accessible")
  refuseIf (message.contextId.any (· ≠ task.mapping.contextId))
    (.conflict "A2A context_id does not match task_id")
  refuseIf (m.cancellationOutbox.values.any fun record =>
      record.taskId = taskId && record.state ≠ .settled)
    (.invalidTransition "A2A task has an unsettled cancellation and cannot accept another message")
  refuseIf (m.pendingEvents.values.any fun event =>
      event.taskId = taskId && event.messageId.isSome && event.state ≠ .settled)
    (.invalidTransition "A2A task has an earlier message event awaiting durable settlement")
  refuseIf (m.dispatchOutbox.values.any fun record => record.taskId = taskId && record.state ≠ .settled)
    (.invalidTransition "A2A task has an earlier message dispatch awaiting durable settlement")
  refuseIf task.state.isTerminal (.invalidTransition "terminal A2A task cannot accept another message")

/-- What `preflight_send_message` checks of the receipts. -/
def preflightReceipt (message : A2aMessage) (principal : ProtocolPrincipal) : ProtocolResult Unit := do
  let owner := A2aContextOwner.fromPrincipal principal
  let (key, receipt) ← m.projectedReceipt message principal
  let added ← receiptEntryStorageBytes key receipt
  ensureCountCapacity m.receipts.size 50000 "receipt"
  ensureByteCapacity m.receiptBytes added (mib 64) "receipt"
  let owned := m.receipts.values.filter fun receipt => receipt.owner.admits principal
  let ownerBytes ← sumBytes (.conflict "A2A owner receipt bytes overflowed")
    (owned.map fun receipt =>
      receiptEntryStorageBytes (scopedReceiptKey receipt.owner receipt.message.messageId) receipt)
  ensureCountCapacity owned.length 5000 "owner receipt"
  ensureByteCapacity ownerBytes added (mib 8) "owner receipt"
  skipIf message.taskId.isSome do
    ensureCountCapacity m.tasks.size 10000 "task"
    ensureCountCapacity (m.tasks.values.filter fun task => task.owner.admits principal).length 1000
      "owner task"
    skipIf (message.contextId.any fun contextId =>
        m.contexts.contains (scopedContextKey owner contextId)) do
      ensureCountCapacity m.contexts.size 10000 "context"
      ensureCountCapacity (m.contextOwners.values.filter fun owner => owner.admits principal).length 1000
        "owner context"

/-- `preflight_send_message`. -/
def preflightSendMessage (message : A2aMessage) (principal : ProtocolPrincipal) : ProtocolResult Unit := do
  message.validate
  match m.receipts[scopedReceiptKey (.fromPrincipal principal) message.messageId]? with
  | some receipt =>
    refuseIf (receipt.message ≠ message)
      (.conflict "A2A message_id was reused with different content")
  | none => do
    firstRefusal (m.preflightTask message principal) message.taskId.toList
    m.preflightReceipt message principal

/-- `generate_context_id`: its rounds from some draw on. -/
def generateContextId (owner : A2aContextOwner) (draws : Draws) : (rounds : Nat) → (draw : Nat) →
    ProtocolResult String
  | 0, _ => .error (.invalid "could not generate a unique A2A context_id")
  | rounds + 1, draw => do
    let bytes ← okOr (draws draw) (.invalid "secure randomness for A2A context_id is unavailable")
    let contextId := randomContextId bytes
    if m.contexts.contains (scopedContextKey owner contextId) then
      generateContextId owner draws rounds (draw + 1)
    else pure contextId

/-- What a message is accepted into: the mapper with the task, the mapping of the message, and the state
that the task is resumed from. -/
structure Placement where
  mapper : A2aMapper
  mapping : A2aRunMapping
  resumedFrom : Option A2aTaskState

/-- A task that goes on after it waited. -/
def resumed (existing : A2aTaskRecord) (revision nowUnixMs : Nat) : A2aTaskRecord :=
  { existing with
    state := .working, statusMessage := none, updatedRevision := revision
    statusTimestampUnixMs := some nowUnixMs }

/-- A denial of a request. -/
abbrev Denial : Type := GovernanceDenialCode × String

/-- The message goes on with a task. -/
def placeInTask (message : A2aMessage) (principal : ProtocolPrincipal) (taskId : String)
    (nowUnixMs : Nat) : Except Denial Placement := do
  let existing ← okOr m.tasks[taskId]? (.unknownTarget, "A2A task is not accessible")
  refuseIf (existing.owner.admits principal = false) (.unknownTarget, "A2A task is not accessible")
  refuseIf (message.contextId.any (· ≠ existing.mapping.contextId))
    (.stateConflict, "A2A context_id does not match task_id")
  refuseIf existing.state.isTerminal
    (.stateConflict, "terminal A2A task cannot accept another message")
  let mapping := { existing.mapping with messageId := message.messageId }
  if existing.state.isWaiting then do
    refuseIf (m.hasCounterCapacity 0 2 = false)
      (.stateConflict, "A2A mapper counters reached the cross-language integer limit")
    let revision := m.revision + 1
    pure ⟨{ m with revision, tasks := m.tasks.insert taskId (resumed existing revision nowUnixMs) }, mapping,
      some existing.state⟩
  else do
    refuseIf (m.hasCounterCapacity 0 1 = false)
      (.stateConflict, "A2A mapper counters reached the cross-language integer limit")
    pure ⟨m, mapping, none⟩

/-- The session of a context: the one that it has, or a new one. -/
def sessionFor (principal : ProtocolPrincipal) (contextId : String) :
    Except Denial (String × A2aMapper) :=
  let owner := A2aContextOwner.fromPrincipal principal
  let contextKey := scopedContextKey owner contextId
  match m.contexts[contextKey]? with
  | some sessionId => do
    refuseIf (m.contextOwners[contextKey]?.all fun owner => !owner.admits principal)
      (.principalMismatch, "A2A context is not accessible")
    pure (sessionId, m)
  | none =>
    let sessionId := generatedId "a2a-session" m.nextSequence
    .ok (sessionId, { m with
      nextSequence := m.nextSequence + 1
      contexts := m.contexts.insert contextKey sessionId
      contextOwners := m.contextOwners.insert contextKey owner })

/-- The context of a message: the one that it names, or a new one. -/
def contextFor (draws : Draws) (message : A2aMessage) (owner : A2aContextOwner) : Except Denial String :=
  match message.contextId with
  | some contextId => .ok contextId
  | none => (m.generateContextId owner draws 8 0).mapError fun error => (.stateConflict, error.message)

/-- The message starts a task. -/
def placeInNewTask (draws : Draws) (message : A2aMessage) (principal : ProtocolPrincipal)
    (nowUnixMs : Nat) : Except Denial Placement := do
  let owner := A2aContextOwner.fromPrincipal principal
  let generatedIds := if message.contextId.any fun contextId =>
    m.contexts.contains (scopedContextKey owner contextId) then 2 else 3
  refuseIf (m.hasCounterCapacity generatedIds 2 = false)
    (.stateConflict, "A2A mapper counters reached the cross-language integer limit")
  let contextId ← m.contextFor draws message owner
  let (sessionId, m) ← m.sessionFor principal contextId
  let taskId := generatedId "a2a-task" m.nextSequence
  let mapping : A2aRunMapping :=
    ⟨contextId, sessionId, taskId, generatedId "a2a-run" (m.nextSequence + 1), message.messageId⟩
  let revision := m.revision + 1
  let task : A2aTaskRecord :=
    ⟨mapping, .working, principal.subject, principal.tenantId, revision, revision, none, some nowUnixMs⟩
  pure ⟨{ m with nextSequence := m.nextSequence + 2, revision, tasks := m.tasks.insert taskId task },
    mapping, none⟩

/-- What follows once a message has its place: the receipt, the dispatch and the acceptance event. -/
def recordMessage [Digest] (message : A2aMessage) (principal : ProtocolPrincipal)
    (policy : A2aSendResponsePolicy) (envelope : GovernanceEnvelope) (mapping : A2aRunMapping)
    (resumedFrom : Option A2aTaskState) : GovernedAction A2aAction × A2aMapper :=
  let owner := A2aContextOwner.fromPrincipal principal
  let envelope := { envelope with
    correlation := { envelope.correlation with
      sessionId := some mapping.sessionId, runId := some mapping.runId } }
  let normalized := { message with contextId := some mapping.contextId, taskId := some mapping.taskId }
  let revision := m.revision + 1
  let key := scopedReceiptKey owner message.messageId
  let receipt : A2aMessageReceipt := ⟨message, mapping, principal.subject, principal.tenantId, revision⟩
  let received := { m with
    revision
    receiptBytes := m.receiptBytes + (key.utf8ByteSize + serializedBytes receipt.json)
    receipts := m.receipts.insert key receipt }
  match received.tasks[mapping.taskId]? with
  -- the source resolved the task before it came here
  | none => (.denied envelope, received)
  | some task =>
    let dispatch := makeDispatchRecord principal normalized mapping resumedFrom envelope revision policy
      (if policy = .immediate then some task else none)
    match received.insertNewDispatch dispatch with
    | .error error => (.denied (envelope.deny .stateConflict error.message), received)
    | .ok dispatched =>
      let kind : A2aPendingEventKind :=
        if task.createdRevision = task.updatedRevision ∧ mapping.messageId = task.mapping.messageId then
          .taskCreated
        else if resumedFrom.isSome then .statusChanged
        else .messageAccepted
      let event := makePendingEvent task revision kind (some message.messageId) .pending revision
      match dispatched.insertNewPendingEvent event with
      | .error error => (.denied (envelope.deny .stateConflict error.message), dispatched)
      | .ok accepted =>
        (.fromEnvelope envelope (.dispatchMessage normalized mapping resumedFrom), accepted)

/-- A message that was accepted before. -/
def repeatMessage (message : A2aMessage) (principal : ProtocolPrincipal) (policy : A2aSendResponsePolicy)
    (envelope : GovernanceEnvelope) (receipt : A2aMessageReceipt) : GovernedAction A2aAction :=
  if receipt.message ≠ message then
    .denied (envelope.deny .duplicateConflict "A2A message_id was reused with different content")
  else if m.dispatchOutbox[scopedDispatchKey (.fromPrincipal principal) message.messageId]?.map
      (·.responsePolicy) ≠ some policy then
    .denied (envelope.deny .duplicateConflict "A2A message_id retry changed its response policy")
  else
    .fromEnvelope { envelope with
      correlation := { envelope.correlation with
        sessionId := some receipt.mapping.sessionId, runId := some receipt.mapping.runId } }
      (.duplicateMessage receipt)

/-- The envelope of a `SendMessage`. -/
def sendEnvelope (message : A2aMessage) (correlation : CorrelationIdentity)
    (principal : Option ProtocolPrincipal) : GovernanceEnvelope :=
  .evaluate correlation principal "message/send" (message.taskId.getD message.messageId)
    (scopes [sendMessageScope])

/-- `prepare_send_message_candidate_with_response_policy`: the answer, and what becomes of the mapper. -/
def prepareSendMessageCandidateWithResponsePolicy [Digest] (draws : Draws) (message : A2aMessage)
    (correlation : CorrelationIdentity) (principal : Option ProtocolPrincipal)
    (policy : A2aSendResponsePolicy) (nowUnixMs : Nat) : GovernedAction A2aAction × A2aMapper :=
  let envelope := sendEnvelope message correlation principal
  match principal with
  | none => (.denied envelope, m)
  | some principal =>
    if envelope.authorization.isAllowed then
      match message.validate with
      | .error error => (.denied (envelope.deny .invalidRequest error.message), m)
      | .ok _ =>
        match m.receipts[scopedReceiptKey (.fromPrincipal principal) message.messageId]? with
        | some receipt => (m.repeatMessage message principal policy envelope receipt, m)
        | none =>
          match m.preflightSendMessage message principal with
          | .error error => (.denied (envelope.deny (sendDenialCode error.code) error.message), m)
          | .ok _ =>
            let placed := match message.taskId with
              | some taskId => m.placeInTask message principal taskId nowUnixMs
              | none => m.placeInNewTask draws message principal nowUnixMs
            match placed with
            | .error (code, reason) => (.denied (envelope.deny code reason), m)
            | .ok ⟨placed, mapping, resumedFrom⟩ =>
              placed.recordMessage message principal policy envelope mapping resumedFrom
    else (.denied envelope, m)

/-- Install the candidate of a request that is authorized and changed something. -/
def installed (result : GovernedAction A2aAction × A2aMapper) : GovernedAction A2aAction × A2aMapper :=
  (result.1, if result.1.isAuthorized ∧ result.2.revision ≠ m.revision then result.2 else m)

/-- `prepare_send_message`. -/
def prepareSendMessage [Digest] (draws : Draws) (message : A2aMessage) (correlation : CorrelationIdentity)
    (principal : Option ProtocolPrincipal) (nowUnixMs : Nat) : GovernedAction A2aAction × A2aMapper :=
  let policy := (principal.bind fun principal =>
    m.dispatchOutbox[scopedDispatchKey (.fromPrincipal principal) message.messageId]?).map
      (·.responsePolicy)
  m.installed (m.prepareSendMessageCandidateWithResponsePolicy draws message correlation principal
    (policy.getD .blocking) nowUnixMs)

/-! ### `GetTask` -/

/-- `prepare_get_task`. -/
def prepareGetTask (taskId : String) (correlation : CorrelationIdentity)
    (principal : Option ProtocolPrincipal) : GovernedAction A2aAction :=
  match m.tasks[taskId]? with
  | none => deniedUnknownTask correlation principal "tasks/get" taskId taskReadScope
  | some task =>
    .fromEnvelope (taskEnvelope task correlation principal "tasks/get" taskReadScope) (.getTask task)

/-! ### `ListTasks` -/

/-- The order of a page: the latest revision first, then the greater id. -/
def pageOrder (left right : A2aTaskRecord) : Bool :=
  right.updatedRevision < left.updatedRevision ||
    (left.updatedRevision = right.updatedRevision && !(left.mapping.taskId < right.mapping.taskId))

/-- The tasks that a request asks for, among those of the principal. -/
def listedTasks (request : A2aListTasksRequest) (principal : ProtocolPrincipal) : List A2aTaskRecord :=
  let owned := m.tasks.values.filter fun task => task.owner.admits principal
  (owned.filter fun task =>
    request.contextId.all (task.mapping.contextId = ·) && request.status.all (task.state = ·) &&
      request.statusTimestampAfterUnixMs.all fun after =>
        task.statusTimestampUnixMs.any (after ≤ ·)).mergeSort pageOrder

/-- Where a page starts. -/
def pageStart [PageCodec] (tasks : List A2aTaskRecord) (snapshotHash queryHash : String)
    (pageToken : Option String) : ProtocolResult Nat :=
  match pageToken.filter (· ≠ "") with
  | none => .ok 0
  | some token => do
    let cursor ← decodePageToken token
    refuseIf (cursor.snapshotHash ≠ snapshotHash)
      (.invalid "A2A page_token is stale for the authorized task snapshot")
    refuseIf (cursor.queryHash ≠ queryHash)
      (.invalid "A2A page_token does not match the authorized list query")
    okOr (tasks.findIdx? fun task => task.mapping.taskId = cursor.nextTaskId)
      (.invalid "A2A page_token is not valid for the authorized task set")

/-- The page of some tasks. -/
def pageOf [Digest] [PageCodec] (tasks : List A2aTaskRecord) (request : A2aListTasksRequest)
    (principal : ProtocolPrincipal) : ProtocolResult A2aTaskPage := do
  let queryHash := listQueryHash principal request
  let snapshotHash := listSnapshotHash tasks
  let start ← pageStart tasks snapshotHash queryHash request.pageToken
  let pageSize := request.pageSize.getD 50
  let stop := min (start + pageSize) tasks.length
  let nextPageToken := (tasks[stop]?.map fun task =>
    encodePageToken task.mapping.taskId snapshotHash queryHash).getD ""
  pure ⟨(tasks.take stop).drop start, nextPageToken, pageSize, tasks.length⟩

/-- `prepare_list_tasks`. -/
def prepareListTasks [Digest] [PageCodec] (request : A2aListTasksRequest)
    (correlation : CorrelationIdentity) (principal : Option ProtocolPrincipal) :
    GovernedAction A2aAction :=
  let envelope := GovernanceEnvelope.evaluate correlation principal "tasks/list"
    (request.tenant.getD "tasks") (scopes [taskReadScope])
  match principal with
  | none => .denied envelope
  | some principal =>
    if envelope.authorization.isAllowed then
      match request.validate with
      | .error error => .denied (envelope.deny .invalidRequest error.message)
      | .ok _ =>
        if request.tenant.any fun tenant => principal.tenantId ≠ some tenant then
          .denied (envelope.deny .principalMismatch "A2A tenant is not accessible")
        else
          match pageOf (m.listedTasks request principal) request principal with
          | .error error => .denied (envelope.deny .invalidRequest error.message)
          | .ok page => .fromEnvelope envelope (.listTasks page)
    else .denied envelope

/-! ### `CancelTask` -/

/-- What `prepare_cancel_task_candidate` installs, once it may. -/
def requestCancellation [Digest] (existing : A2aTaskRecord) (envelope : GovernanceEnvelope)
    (taskId : String) : ProtocolResult (A2aTaskRecord × A2aMapper) := do
  let revision := m.revision + 1
  let projected := { existing with
    statusMessage := some "cancellation requested", updatedRevision := revision }
  let event := makePendingEvent projected revision .cancellationRequested none .pending revision
  let cancellation := makeCancellationRecord projected envelope .queued revision
  let m ← m.insertNewPendingEvent event
  let m ← m.insertNewCancellation cancellation
  pure (projected, { m with revision, tasks := m.tasks.insert taskId projected })

/-- `prepare_cancel_task_candidate`. -/
def prepareCancelTaskCandidate [Digest] (taskId : String) (correlation : CorrelationIdentity)
    (principal : Option ProtocolPrincipal) : GovernedAction A2aAction × A2aMapper :=
  match m.tasks[taskId]? with
  | none => (deniedUnknownTask correlation principal "tasks/cancel" taskId taskCancelScope, m)
  | some existing =>
    let envelope := taskEnvelope existing correlation principal "tasks/cancel" taskCancelScope
    if envelope.authorization.isAllowed then
      if existing.state.isTerminal then
        (.denied (envelope.deny .stateConflict "terminal A2A task cannot be cancelled"), m)
      else
        match m.cancellationOutbox[cancellationIdForTask existing]? with
        | some record => (.fromEnvelope envelope record.action, m)
        | none =>
          if m.hasCounterCapacity 0 1 then
            match m.requestCancellation existing envelope taskId with
            | .error error => (.denied (envelope.deny .stateConflict error.message), m)
            | .ok (projected, cancelling) =>
              (.fromEnvelope envelope (.cancelTask projected), cancelling)
          else
            (.denied (envelope.deny .stateConflict
              "A2A mapper revision reached the cross-language integer limit"), m)
    else (.denied envelope, m)

/-- `prepare_cancel_task`. -/
def prepareCancelTask [Digest] (taskId : String) (correlation : CorrelationIdentity)
    (principal : Option ProtocolPrincipal) : GovernedAction A2aAction × A2aMapper :=
  m.installed (m.prepareCancelTaskCandidate taskId correlation principal)

end A2aMapper

end AikitRuntime.A2a
