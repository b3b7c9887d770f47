import AikitRuntime.A2a.Records

/-!
# The A2A mapper

`A2aMapper` keeps all tasks, receipts, dispatches, cancellation controls and event intents, the sessions of
the contexts, and two counters: a sequence for generated ids and a revision. Beside the records it keeps
what can be computed from them: how many bytes they take, which events are due when, and which dispatches
have their acceptance event settled.

The three outboxes are bounded the same way. `Outbox` says how, and a record gets in through `preflightNew`
or `replacedBytes` only.
-/

namespace AikitRuntime.A2a

open Library Durability Mcp Std

/-! ### Orders -/

instance : TransCmp A2aContextOwner.cmp := by
  unfold A2aContextOwner.cmp
  infer_instance

instance : LawfulEqCmp A2aContextOwner.cmp where
  eq_of_compare {a b} h := by
    simp only [A2aContextOwner.cmp, compareLex_eq_eq, compareOn, Std.compare_eq_iff_eq] at h
    cases a
    cases b
    simpa using h

/-- `A2aPendingEventScheduleKey`. -/
structure A2aPendingEventScheduleKey where
  nextAttemptAtUnixMs : Nat
  sourceRevision : Nat
  deliveryRank : Nat
  eventId : String
  deriving DecidableEq

namespace A2aPendingEventScheduleKey

/-- The derived order. -/
def cmp : A2aPendingEventScheduleKey → A2aPendingEventScheduleKey → Ordering :=
  compareLex (compareOn (·.nextAttemptAtUnixMs))
    (compareLex (compareOn (·.sourceRevision))
      (compareLex (compareOn (·.deliveryRank)) (compareOn (·.eventId))))

instance : TransCmp cmp := by
  unfold cmp
  infer_instance

instance : LawfulEqCmp cmp where
  eq_of_compare {a b} h := by
    simp only [cmp, compareLex_eq_eq, compareOn, Std.compare_eq_iff_eq] at h
    cases a
    cases b
    simpa using h

/-- `A2aPendingEventScheduleKey::from_event`. -/
def fromEvent (event : A2aPendingEventIntent) : Option A2aPendingEventScheduleKey :=
  if event.state.isOpen then
    some ⟨event.nextAttemptAtUnixMs.getD 0, event.sourceRevision, event.kind.deliveryRank, event.eventId⟩
  else none

end A2aPendingEventScheduleKey

/-- `BTreeSet<A2aPendingEventScheduleKey>`. -/
abbrev Schedule : Type := ExtTreeMap A2aPendingEventScheduleKey Unit A2aPendingEventScheduleKey.cmp

/-- `A2aDispatchEventBinding`. -/
structure A2aDispatchEventBinding where
  ownerSubject : String
  ownerTenantId : Option String
  taskId : String
  contextId : String
  sessionId : String
  runId : String
  messageId : String
  sourceRevision : Nat
  deriving DecidableEq

namespace A2aDispatchEventBinding

/-- The derived order. -/
def cmp : A2aDispatchEventBinding → A2aDispatchEventBinding → Ordering :=
  compareLex (compareOn (·.ownerSubject)) (compareLex (compareOn (·.ownerTenantId))
    (compareLex (compareOn (·.taskId)) (compareLex (compareOn (·.contextId))
      (compareLex (compareOn (·.sessionId)) (compareLex (compareOn (·.runId))
        (compareLex (compareOn (·.messageId)) (compareOn (·.sourceRevision))))))))

instance : TransCmp cmp := by
  unfold cmp
  infer_instance

instance : LawfulEqCmp cmp where
  eq_of_compare {a b} h := by
    simp only [cmp, compareLex_eq_eq, compareOn, Std.compare_eq_iff_eq] at h
    cases a
    cases b
    simpa using h

/-- `A2aDispatchEventBinding::from_event`. -/
def fromEvent (event : A2aPendingEventIntent) : Option A2aDispatchEventBinding :=
  event.messageId.map fun messageId =>
    ⟨event.ownerSubject, event.ownerTenantId, event.taskId, event.contextId, event.sessionId,
      event.runId, messageId, event.sourceRevision⟩

/-- `A2aDispatchEventBinding::from_dispatch`. -/
def fromDispatch (record : A2aDispatchOutboxRecord) : A2aDispatchEventBinding :=
  ⟨record.ownerSubject, record.ownerTenantId, record.taskId, record.contextId, record.sessionId,
    record.runId, record.messageId, record.createdRevision⟩

end A2aDispatchEventBinding

/-- How many events are bound to a dispatch, and how many of them are settled. -/
abbrev Readiness : Type := ExtTreeMap A2aDispatchEventBinding (Nat × Nat) A2aDispatchEventBinding.cmp

/-- `add_dispatch_event_readiness`. -/
def addDispatchEventReadiness (readiness : Readiness) (event : A2aPendingEventIntent) : Readiness :=
  match A2aDispatchEventBinding.fromEvent event with
  | none => readiness
  | some binding =>
    let counts := readiness[binding]?.getD (0, 0)
    readiness.insert binding
      (saturatingAdd counts.1 1, if event.state = .settled then saturatingAdd counts.2 1 else counts.2)

/-- `remove_dispatch_event_readiness`. -/
def removeDispatchEventReadiness (readiness : Readiness) (event : A2aPendingEventIntent) : Readiness :=
  match A2aDispatchEventBinding.fromEvent event with
  | none => readiness
  | some binding =>
    match readiness[binding]? with
    | none => readiness
    | some counts =>
      let left := counts.1 - 1
      if left = 0 then readiness.erase binding
      else readiness.insert binding
        (left, if event.state = .settled then counts.2 - 1 else counts.2)

/-! ### Capacities -/

/-- `A2A_MAX_SAFE_INTEGER`. -/
def maxSafeInteger : Nat := 9007199254740991

/-- `ensure_count_capacity`. -/
def ensureCountCapacity (current maximum : Nat) (kind : String) : ProtocolResult Unit :=
  refuseIf (maximum ≤ current) (.conflict s!"A2A {kind} capacity is exhausted")

/-- `ensure_byte_capacity`. -/
def ensureByteCapacity (current added maximum : Nat) (kind : String) : ProtocolResult Unit :=
  refuseIf ((checkedAdd current added).all fun total => maximum < total)
    (.conflict s!"A2A {kind} byte capacity is exhausted")

/-- `serialized_entry_storage_bytes`. -/
def serializedEntryStorageBytes (key : String) (v : Value) (kind : String) : ProtocolResult Nat :=
  okOr (checkedAdd key.utf8ByteSize (serializedBytes v)) (.invalid s!"A2A {kind} bytes overflowed")

/-- The sum of some sizes (`try_fold` with `checked_add`). -/
def sumBytes (overflow : ProtocolError) : List (ProtocolResult Nat) → ProtocolResult Nat :=
  List.foldlM (fun total size => do okOr (checkedAdd total (← size)) overflow) 0

/-- How an outbox measures and bounds its records. -/
structure Outbox (R : Type) where
  kind : String
  /-- The kind, in the messages about an owner's bytes. -/
  ownerKind : String
  /-- What is registered once. -/
  identity : String
  owner : R → A2aContextOwner
  json : R → Value
  maxCount : Nat
  maxPerOwner : Nat
  maxBytes : Nat
  maxBytesPerOwner : Nat

namespace Outbox

variable {R : Type} (outbox : Outbox R) (records : BTreeMap R) (bytes : Nat)

/-- `dispatch_entry_storage_bytes`, `cancellation_entry_storage_bytes` and
`pending_event_entry_storage_bytes`. -/
def entryStorageBytes (key : String) (record : R) : ProtocolResult Nat :=
  serializedEntryStorageBytes key (outbox.json record) outbox.kind

/-- `dispatch_bytes_for_owner`, `cancellation_bytes_for_owner` and `pending_event_bytes_for_owner`. -/
def bytesForOwner (owner : A2aContextOwner) : ProtocolResult Nat :=
  sumBytes (.invalid s!"A2A owner {outbox.ownerKind} bytes overflowed")
    ((records.toList.filter fun entry => outbox.owner entry.2 = owner).map fun entry =>
      outbox.entryStorageBytes entry.1 entry.2)

/-- `preflight_new_cancellation` and `preflight_new_pending_event`, and what `insert_new_dispatch` checks:
the bytes that the new record adds. -/
def preflightNew (key : String) (record : R) : ProtocolResult Nat := do
  refuseIf (records.contains key = true) (.conflict s!"A2A {outbox.identity} is already registered")
  ensureCountCapacity records.size outbox.maxCount outbox.kind
  let owner := outbox.owner record
  ensureCountCapacity (records.values.filter fun current => outbox.owner current = owner).length
    outbox.maxPerOwner s!"owner {outbox.kind}"
  let added ← outbox.entryStorageBytes key record
  ensureByteCapacity bytes added outbox.maxBytes outbox.kind
  let ownerBytes ← outbox.bytesForOwner records owner
  ensureByteCapacity ownerBytes added outbox.maxBytesPerOwner s!"owner {outbox.kind}"
  pure added

/-- `total.checked_sub(old).and_then(|bytes| bytes.checked_add(new))`. -/
def exchange (total old new : Nat) : Option Nat :=
  if old ≤ total then checkedAdd (total - old) new else none

/-- What `replace_dispatch_record`, `replace_cancellation_record` and `replace_pending_event` check once
the identities agree: the bytes that the outbox then takes. -/
def replacedBytes (key : String) (current replacement : R) : ProtocolResult Nat := do
  let oldBytes ← outbox.entryStorageBytes key current
  let newBytes ← outbox.entryStorageBytes key replacement
  let nextBytes ← okOr (exchange bytes oldBytes newBytes)
    (.conflict s!"A2A {outbox.kind} bytes overflowed")
  refuseIf (outbox.maxBytes < nextBytes) (.conflict s!"A2A {outbox.kind} byte capacity is exhausted")
  let ownerBytes ← outbox.bytesForOwner records (outbox.owner current)
  let nextOwnerBytes ← okOr (exchange ownerBytes oldBytes newBytes)
    (.conflict s!"A2A owner {outbox.ownerKind} bytes overflowed")
  refuseIf (outbox.maxBytesPerOwner < nextOwnerBytes)
    (.conflict s!"A2A owner {outbox.kind} byte capacity is exhausted")
  pure nextBytes

end Outbox

def mib (n : Nat) : Nat := n * 1024 * 1024

def dispatches : Outbox A2aDispatchOutboxRecord where
  kind := "dispatch"
  ownerKind := "dispatch"
  identity := "dispatch identity"
  owner := A2aDispatchOutboxRecord.owner
  json := A2aDispatchOutboxRecord.json
  maxCount := 50000
  maxPerOwner := 5000
  maxBytes := mib 128
  maxBytesPerOwner := mib 16

def cancellations : Outbox A2aCancellationOutboxRecord where
  kind := "cancellation"
  ownerKind := "cancellation"
  identity := "cancellation identity"
  owner := A2aCancellationOutboxRecord.owner
  json := A2aCancellationOutboxRecord.json
  maxCount := 10000
  maxPerOwner := 1000
  maxBytes := mib 32
  maxBytesPerOwner := mib 4

def events : Outbox A2aPendingEventIntent where
  kind := "pending event"
  ownerKind := "event"
  identity := "event logical identity"
  owner := A2aPendingEventIntent.owner
  json := A2aPendingEventIntent.json
  maxCount := 100000
  maxPerOwner := 10000
  maxBytes := mib 128
  maxBytesPerOwner := mib 16

/-! ### The mapper -/

/-- `A2aMapper`. -/
structure A2aMapper where
  schemaVersion : Nat
  contexts : BTreeMap String
  contextOwners : BTreeMap A2aContextOwner
  tasks : BTreeMap A2aTaskRecord
  receipts : BTreeMap A2aMessageReceipt
  receiptBytes : Nat
  dispatchOutbox : BTreeMap A2aDispatchOutboxRecord
  dispatchBytes : Nat
  cancellationOutbox : BTreeMap A2aCancellationOutboxRecord
  cancellationBytes : Nat
  pendingEvents : BTreeMap A2aPendingEventIntent
  pendingEventBytes : Nat
  pendingEventSchedule : Schedule
  pendingEventScheduleByOwner : ExtTreeMap A2aContextOwner Schedule A2aContextOwner.cmp
  dispatchEventReadiness : Readiness
  nextSequence : Nat
  revision : Nat
  deriving DecidableEq

namespace A2aMapper

/-- `A2aMapper::new`. -/
def new : A2aMapper where
  schemaVersion := 5
  contexts := ∅
  contextOwners := ∅
  tasks := ∅
  receipts := ∅
  receiptBytes := 0
  dispatchOutbox := ∅
  dispatchBytes := 0
  cancellationOutbox := ∅
  cancellationBytes := 0
  pendingEvents := ∅
  pendingEventBytes := 0
  pendingEventSchedule := ∅
  pendingEventScheduleByOwner := ∅
  dispatchEventReadiness := ∅
  nextSequence := 1
  revision := 0

variable (m : A2aMapper)

/-- `next_revision`. -/
def nextRevision : ProtocolResult Nat := do
  refuseIf (maxSafeInteger < m.revision + 1)
    (.conflict "A2A mapper revision reached the cross-language integer limit")
  pure (m.revision + 1)

/-- `has_counter_capacity`. -/
def hasCounterCapacity (generatedIds revisionSteps : Nat) : Bool :=
  m.nextSequence + generatedIds ≤ maxSafeInteger && m.revision + revisionSteps ≤ maxSafeInteger

/-! #### Outboxes -/

/-- `insert_new_dispatch`. -/
def insertNewDispatch (record : A2aDispatchOutboxRecord) : ProtocolResult A2aMapper := do
  let added ← dispatches.preflightNew m.dispatchOutbox m.dispatchBytes record.dispatchId record
  pure { m with
    dispatchBytes := m.dispatchBytes + added
    dispatchOutbox := m.dispatchOutbox.insert record.dispatchId record }

/-- `insert_new_cancellation`. -/
def insertNewCancellation (record : A2aCancellationOutboxRecord) : ProtocolResult A2aMapper := do
  let added ← cancellations.preflightNew m.cancellationOutbox m.cancellationBytes
    record.cancellationId record
  pure { m with
    cancellationBytes := m.cancellationBytes + added
    cancellationOutbox := m.cancellationOutbox.insert record.cancellationId record }

/-- The schedules with the key of an event, if it is to be published. -/
def withSchedule (event : A2aPendingEventIntent) : A2aMapper :=
  match A2aPendingEventScheduleKey.fromEvent event with
  | none => m
  | some key => { m with
      pendingEventSchedule := m.pendingEventSchedule.insert key ()
      pendingEventScheduleByOwner := m.pendingEventScheduleByOwner.insert event.owner
        ((m.pendingEventScheduleByOwner[event.owner]?.getD ∅).insert key ()) }

/-- The schedules without the key of an event. An owner without keys has no schedule. -/
def withoutSchedule (event : A2aPendingEventIntent) : A2aMapper :=
  match A2aPendingEventScheduleKey.fromEvent event with
  | none => m
  | some key => { m with
      pendingEventSchedule := m.pendingEventSchedule.erase key
      pendingEventScheduleByOwner :=
        match m.pendingEventScheduleByOwner[event.owner]? with
        | none => m.pendingEventScheduleByOwner
        | some schedule =>
          if (schedule.erase key).isEmpty then m.pendingEventScheduleByOwner.erase event.owner
          else m.pendingEventScheduleByOwner.insert event.owner (schedule.erase key) }

/-- `insert_new_pending_event`. -/
def insertNewPendingEvent (event : A2aPendingEventIntent) : ProtocolResult A2aMapper := do
  let added ← events.preflightNew m.pendingEvents m.pendingEventBytes event.eventId event
  let scheduled := { m with pendingEventBytes := m.pendingEventBytes + added }.withSchedule event
  pure { scheduled with
    dispatchEventReadiness := addDispatchEventReadiness scheduled.dispatchEventReadiness event
    pendingEvents := scheduled.pendingEvents.insert event.eventId event }

/-- `replace_dispatch_record`. -/
def replaceDispatchRecord (dispatchId : String) (replacement : A2aDispatchOutboxRecord) :
    ProtocolResult A2aMapper := do
  let current ← okOr m.dispatchOutbox[dispatchId]? (.notFound "A2A dispatch is not registered")
  refuseIf (¬ replacement.SameIdentity dispatchId current)
    (.conflict "A2A dispatch replacement changed immutable identity")
  let nextBytes ← dispatches.replacedBytes m.dispatchOutbox m.dispatchBytes dispatchId current replacement
  pure { m with
    dispatchBytes := nextBytes
    dispatchOutbox := m.dispatchOutbox.insert dispatchId replacement }

/-- `replace_cancellation_record`. -/
def replaceCancellationRecord (cancellationId : String) (replacement : A2aCancellationOutboxRecord) :
    ProtocolResult A2aMapper := do
  let current ← okOr m.cancellationOutbox[cancellationId]?
    (.notFound "A2A cancellation is not registered")
  refuseIf (¬ replacement.SameIdentity cancellationId current)
    (.conflict "A2A cancellation replacement changed immutable identity")
  let nextBytes ← cancellations.replacedBytes m.cancellationOutbox m.cancellationBytes cancellationId
    current replacement
  pure { m with
    cancellationBytes := nextBytes
    cancellationOutbox := m.cancellationOutbox.insert cancellationId replacement }

/-- `replace_pending_event`. -/
def replacePendingEvent (eventId : String) (replacement : A2aPendingEventIntent) :
    ProtocolResult A2aMapper := do
  let current ← okOr m.pendingEvents[eventId]? (.notFound "A2A event intent is not registered")
  refuseIf (¬ replacement.SameIdentity eventId current)
    (.conflict "A2A event replacement changed immutable identity")
  let nextBytes ← events.replacedBytes m.pendingEvents m.pendingEventBytes eventId current replacement
  let scheduled :=
    ({ m with pendingEventBytes := nextBytes }.withoutSchedule current).withSchedule replacement
  pure { scheduled with
    dispatchEventReadiness := addDispatchEventReadiness
      (removeDispatchEventReadiness scheduled.dispatchEventReadiness current) replacement
    pendingEvents := scheduled.pendingEvents.insert eventId replacement }

/-- `settle_dispatch_at_revision`. -/
def settleDispatchAtRevision (dispatchId : String) (revision : Nat) : ProtocolResult A2aMapper := do
  let current ← okOr m.dispatchOutbox[dispatchId]? (.notFound "A2A dispatch is not registered")
  if current.state = .settled then pure m else
    m.replaceDispatchRecord dispatchId
      { current with state := .settled, lastError := none, updatedRevision := revision }

/-- `settle_task_cancellation_at_revision`. -/
def settleTaskCancellationAtRevision (taskId : String) (revision : Nat) : ProtocolResult A2aMapper :=
  match m.cancellationOutbox.toList.find? fun entry => entry.2.taskId = taskId with
  | none => .ok m
  | some (cancellationId, current) =>
    if current.state = .settled then .ok m else
      m.replaceCancellationRecord cancellationId
        { current with state := .settled, lastError := none, updatedRevision := revision }

end A2aMapper

end AikitRuntime.A2a
