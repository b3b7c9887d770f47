import AikitRuntime.A2a.Records
import AikitRuntime.Library.Sequences

/-!
# The event store

The events of a task, as its clients see them, in the order in which they were appended. `InMemoryA2aEventStore` keeps
the newest of them in a bucket for each owner and task, the identity of every event it ever stored, and the number that
the next event of a task gets. A bucket is evicted only when a new one needs its place.

A reader replays the events of a task page by page, up to the number that was the newest at its first page.
-/

namespace AikitRuntime.A2a

open Library Durability Mcp Std

/-! ### Responses -/

/-- `A2aWireTaskStatus`. -/
structure A2aWireTaskStatus where
  state : A2aTaskState
  timestamp : Option String
  deriving DecidableEq

def A2aWireTaskStatus.json (status : A2aWireTaskStatus) : Value :=
  .ofFields ([("state", status.state.json)] ++ optionalField "timestamp" (status.timestamp.map .string))

/-- `A2aWirePart`. -/
inductive A2aWirePart where
  | text (text : String) (mediaType : Option String)
  | data (data : Value) (mediaType : Option String)
  | fileUrl (url : String) (filename : Option String) (mediaType : String)
  | fileRaw (raw : String) (filename : Option String) (mediaType : String)
  deriving DecidableEq

def A2aWirePart.json : A2aWirePart → Value
  | .text content mediaType =>
    .ofFields ([("text", .string content)] ++ optionalField "mediaType" (mediaType.map .string))
  | .data content mediaType => .ofFields ([("data", content)] ++ optionalField "mediaType" (mediaType.map .string))
  | .fileUrl url filename mediaType =>
    .ofFields ([("url", .string url)] ++ optionalField "filename" (filename.map .string) ++
      [("mediaType", .string mediaType)])
  | .fileRaw raw filename mediaType =>
    .ofFields ([("raw", .string raw)] ++ optionalField "filename" (filename.map .string) ++
      [("mediaType", .string mediaType)])

/-- A map that is left out when it is empty. -/
def optionalMap (key : String) (m : BTreeMap Value) : List (String × Value) :=
  optionalField key (if m.isEmpty then none else some (mapJson m))

/-- A flag that is left out when it is not set. -/
def optionalFlag (key : String) (flag : Bool) : List (String × Value) :=
  optionalField key (if flag then some (.bool true) else none)

/-- `A2aWireArtifact`. -/
structure A2aWireArtifact where
  artifactId : String
  name : Option String
  description : Option String
  parts : List A2aWirePart
  metadata : BTreeMap Value
  deriving DecidableEq

def A2aWireArtifact.json (artifact : A2aWireArtifact) : Value :=
  .ofFields ([("artifactId", .string artifact.artifactId)] ++ optionalField "name" (artifact.name.map .string) ++
    optionalField "description" (artifact.description.map .string) ++
    [("parts", .array (artifact.parts.map A2aWirePart.json))] ++ optionalMap "metadata" artifact.metadata)

/-- `A2aWireMessage`. -/
structure A2aWireMessage where
  messageId : String
  contextId : Option String
  taskId : Option String
  role : A2aRole
  parts : List A2aWirePart
  metadata : BTreeMap Value
  deriving DecidableEq

def A2aWireMessage.json (message : A2aWireMessage) : Value :=
  .ofFields ([("messageId", .string message.messageId)] ++
    optionalField "contextId" (message.contextId.map .string) ++
    optionalField "taskId" (message.taskId.map .string) ++
    [("role", message.role.json), ("parts", .array (message.parts.map A2aWirePart.json))] ++
    optionalMap "metadata" message.metadata)

/-- `A2aWireTask`. -/
structure A2aWireTask where
  id : String
  contextId : String
  status : A2aWireTaskStatus
  artifacts : Option (List A2aWireArtifact)
  history : Option (List A2aWireMessage)
  deriving DecidableEq

def A2aWireTask.json (task : A2aWireTask) : Value :=
  .ofFields ([("id", .string task.id), ("contextId", .string task.contextId), ("status", task.status.json)] ++
    optionalField "artifacts" (task.artifacts.map fun artifacts => .array (artifacts.map A2aWireArtifact.json)) ++
    optionalField "history" (task.history.map fun history => .array (history.map A2aWireMessage.json)))

/-- `A2aTaskStatusUpdateEvent`. -/
structure A2aTaskStatusUpdateEvent where
  taskId : String
  contextId : String
  status : A2aWireTaskStatus
  deriving DecidableEq

def A2aTaskStatusUpdateEvent.json (update : A2aTaskStatusUpdateEvent) : Value :=
  .ofFields [("taskId", .string update.taskId), ("contextId", .string update.contextId), ("status", update.status.json)]

/-- `A2aTaskArtifactUpdateEvent`. -/
structure A2aTaskArtifactUpdateEvent where
  taskId : String
  contextId : String
  artifact : A2aWireArtifact
  append : Bool
  lastChunk : Bool
  deriving DecidableEq

def A2aTaskArtifactUpdateEvent.json (update : A2aTaskArtifactUpdateEvent) : Value :=
  .ofFields ([("taskId", .string update.taskId), ("contextId", .string update.contextId),
    ("artifact", update.artifact.json)] ++ optionalFlag "append" update.append ++
    optionalFlag "lastChunk" update.lastChunk)

/-- `A2aStreamResponse`. -/
inductive A2aStreamResponse where
  | task (task : A2aWireTask)
  | statusUpdate (update : A2aTaskStatusUpdateEvent)
  | artifactUpdate (update : A2aTaskArtifactUpdateEvent)
  | message (message : A2aWireMessage)
  deriving DecidableEq

namespace A2aStreamResponse

def json : A2aStreamResponse → Value
  | .task content => .ofFields [("task", content.json)]
  | .statusUpdate content => .ofFields [("statusUpdate", content.json)]
  | .artifactUpdate content => .ofFields [("artifactUpdate", content.json)]
  | .message content => .ofFields [("message", content.json)]

/-- `serde_json::to_vec(response)?.len()`. -/
def bytes (response : A2aStreamResponse) : Nat := serializedBytes response.json

/-- `A2aStreamResponse::is_terminal`. -/
def isTerminal : A2aStreamResponse → Bool
  | .task content => content.status.state.isTerminal
  | .statusUpdate content => content.status.state.isTerminal
  | .artifactUpdate _ => false
  | .message _ => true

end A2aStreamResponse

/-! ### Events -/

/-- `A2aEventOwner`. -/
structure A2aEventOwner where
  subject : String
  tenantId : Option String
  deriving DecidableEq

/-- `A2aPersistedEvent`. -/
structure A2aPersistedEvent where
  logicalEventId : String
  eventId : Nat
  owner : A2aEventOwner
  taskId : String
  response : A2aStreamResponse
  deriving DecidableEq

/-- `A2aEventRetention`. -/
structure A2aEventRetention where
  maxEvents : Nat
  maxEventBytes : Nat
  maxRetainedBytes : Nat
  deriving DecidableEq

/-- `A2aReplayLimits`. -/
structure A2aReplayLimits where
  maxEvents : Nat
  maxBytes : Nat
  deriving DecidableEq

/-- `A2aReplayPage`. -/
structure A2aReplayPage where
  events : List A2aPersistedEvent
  highWater : Nat
  deriving DecidableEq

/-- `A2aEventStoreError`. -/
inductive A2aEventStoreError where
  | retentionGap
  | invalidEventId
  | store (error : ProtocolError)
  deriving DecidableEq

/-- `A2aEventAppendError`. -/
inductive A2aEventAppendError where
  | retryable
  | permanent (error : ProtocolError)
  deriving DecidableEq

/-- `A2aEventAppendOutcome`. -/
inductive A2aEventAppendOutcome where
  | inserted (event : A2aPersistedEvent)
  | existing (event : A2aPersistedEvent)
  deriving DecidableEq

/-! ### The state of the store -/

/-- `A2aEventKey`. -/
structure A2aEventKey where
  owner : A2aEventOwner
  taskId : String
  deriving DecidableEq

/-- The key of an event. -/
def A2aPersistedEvent.key (event : A2aPersistedEvent) : A2aEventKey := ⟨event.owner, event.taskId⟩

namespace A2aEventKey

/-- The derived order. -/
def cmp : A2aEventKey → A2aEventKey → Ordering :=
  compareLex (compareOn (·.owner.subject)) (compareLex (compareOn (·.owner.tenantId)) (compareOn (·.taskId)))

instance : TransCmp cmp := by
  unfold cmp
  infer_instance

instance : LawfulEqCmp cmp where
  eq_of_compare {a b} h := by
    simp only [cmp, compareLex_eq_eq, compareOn, Std.compare_eq_iff_eq] at h
    obtain ⟨⟨subject, tenantId⟩, taskId⟩ := a
    obtain ⟨⟨subject', tenantId'⟩, taskId'⟩ := b
    simpa [and_assoc] using h

end A2aEventKey

/-- `InMemoryEventBucket`. -/
structure InMemoryEventBucket where
  retainedBytes : Nat
  events : List (A2aPersistedEvent × Nat)
  lastTouched : Nat
  terminal : Bool

/-- `InMemoryEventBucket::default`. -/
def InMemoryEventBucket.empty : InMemoryEventBucket := ⟨0, [], 0, false⟩

/-- `InMemoryLogicalEvent`. -/
structure InMemoryLogicalEvent where
  key : A2aEventKey
  event : A2aPersistedEvent
  deriving DecidableEq

/-- `InMemoryEventStoreState`. -/
structure InMemoryEventStoreState where
  buckets : ExtTreeMap A2aEventKey InMemoryEventBucket A2aEventKey.cmp
  logicalEvents : BTreeMap InMemoryLogicalEvent
  nextIds : ExtTreeMap A2aEventKey Nat A2aEventKey.cmp
  touchSequence : Nat

/-- `InMemoryA2aEventStore`. -/
structure InMemoryA2aEventStore where
  state : InMemoryEventStoreState
  maxBuckets : Nat
  maxBucketsPerOwner : Nat

/-- `InMemoryA2aEventStore::new`. -/
def InMemoryA2aEventStore.new (maxBuckets maxBucketsPerOwner : Nat) : ProtocolResult InMemoryA2aEventStore := do
  refuseIf (maxBuckets = 0 ∨ maxBucketsPerOwner = 0 ∨ maxBuckets < maxBucketsPerOwner)
    (.invalid "invalid in-memory A2A event bucket limits")
  return ⟨⟨∅, ∅, ∅, 0⟩, maxBuckets, maxBucketsPerOwner⟩

/-! ### Eviction -/

namespace InMemoryEventStoreState

variable (s : InMemoryEventStoreState)

/-- `min_by(..)`, the first of the least. -/
def oldest : List (A2aEventKey × InMemoryEventBucket) → Option (A2aEventKey × InMemoryEventBucket)
  | [] => none
  | entry :: rest =>
    match oldest rest with
    | none => some entry
    | some other => if other.2.lastTouched < entry.2.lastTouched then some other else some entry

/-- `evict_oldest_terminal_bucket`. The entries come in the order of their keys. -/
def evictOldestTerminalBucket (owner : Option A2aEventOwner) : Bool × InMemoryEventStoreState :=
  let candidates := s.buckets.toList.filter fun entry =>
    entry.2.terminal && (match owner with | none => true | some owner => entry.1.owner = owner)
  match oldest candidates with
  | none => (false, s)
  | some candidate => (true, { s with buckets := s.buckets.erase candidate.1 })

/-- `ensure_event_bucket_capacity`. -/
def ensureEventBucketCapacity (owner : A2aEventOwner) (maxBuckets maxBucketsPerOwner : Nat) :
    ProtocolResult Unit × InMemoryEventStoreState :=
  let ownerCount := (s.buckets.keys.filter fun key => key.owner = owner).length
  let forOwner := if maxBucketsPerOwner ≤ ownerCount then s.evictOldestTerminalBucket (some owner) else (true, s)
  if !forOwner.1 then
    (.error (.conflict "active A2A event buckets exhausted the per-owner limit"), forOwner.2)
  else
    let global :=
      if maxBuckets ≤ forOwner.2.buckets.size then forOwner.2.evictOldestTerminalBucket none else (true, forOwner.2)
    if !global.1 then (.error (.conflict "active A2A event buckets exhausted the global limit"), global.2)
    else (.ok (), global.2)

end InMemoryEventStoreState

/-! ### Append -/

/-- What `append` is called with. -/
structure AppendCall where
  logicalEventId : String
  owner : A2aEventOwner
  taskId : String
  response : A2aStreamResponse
  retention : A2aEventRetention

/-- `validate_event_limits`. -/
def validateEventLimits (limits : A2aEventRetention) : ProtocolResult Unit :=
  refuseIf (limits.maxEvents = 0 ∨ limits.maxEventBytes = 0 ∨ limits.maxRetainedBytes < limits.maxEventBytes)
    (.invalid "invalid A2A event retention limits")

/-- `validate_logical_event_id`. -/
def validateLogicalEventId (logicalEventId : String) : ProtocolResult Unit :=
  refuseIf (logicalEventId = "" ∨ 1024 < logicalEventId.utf8ByteSize ∨ hasControl logicalEventId = true)
    (.invalid "invalid A2A logical event identity")

/-- The largest event id, `9_007_199_254_740_991`. -/
def maxEventId : Nat := 9007199254740991

/-- The oldest events go until both limits are kept. -/
def trim (retention : A2aEventRetention) : List (A2aPersistedEvent × Nat) → Nat → List (A2aPersistedEvent × Nat) × Nat
  | [], retained => ([], retained)
  | entry :: rest, retained =>
    if retention.maxEvents < rest.length + 1 ∨ retention.maxRetainedBytes < retained then
      trim retention rest (retained - entry.2)
    else (entry :: rest, retained)

namespace AppendCall

variable (call : AppendCall)

def key : A2aEventKey := ⟨call.owner, call.taskId⟩

/-- What is checked of the call alone. -/
def validate : ProtocolResult Unit := do
  validateEventLimits call.retention
  validateLogicalEventId call.logicalEventId
  refuseIf (call.retention.maxEventBytes < call.response.bytes)
    (.conflict "A2A event exceeds the configured event byte limit")

/-- The event, with its id. -/
def event (eventId : Nat) : A2aPersistedEvent :=
  ⟨call.logicalEventId, eventId, call.owner, call.taskId, call.response⟩

/-- An event was stored under this identity. -/
def resolve (existing : InMemoryLogicalEvent) : Except A2aEventAppendError A2aEventAppendOutcome :=
  if existing.key ≠ call.key ∨ existing.event.logicalEventId ≠ call.logicalEventId ∨
      existing.event.owner ≠ call.owner ∨ existing.event.taskId ≠ call.taskId ∨
      existing.event.response ≠ call.response then
    .error (.permanent (.conflict "A2A logical event identity was reused with different content"))
  else .ok (.existing existing.event)

end AppendCall

namespace InMemoryEventBucket

/-- One more event in the bucket, and what is retained then. -/
def push (bucket : InMemoryEventBucket) (call : AppendCall) (event : A2aPersistedEvent) (touchSequence : Nat) :
    InMemoryEventBucket :=
  let trimmed := trim call.retention (bucket.events ++ [(event, call.response.bytes)])
    (saturatingAdd bucket.retainedBytes call.response.bytes)
  ⟨trimmed.2, trimmed.1, touchSequence, call.response.isTerminal⟩

end InMemoryEventBucket

namespace InMemoryEventStoreState

variable (s : InMemoryEventStoreState)

/-- `next_ids.get(&key).copied().unwrap_or(1)`. -/
def nextId (key : A2aEventKey) : Nat := s.nextIds[key]?.getD 1

/-- A new event. -/
def insertEvent (call : AppendCall) : Except A2aEventAppendError A2aEventAppendOutcome × InMemoryEventStoreState :=
  let nextId := s.nextId call.key
  if nextId = 0 ∨ maxEventId < nextId then
    (.error (.permanent (.conflict "A2A event id reached the cross-language integer limit")), s)
  else
    let event := call.event nextId
    match checkedAdd nextId 1 with
    | none => (.error (.permanent (.conflict "A2A event id overflow")), s)
    | some following =>
      let counted := { s with nextIds := s.nextIds.insert call.key following }
      match checkedAdd s.touchSequence 1 with
      | none => (.error (.permanent (.conflict "A2A event touch sequence overflow")), counted)
      | some touchSequence =>
        let bucket := (s.buckets[call.key]?.getD .empty).push call event touchSequence
        (.ok (.inserted event),
          { counted with
            touchSequence
            buckets := s.buckets.insert call.key bucket
            logicalEvents := s.logicalEvents.insert call.logicalEventId ⟨call.key, event⟩ })

/-- There is a bucket for the event, or room for one. -/
def admitBucket (call : AppendCall) (maxBuckets maxBucketsPerOwner : Nat) :
    Except A2aEventAppendError Unit × InMemoryEventStoreState :=
  match s.buckets[call.key]? with
  | none =>
    let ensured := s.ensureEventBucketCapacity call.owner maxBuckets maxBucketsPerOwner
    (ensured.1.mapError fun _ => .retryable, ensured.2)
  | some bucket =>
    if bucket.terminal then
      (.error (.permanent (.conflict "terminal A2A event bucket cannot accept a new logical event")), s)
    else (.ok (), s)

end InMemoryEventStoreState

namespace InMemoryA2aEventStore

variable (store : InMemoryA2aEventStore)

/-- `InMemoryA2aEventStore::append`. -/
def append (call : AppendCall) : Except A2aEventAppendError A2aEventAppendOutcome × InMemoryA2aEventStore :=
  match call.validate with
  | .error error => (.error (.permanent error), store)
  | .ok () =>
    match store.state.logicalEvents[call.logicalEventId]? with
    | some existing => (call.resolve existing, store)
    | none =>
      let admitted := store.state.admitBucket call store.maxBuckets store.maxBucketsPerOwner
      match admitted.1 with
      | .error error => (.error error, { store with state := admitted.2 })
      | .ok () =>
        let inserted := admitted.2.insertEvent call
        (inserted.1, { store with state := inserted.2 })

end InMemoryA2aEventStore

/-! ### Replay -/

/-- The events of a page: those after the cursor, up to the high water, while the limits admit them. -/
def pageEvents (after : Option Nat) (highWater : Nat) (limits : A2aReplayLimits) :
    List (A2aPersistedEvent × Nat) → Nat → Nat → List A2aPersistedEvent
  | [], _, _ => []
  | (event, eventBytes) :: rest, count, bytes =>
    if after.any (event.eventId ≤ ·) then pageEvents after highWater limits rest count bytes
    else if highWater < event.eventId then []
    else if limits.maxEvents ≤ count ∨ limits.maxBytes < saturatingAdd bytes eventBytes then []
    else event :: pageEvents after highWater limits rest (count + 1) (saturatingAdd bytes eventBytes)

/-- `InMemoryA2aEventStore::replay_page`. -/
def InMemoryA2aEventStore.replayPage (store : InMemoryA2aEventStore) (owner : A2aEventOwner) (taskId : String)
    (afterEventId throughHighWater : Option Nat) (limits : A2aReplayLimits) :
    Except A2aEventStoreError A2aReplayPage := do
  refuseIf (limits.maxEvents = 0 ∨ limits.maxBytes = 0) (.store (.invalid "invalid A2A replay limits"))
  let key : A2aEventKey := ⟨owner, taskId⟩
  match store.state.buckets[key]? with
  | none => if afterEventId.isSome then .error .retentionGap else .ok ⟨[], 0⟩
  | some bucket =>
    let currentHighWater := store.state.nextId key - 1
    let highWater := throughHighWater.getD currentHighWater
    refuseIf (currentHighWater < highWater ∨ afterEventId.any (highWater < ·)) .invalidEventId
    let earliest := (bucket.events.head?.map (·.1.eventId)).getD (store.state.nextId key)
    refuseIf (afterEventId.any fun after => saturatingAdd after 1 < earliest) .retentionGap
    return ⟨pageEvents afterEventId highWater limits bucket.events 0 0, highWater⟩

end AikitRuntime.A2a
