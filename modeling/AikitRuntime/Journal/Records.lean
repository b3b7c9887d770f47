import AikitRuntime.Library.NumberMaps
import AikitRuntime.Library.Counters
import AikitRuntime.Library.Refusals
import AikitRuntime.Durability.Json

/-!
# The records of the mapper journal

A mapper is persisted as one journal: deltas in a chain of hashes, checkpoints of the whole mapper,
and a manifest that says where the journal stands. This module has these records and the checks
that they pass wherever they are read.

What the journal takes from the rest of the crate comes in two parameters. `MapperRecords` has the
records that an operation carries, of which the journal reads the ids. `JournalHost` has the hash
of a record, with the form that its digests have, the hash of some bytes, the length of a delta in
JSON, and the decoding of a mapper. Encoding a record does not fail, and neither does a hash.
-/

namespace AikitRuntime.Journal

open Library Durability

/-- `A2A_MAPPER_DELTA_FORMAT_VERSION`. -/
def a2aMapperDeltaFormatVersion : Nat := 1

/-- `A2A_MAPPER_DELTA_MAX_BYTES`. -/
def a2aMapperDeltaMaxBytes : Nat := 256 * 1024

/-- `A2A_MAPPER_DELTA_MAX_OPERATIONS`. -/
def a2aMapperDeltaMaxOperations : Nat := 1024

/-- `A2A_MAPPER_CHECKPOINT_MAX_BYTES`. -/
def a2aMapperCheckpointMaxBytes : Nat := 32 * 1024 * 1024

/-- `A2A_MAPPER_JOURNAL_MAX_PAGE_DELTAS`. -/
def a2aMapperJournalMaxPageDeltas : Nat := 128

/-- `A2A_MAPPER_JOURNAL_MAX_PAGE_BYTES`. -/
def a2aMapperJournalMaxPageBytes : Nat := 8 * 1024 * 1024

/-- `A2A_MAPPER_JOURNAL_MIN_PAGE_BYTES`. -/
def a2aMapperJournalMinPageBytes : Nat := a2aMapperDeltaMaxBytes

/-- `A2A_MAPPER_JOURNAL_ID_MAX_BYTES`. -/
def a2aMapperJournalIdMaxBytes : Nat := 512

/-- `A2aJournalToken`. -/
structure A2aJournalToken where
  sequence : Nat
  revision : Nat
  deltaHash : String
  deriving DecidableEq

/-- `A2aJournalError`. -/
inductive A2aJournalError where
  | invalid (reason : String)
  | unsupportedFormat (found : Nat)
  | limitExceeded (reason : String)
  | corruption (reason : String)
  | staleHead (expected actual : A2aJournalToken)
  | mutationConflict (mutationId : String)
  | staleCheckpoint
  | checkpointConflict
  | staleManifest
  | historyCompacted
  | restoreNotFound
  | restorePinned
  | outcomeUnknown (operation : String)
  deriving DecidableEq

/-- `A2aJournalResult`. -/
abbrev A2aJournalResult (α : Type) : Type := Except A2aJournalError α

/-- `validate_id`. -/
def validateId (field value : String) : A2aJournalResult Unit :=
  refuseIf (value = "" ∨ a2aMapperJournalIdMaxBytes < value.utf8ByteSize ∨ hasControl value)
    (.invalid s!"{field} is empty, oversized, or contains control characters")

/-- `validate_hash`. -/
def validateHash (field value : String) : A2aJournalResult Unit :=
  refuseIf (isSha256Digest value = false) (.corruption s!"{field} is not a SHA-256 digest")

/-- `A2aJournalToken::validate`. -/
def A2aJournalToken.validate (token : A2aJournalToken) : A2aJournalResult Unit := do
  validateHash "journal token hash" token.deltaHash
  refuseIf (token.revision < token.sequence)
    (.invalid "journal sequence cannot exceed mapper revision")

/-! ### Operations -/

/-- The records that operations carry. -/
structure MapperRecords where
  Task : Type
  taskId : Task → String
  Receipt : Type
  /-- `receipt.message.validate()`. -/
  validateMessage : Receipt → Except String Unit
  Dispatch : Type
  dispatchId : Dispatch → String
  Cancellation : Type
  cancellationId : Cancellation → String
  PendingEvent : Type
  eventId : PendingEvent → String
  decTask : DecidableEq Task
  decReceipt : DecidableEq Receipt
  decDispatch : DecidableEq Dispatch
  decCancellation : DecidableEq Cancellation
  decPendingEvent : DecidableEq PendingEvent

attribute [instance] MapperRecords.decTask MapperRecords.decReceipt MapperRecords.decDispatch
  MapperRecords.decCancellation MapperRecords.decPendingEvent

/-- `A2aMapperOperation`. -/
inductive A2aMapperOperation (R : MapperRecords) where
  | putContext (storageKey contextId sessionId ownerSubject : String)
      (ownerTenantId : Option String)
  | removeContext (storageKey : String)
  | putTask (storageKey : String) (task : R.Task)
  | removeTask (storageKey : String)
  | putReceipt (storageKey : String) (receipt : R.Receipt)
  | removeReceipt (storageKey : String)
  | putDispatch (storageKey : String) (dispatch : R.Dispatch)
  | removeDispatch (storageKey : String)
  | putCancellation (storageKey : String) (cancellation : R.Cancellation)
  | removeCancellation (storageKey : String)
  | putPendingEvent (storageKey : String) (event : R.PendingEvent)
  | removePendingEvent (storageKey : String)
  | setNextSequence (nextSequence : Nat)
  deriving DecidableEq

section
variable {R : MapperRecords}

/-- `A2aMapperOperation::validate`. -/
def A2aMapperOperation.validate : A2aMapperOperation R → A2aJournalResult Unit
  | .putContext storageKey contextId sessionId ownerSubject ownerTenantId => do
    validateId "context storage key" storageKey
    validateId "context id" contextId
    validateId "session id" sessionId
    validateId "owner subject" ownerSubject
    match ownerTenantId with
    | some tenantId => validateId "owner tenant id" tenantId
    | none => pure ()
  | .removeContext storageKey | .removeTask storageKey | .removeReceipt storageKey
  | .removeDispatch storageKey | .removeCancellation storageKey
  | .removePendingEvent storageKey => validateId "mapper storage key" storageKey
  | .putTask storageKey task => do
    validateId "task storage key" storageKey
    validateId "task id" (R.taskId task)
  | .putReceipt storageKey receipt => do
    validateId "receipt storage key" storageKey
    (R.validateMessage receipt).mapError fun error => .invalid s!"invalid receipt message: {error}"
  | .putDispatch storageKey dispatch => do
    validateId "dispatch storage key" storageKey
    validateId "dispatch id" (R.dispatchId dispatch)
  | .putCancellation storageKey cancellation => do
    validateId "cancellation storage key" storageKey
    validateId "cancellation id" (R.cancellationId cancellation)
  | .putPendingEvent storageKey event => do
    validateId "pending-event storage key" storageKey
    validateId "event id" (R.eventId event)
  | .setNextSequence _ => .ok ()

end

/-! ### The data of the journal -/

/-- `A2aMapperDelta`. -/
structure A2aMapperDelta (R : MapperRecords) where
  formatVersion : Nat
  mutationId : String
  expectedToken : A2aJournalToken
  fromRevision : Nat
  toRevision : Nat
  previousHash : String
  operations : List (A2aMapperOperation R)
  deltaHash : String
  deriving DecidableEq

/-- `A2aMapperCheckpointMetadata`. -/
structure A2aMapperCheckpointMetadata where
  checkpointId : String
  highWater : A2aJournalToken
  mapperSchemaVersion : Nat
  stateHash : String
  stateBytes : Nat
  deriving DecidableEq

/-- `A2aMapperCheckpoint`. -/
structure A2aMapperCheckpoint where
  formatVersion : Nat
  metadata : A2aMapperCheckpointMetadata
  state : List UInt8
  deriving DecidableEq

/-- `A2aJournalManifestToken`. -/
structure A2aJournalManifestToken where
  generation : Nat
  manifestHash : String
  deriving DecidableEq

/-- `A2aCompactedMutationTombstone`. -/
structure A2aCompactedMutationTombstone where
  mutationId : String
  deltaHash : String
  token : A2aJournalToken
  deriving DecidableEq

/-- `A2aJournalManifest`. -/
structure A2aJournalManifest where
  formatVersion : Nat
  generation : Nat
  head : A2aJournalToken
  activeCheckpoint : Option A2aMapperCheckpointMetadata
  retainedFromSequence : Nat
  compactedMutationCount : Nat
  compactedMutationsHash : String
  manifestHash : String
  deriving DecidableEq

/-- What is hashed, one constructor for each domain. -/
inductive HashMaterial (R : MapperRecords) where
  /-- `aikit:a2a:mapper-journal-genesis:v1`. -/
  | genesis
  /-- `aikit:a2a:mapper-journal-bootstrap:v1`. -/
  | bootstrap (revision : Nat) (stateHash : String)
  /-- `aikit:a2a:mapper-delta:v1`. -/
  | delta (formatVersion : Nat) (mutationId : String) (expectedToken : A2aJournalToken)
      (fromRevision toRevision : Nat) (previousHash : String)
      (operations : List (A2aMapperOperation R))
  /-- `aikit:a2a:mapper-checkpoint:v1`. -/
  | checkpoint (highWater : A2aJournalToken) (mapperSchemaVersion : Nat) (stateHash : String)
  /-- `aikit:a2a:mapper-journal-manifest:v1`. -/
  | manifest (formatVersion generation : Nat) (head : A2aJournalToken)
      (activeCheckpoint : Option A2aMapperCheckpointMetadata)
      (retainedFromSequence compactedMutationCount : Nat) (compactedMutationsHash : String)
  /-- `aikit:a2a:compacted-mutation-tombstones:v1`. -/
  | tombstones (tombstones : BTreeMap A2aCompactedMutationTombstone)

/-- What the journal reads of a mapper. -/
structure MapperHeader where
  schemaVersion : Nat
  revision : Nat

/-- What the journal takes from the rest of the crate. -/
structure JournalHost (R : MapperRecords) where
  /-- `stable_hash`. -/
  stableHash : HashMaterial R → String
  isDigest : ∀ material, isSha256Digest (stableHash material) = true
  /-- `hash_bytes`. -/
  hashBytes : List UInt8 → String
  /-- `serde_json::to_vec(delta)?.len()`. -/
  encodedLen : A2aMapperDelta R → Nat
  /-- `serde_json::from_slice::<A2aMapper>`. -/
  decodeMapper : List UInt8 → Except String MapperHeader

section
variable {R : MapperRecords} (H : JournalHost R)

/-- `A2aJournalToken::genesis`. -/
def A2aJournalToken.genesis : A2aJournalToken := ⟨0, 0, H.stableHash .genesis⟩

/-- `bootstrap_token`. -/
def bootstrapToken (revision : Nat) (stateHash : String) : A2aJournalToken :=
  ⟨0, revision, H.stableHash (.bootstrap revision stateHash)⟩

/-- `compacted_mutations_hash`. -/
def compactedMutationsHash (tombstones : BTreeMap A2aCompactedMutationTombstone) : String :=
  H.stableHash (.tombstones tombstones)

namespace A2aMapperDelta

/-- What `compute_hash` hashes. -/
def material (delta : A2aMapperDelta R) : HashMaterial R :=
  .delta delta.formatVersion delta.mutationId delta.expectedToken delta.fromRevision
    delta.toRevision delta.previousHash delta.operations

/-- `compute_hash`. -/
def computeHash (delta : A2aMapperDelta R) : String := H.stableHash delta.material

/-- `token`. -/
def token (delta : A2aMapperDelta R) : A2aJournalResult A2aJournalToken := do
  let sequence ← okOr (checkedAdd delta.expectedToken.sequence 1)
    (.invalid "journal sequence overflow")
  pure ⟨sequence, delta.toRevision, delta.deltaHash⟩

/-- `validate`. -/
def validate (delta : A2aMapperDelta R) : A2aJournalResult Unit := do
  refuseIf (delta.formatVersion ≠ a2aMapperDeltaFormatVersion)
    (.unsupportedFormat delta.formatVersion)
  validateId "mutation id" delta.mutationId
  delta.expectedToken.validate
  refuseIf (delta.previousHash ≠ delta.expectedToken.deltaHash)
    (.corruption "delta previous_hash does not match its expected token")
  refuseIf (delta.fromRevision ≠ delta.expectedToken.revision)
    (.corruption "delta from_revision does not match its expected token")
  refuseIf (delta.toRevision ≤ delta.fromRevision)
    (.invalid (s!"delta to_revision {delta.toRevision} must be greater than from_revision " ++
      s!"{delta.fromRevision}"))
  refuseIf (delta.operations = [] ∨ a2aMapperDeltaMaxOperations < delta.operations.length)
    (.invalid (s!"delta operations must contain between 1 and {a2aMapperDeltaMaxOperations} " ++
      "entries"))
  firstRefusal A2aMapperOperation.validate delta.operations
  validateHash "delta hash" delta.deltaHash
  refuseIf (delta.computeHash H ≠ delta.deltaHash)
    (.corruption "delta content does not match delta_hash")
  refuseIf (a2aMapperDeltaMaxBytes < H.encodedLen delta)
    (.limitExceeded
      s!"delta is {H.encodedLen delta} bytes; maximum is {a2aMapperDeltaMaxBytes}")

end A2aMapperDelta

namespace A2aMapperCheckpoint

/-- `validate_integrity`. -/
def validateIntegrity (checkpoint : A2aMapperCheckpoint) : A2aJournalResult Unit := do
  let metadata := checkpoint.metadata
  refuseIf (checkpoint.formatVersion ≠ a2aMapperDeltaFormatVersion)
    (.unsupportedFormat checkpoint.formatVersion)
  validateId "checkpoint id" metadata.checkpointId
  metadata.highWater.validate
  refuseIf (metadata.mapperSchemaVersion = 0 ∨ checkpoint.state = [] ∨
      a2aMapperCheckpointMaxBytes < checkpoint.state.length ∨
      metadata.stateBytes ≠ checkpoint.state.length)
    (.corruption "checkpoint metadata has invalid size or schema version")
  refuseIf (H.hashBytes checkpoint.state ≠ metadata.stateHash)
    (.corruption "checkpoint state does not match state_hash")
  let expectedId := H.stableHash
    (.checkpoint metadata.highWater metadata.mapperSchemaVersion metadata.stateHash)
  refuseIf (expectedId ≠ metadata.checkpointId)
    (.corruption "checkpoint metadata does not match checkpoint_id")

/-- `decode_mapper`, less the mapper. -/
def decodeMapper (checkpoint : A2aMapperCheckpoint) : A2aJournalResult Unit := do
  checkpoint.validateIntegrity H
  let mapper ← (H.decodeMapper checkpoint.state).mapError fun error =>
    .invalid s!"journal serialization failed: {error}"
  refuseIf (mapper.schemaVersion ≠ checkpoint.metadata.mapperSchemaVersion ∨
      mapper.revision ≠ checkpoint.metadata.highWater.revision)
    (.corruption "checkpoint mapper metadata does not match its decoded state")

/-- `validate`. -/
def validate (checkpoint : A2aMapperCheckpoint) : A2aJournalResult Unit := do
  checkpoint.validateIntegrity H
  checkpoint.decodeMapper H

end A2aMapperCheckpoint

/-- `A2aCompactedMutationTombstone::from_delta`. -/
def A2aCompactedMutationTombstone.fromDelta (delta : A2aMapperDelta R) :
    A2aJournalResult A2aCompactedMutationTombstone := do
  let token ← delta.token
  pure ⟨delta.mutationId, delta.deltaHash, token⟩

namespace A2aJournalManifest

/-- What `compute_hash` hashes. -/
def material (manifest : A2aJournalManifest) : HashMaterial R :=
  .manifest manifest.formatVersion manifest.generation manifest.head manifest.activeCheckpoint
    manifest.retainedFromSequence manifest.compactedMutationCount manifest.compactedMutationsHash

/-- `compute_hash`. -/
def computeHash (manifest : A2aJournalManifest) : String := H.stableHash manifest.material

/-- `refresh_hash`. -/
def refreshHash (manifest : A2aJournalManifest) : A2aJournalManifest :=
  { manifest with manifestHash := manifest.computeHash H }

/-- `empty`. -/
def empty : A2aJournalManifest :=
  refreshHash H
    { formatVersion := a2aMapperDeltaFormatVersion
      generation := 0
      head := .genesis H
      activeCheckpoint := none
      retainedFromSequence := 1
      compactedMutationCount := 0
      compactedMutationsHash := Journal.compactedMutationsHash H ∅
      manifestHash := "" }

/-- `token`. -/
def token (manifest : A2aJournalManifest) : A2aJournalManifestToken :=
  ⟨manifest.generation, manifest.manifestHash⟩

/-- The check of the active checkpoint in `validate`. -/
def validateActive (manifest : A2aJournalManifest) : A2aJournalResult Unit :=
  match manifest.activeCheckpoint with
  | some checkpoint => do
    checkpoint.highWater.validate
    refuseIf (manifest.head.sequence < checkpoint.highWater.sequence ∨
        manifest.head.revision < checkpoint.highWater.revision)
      (.corruption "active checkpoint is ahead of the journal head")
  | none => .ok ()

/-- `validate`. -/
def validate (manifest : A2aJournalManifest) : A2aJournalResult Unit := do
  refuseIf (manifest.formatVersion ≠ a2aMapperDeltaFormatVersion)
    (.unsupportedFormat manifest.formatVersion)
  manifest.head.validate
  validateHash "manifest hash" manifest.manifestHash
  validateHash "compacted mutation tombstone hash" manifest.compactedMutationsHash
  refuseIf (manifest.retainedFromSequence = 0 ∨
      saturatingAdd manifest.head.sequence 1 < manifest.retainedFromSequence)
    (.corruption "manifest retained range is invalid")
  manifest.validateActive
  refuseIf (manifest.computeHash H ≠ manifest.manifestHash)
    (.corruption "manifest content does not match manifest_hash")

/-- `advance_generation`. -/
def advanceGeneration (manifest : A2aJournalManifest) : A2aJournalResult A2aJournalManifest := do
  let generation ← okOr (checkedAdd manifest.generation 1) (.invalid "manifest generation overflow")
  pure (refreshHash H { manifest with generation })

end A2aJournalManifest

end

/-! ### Requests and answers -/

/-- `A2aJournalAppendOutcome`. -/
inductive A2aJournalAppendOutcome where
  | applied
  | alreadyApplied
  deriving DecidableEq

/-- `A2aCheckpointInstallOutcome`. -/
inductive A2aCheckpointInstallOutcome where
  | applied
  | alreadyApplied
  deriving DecidableEq

/-- `A2aJournalGcOutcome`. -/
inductive A2aJournalGcOutcome where
  | collected (removedDeltas : Nat)
  | alreadyCollected
  deriving DecidableEq

/-- `A2aJournalPageRequest`. -/
structure A2aJournalPageRequest where
  restoreId : String
  after : A2aJournalToken
  maxDeltas : Nat
  maxBytes : Nat
  deriving DecidableEq

/-- `A2aJournalPageRequest::validate`. -/
def A2aJournalPageRequest.validate (request : A2aJournalPageRequest) : A2aJournalResult Unit := do
  validateId "restore id" request.restoreId
  request.after.validate
  refuseIf (request.maxDeltas = 0 ∨ a2aMapperJournalMaxPageDeltas < request.maxDeltas)
    (.limitExceeded s!"restore page delta limit must be 1..={a2aMapperJournalMaxPageDeltas}")
  refuseIf (¬ (a2aMapperJournalMinPageBytes ≤ request.maxBytes ∧
      request.maxBytes ≤ a2aMapperJournalMaxPageBytes))
    (.limitExceeded (s!"restore page byte limit must be {a2aMapperJournalMinPageBytes}..=" ++
      s!"{a2aMapperJournalMaxPageBytes}"))

/-- `A2aJournalPage`. -/
structure A2aJournalPage (R : MapperRecords) where
  deltas : List (A2aMapperDelta R)
  nextAfter : A2aJournalToken
  through : A2aJournalToken
  done : Bool
  encodedBytes : Nat
  deriving DecidableEq

/-- `A2aJournalRestorePoint`. -/
structure A2aJournalRestorePoint where
  restoreId : String
  manifest : A2aJournalManifest
  checkpoint : Option A2aMapperCheckpoint
  start : A2aJournalToken
  deriving DecidableEq

/-- `A2aCheckpointInstallRequest`. -/
structure A2aCheckpointInstallRequest where
  expectedActive : Option A2aMapperCheckpointMetadata
  checkpoint : A2aMapperCheckpoint
  deriving DecidableEq

/-- `A2aJournalGcRequest`. -/
structure A2aJournalGcRequest where
  expectedManifest : A2aJournalManifestToken
  checkpoint : A2aMapperCheckpointMetadata
  deriving DecidableEq

end AikitRuntime.Journal
