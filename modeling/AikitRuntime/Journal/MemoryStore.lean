import AikitRuntime.Library.Methods
import AikitRuntime.Journal.Records

/-!
# The in-memory journal store

`InMemoryA2aMapperJournalStore` keeps the journal behind one lock, so its calls take effect one
after another. Appends and checkpoint installations are idempotent, restores pin what they read, and
a collection turns the deltas that the active checkpoint covers into tombstones.

A call that writes first finds out what it writes (`admitDelta`, `admitCheckpoint`,
`admitCollection`), then changes the state, and advances the generation of the manifest at last.
That can fail too, and what was changed stays.
-/

namespace AikitRuntime.Journal

open Library Method

/-- `StoredMutationIdentity`. -/
structure StoredMutationIdentity (R : MapperRecords) where
  delta : A2aMapperDelta R
  token : A2aJournalToken
  deriving DecidableEq

/-- `RestorePin`. -/
structure RestorePin where
  start : A2aJournalToken
  through : A2aJournalToken
  deriving DecidableEq

/-- A delta is in the range of a pin. -/
def RestorePin.covers (pin : RestorePin) (sequence : Nat) : Bool :=
  pin.start.sequence < sequence && sequence ≤ pin.through.sequence

/-- `InMemoryJournalState`. -/
structure InMemoryJournalState (R : MapperRecords) where
  manifest : A2aJournalManifest
  deltas : NumberMap (A2aMapperDelta R)
  mutationIdentities : BTreeMap (StoredMutationIdentity R)
  compactedMutations : BTreeMap A2aCompactedMutationTombstone
  checkpoints : BTreeMap A2aMapperCheckpoint
  restorePins : BTreeMap RestorePin
  nextRestoreId : Nat

section
variable {R : MapperRecords} (H : JournalHost R)

/-- What an append that names a known mutation returns: nothing is written for the same one. -/
def replayed (delta : A2aMapperDelta R) (same : Prop) [Decidable same] (token : A2aJournalToken) :
    A2aJournalResult (Option A2aJournalToken) :=
  if same then do
    let own ← delta.token
    refuseIf (token ≠ own) (.mutationConflict delta.mutationId)
    pure none
  else .error (.mutationConflict delta.mutationId)

namespace InMemoryJournalState

/-- `InMemoryJournalState::new`. -/
def new : InMemoryJournalState R := ⟨.empty H, ∅, ∅, ∅, ∅, ∅, 1⟩

/-- The high water of the active checkpoint, if it is at this sequence. -/
def activeAt (manifest : A2aJournalManifest) (sequence : Nat) : Option A2aJournalToken :=
  (manifest.activeCheckpoint.filter (·.highWater.sequence = sequence)).map (·.highWater)

/-- `token_at`. -/
def tokenAt (s : InMemoryJournalState R) (sequence : Nat) : Option A2aJournalToken :=
  if sequence = s.manifest.head.sequence then some s.manifest.head
  else if sequence = 0 then some ((activeAt s.manifest 0).getD (.genesis H))
  else ((s.deltas[sequence]?).bind (·.token.toOption)).or (activeAt s.manifest sequence)

/-- The check of a head at sequence zero in `validate_head`. -/
def validateFirst (manifest : A2aJournalManifest) : A2aJournalResult Unit :=
  skipIf (manifest.head = .genesis H) do
    let checkpoint ← okOr manifest.activeCheckpoint
      (.corruption "non-genesis sequence-zero head has no checkpoint")
    refuseIf (checkpoint.highWater ≠ manifest.head)
      (.corruption "bootstrap checkpoint does not match journal head")

/-- `validate_head`. -/
def validateHead (s : InMemoryJournalState R) : A2aJournalResult Unit := do
  s.manifest.validate H
  refuseIf (s.manifest.compactedMutationCount ≠ s.compactedMutations.size ∨
      s.manifest.compactedMutationsHash ≠ compactedMutationsHash H s.compactedMutations)
    (.corruption "compacted mutation tombstones do not match the manifest root")
  if s.manifest.head.sequence = 0 then validateFirst H s.manifest
  else skipIf (s.manifest.head.sequence < s.manifest.retainedFromSequence) do
    let delta ← okOr s.deltas[s.manifest.head.sequence]? (.corruption "journal head delta is missing")
    delta.validate H
    let token ← delta.token
    refuseIf (token ≠ s.manifest.head)
      (.corruption "journal head token does not match head delta")

/-- The payloads that `remove_unpinned_compacted_payloads` removes. -/
def removable (s : InMemoryJournalState R) : List Nat :=
  (s.deltas.keys.filter (· < s.manifest.retainedFromSequence)).filter fun sequence =>
    !s.restorePins.values.any (·.covers sequence)

/-- `remove_unpinned_compacted_payloads`, less the number of payloads. -/
def removeUnpinnedCompactedPayloads (s : InMemoryJournalState R) : InMemoryJournalState R :=
  { s with deltas := s.removable.foldl (fun deltas sequence => deltas.erase sequence) s.deltas }

/-- What an append finds: the token of a new mutation, nothing for a known one. -/
def admitDelta (s : InMemoryJournalState R) (delta : A2aMapperDelta R) :
    A2aJournalResult (Option A2aJournalToken) := do
  s.validateHead H
  match s.mutationIdentities[delta.mutationId]? with
  | some existing => replayed delta (existing.delta = delta) existing.token
  | none =>
    match s.compactedMutations[delta.mutationId]? with
    | some existing => replayed delta (existing.deltaHash = delta.deltaHash) existing.token
    | none => do
      refuseIf (delta.expectedToken ≠ s.manifest.head)
        (.staleHead delta.expectedToken s.manifest.head)
      let token ← delta.token
      refuseIf (s.deltas.contains token.sequence)
        (.corruption "journal sequence already contains a different mutation")
      pure (some token)

/-- A checkpoint is installed as the first thing in a journal. -/
def IsBootstrap (s : InMemoryJournalState R) (metadata : A2aMapperCheckpointMetadata) : Prop :=
  metadata.highWater.sequence = 0 ∧ s.manifest.head = .genesis H ∧
    s.manifest.activeCheckpoint = none ∧ s.deltas.isEmpty = true

instance (s : InMemoryJournalState R) (metadata : A2aMapperCheckpointMetadata) :
    Decidable (s.IsBootstrap H metadata) :=
  inferInstanceAs (Decidable (_ ∧ _))

/-- A new checkpoint is after the active one. -/
def checkNewer (manifest : A2aJournalManifest) (metadata : A2aMapperCheckpointMetadata) :
    A2aJournalResult Unit :=
  match manifest.activeCheckpoint with
  | some active => do
    refuseIf (metadata.highWater.sequence < active.highWater.sequence) .checkpointConflict
    refuseIf (metadata.highWater.sequence = active.highWater.sequence) .checkpointConflict
  | none => .ok ()

/-- The head that a new checkpoint leaves. -/
def headAfter (s : InMemoryJournalState R) (metadata : A2aMapperCheckpointMetadata) :
    A2aJournalResult A2aJournalToken :=
  if s.IsBootstrap H metadata then do
    refuseIf (metadata.highWater ≠ bootstrapToken H metadata.highWater.revision metadata.stateHash)
      .checkpointConflict
    pure metadata.highWater
  else do
    let known ← okOr (s.tokenAt H metadata.highWater.sequence) .historyCompacted
    refuseIf (known ≠ metadata.highWater) .checkpointConflict
    checkNewer s.manifest metadata
    pure s.manifest.head

/-- What an installation finds: the head it leaves, nothing for a checkpoint that is active. -/
def admitCheckpoint (s : InMemoryJournalState R) (request : A2aCheckpointInstallRequest) :
    A2aJournalResult (Option A2aJournalToken) := do
  s.validateHead H
  let metadata := request.checkpoint.metadata
  if s.manifest.activeCheckpoint = some metadata then do
    let stored ← okOr s.checkpoints[metadata.checkpointId]?
      (.corruption "active checkpoint bytes are missing")
    refuseIf (stored ≠ request.checkpoint) .checkpointConflict
    pure none
  else
    match s.checkpoints[metadata.checkpointId]? with
    | some stored =>
      .error (if stored = request.checkpoint then .staleCheckpoint else .checkpointConflict)
    | none => do
      refuseIf (request.expectedActive ≠ s.manifest.activeCheckpoint) .staleCheckpoint
      some <$> s.headAfter H metadata

/-- The bytes of the active checkpoint, checked again. -/
def activeBytes (s : InMemoryJournalState R) : A2aJournalResult (Option A2aMapperCheckpoint) :=
  match s.manifest.activeCheckpoint with
  | some metadata => do
    let checkpoint ← okOr s.checkpoints[metadata.checkpointId]?
      (.corruption "active checkpoint bytes are missing")
    checkpoint.validate H
    pure (some checkpoint)
  | none => pure none

/-- The token that a restore starts from. -/
def restoreStart (checkpoint : Option A2aMapperCheckpoint) : A2aJournalToken :=
  (checkpoint.map (·.metadata.highWater)).getD (.genesis H)

/-- What a collection finds: the checkpoint that covers something to collect. -/
def admitCollection (s : InMemoryJournalState R) (request : A2aJournalGcRequest) :
    A2aJournalResult (Option A2aMapperCheckpointMetadata) := do
  s.validateHead H
  let active ← okOr s.manifest.activeCheckpoint .staleCheckpoint
  refuseIf (active ≠ request.checkpoint) .staleCheckpoint
  if saturatingAdd active.highWater.sequence 1 ≤ s.manifest.retainedFromSequence then pure none
  else do
    refuseIf (s.manifest.token ≠ request.expectedManifest) .staleManifest
    pure (some active)

/-- The state of the loop in `read_delta_page`. -/
structure PageProgress (R : MapperRecords) where
  deltas : List (A2aMapperDelta R)
  cursor : A2aJournalToken
  encodedBytes : Nat

/-- The loop in `read_delta_page`, over `count` sequences. -/
def collectPage (s : InMemoryJournalState R) (request : A2aJournalPageRequest) :
    (count sequence : Nat) → PageProgress R → A2aJournalResult (PageProgress R)
  | 0, _, progress => .ok progress
  | count + 1, sequence, progress =>
    if request.maxDeltas ≤ progress.deltas.length then .ok progress
    else do
      let delta ← okOr s.deltas[sequence]? .historyCompacted
      delta.validate H
      refuseIf (delta.expectedToken ≠ progress.cursor ∨
          delta.previousHash ≠ progress.cursor.deltaHash)
        (.corruption s!"broken delta hash chain at sequence {sequence}")
      let bytes := asU32 (H.encodedLen delta)
      if request.maxBytes < saturatingAdd32 progress.encodedBytes bytes then .ok progress
      else do
        let cursor ← delta.token
        collectPage s request count (sequence + 1)
          ⟨progress.deltas ++ [delta], cursor, progress.encodedBytes + bytes⟩

/-- The token that a page's cursor must be. -/
def knownAfter (s : InMemoryJournalState R) (pin : RestorePin) (after : A2aJournalToken) :
    A2aJournalResult A2aJournalToken :=
  if after = pin.start then .ok pin.start else okOr (s.tokenAt H after.sequence) .historyCompacted

/-- `read_delta_page`, on the locked state. -/
def readDeltaPage (s : InMemoryJournalState R) (request : A2aJournalPageRequest) :
    A2aJournalResult (A2aJournalPage R) := do
  request.validate
  s.validateHead H
  let pin ← okOr s.restorePins[request.restoreId]? .restoreNotFound
  refuseIf (request.after.sequence < pin.start.sequence ∨
      pin.through.sequence < request.after.sequence)
    (.invalid "restore cursor is outside its pinned range")
  let known ← s.knownAfter H pin request.after
  refuseIf (known ≠ request.after)
    (.corruption "restore cursor token does not match journal history")
  refuseIf (pin.through.sequence < request.after.sequence)
    (.invalid "restore cursor is ahead of its captured head")
  let first := saturatingAdd request.after.sequence 1
  let page ← s.collectPage H request (pin.through.sequence + 1 - first) first
    ⟨[], request.after, 0⟩
  pure ⟨page.deltas, page.cursor, pin.through, page.cursor = pin.through, page.encodedBytes⟩

end InMemoryJournalState

/-- A call on the store. -/
abbrev JournalMethod (R : MapperRecords) (α : Type) : Type :=
  Method (InMemoryJournalState R) A2aJournalError α

namespace InMemoryA2aMapperJournalStore

open InMemoryJournalState

/-- `state.manifest.advance_generation()`. -/
def advanceGeneration : JournalMethod R Unit := do
  let s ← read id
  let manifest ← check (s.manifest.advanceGeneration H)
  modify fun s => { s with manifest }

/-- `manifest`. -/
def manifest : JournalMethod R A2aJournalManifest := do
  let s ← read id
  check (s.validateHead H)
  pure s.manifest

/-- `lookup_head`. -/
def lookupHead : JournalMethod R A2aJournalToken := do
  let s ← read id
  check (s.validateHead H)
  pure s.manifest.head

/-- `append_delta`. -/
def appendDelta (delta : A2aMapperDelta R) : JournalMethod R A2aJournalAppendOutcome := do
  check (delta.validate H)
  let s ← read id
  match ← check (s.admitDelta H delta) with
  | none => pure .alreadyApplied
  | some token =>
    modify fun s =>
      { s with
        deltas := s.deltas.insert token.sequence delta
        mutationIdentities := s.mutationIdentities.insert delta.mutationId ⟨delta, token⟩
        manifest := { s.manifest with head := token } }
    advanceGeneration H
    pure .applied

/-- `install_checkpoint`. -/
def installCheckpoint (request : A2aCheckpointInstallRequest) :
    JournalMethod R A2aCheckpointInstallOutcome := do
  check (request.checkpoint.validate H)
  let s ← read id
  match ← check (s.admitCheckpoint H request) with
  | none => pure .alreadyApplied
  | some head =>
    let metadata := request.checkpoint.metadata
    modify fun s =>
      { s with
        checkpoints := s.checkpoints.insert metadata.checkpointId request.checkpoint
        manifest := { s.manifest with head, activeCheckpoint := some metadata } }
    advanceGeneration H
    pure .applied

/-- `begin_restore`. -/
def beginRestore : JournalMethod R A2aJournalRestorePoint := do
  let s ← read id
  check (s.validateHead H)
  let checkpoint ← check (s.activeBytes H)
  let start := restoreStart H checkpoint
  let restoreId := s!"a2a-restore-{s.nextRestoreId}"
  let nextRestoreId ← check (okOr (checkedAdd s.nextRestoreId 1)
    (.invalid "restore id sequence overflow"))
  modify fun s =>
    { s with
      nextRestoreId
      restorePins := s.restorePins.insert restoreId ⟨start, s.manifest.head⟩ }
  pure ⟨restoreId, s.manifest, checkpoint, start⟩

/-- `read_delta_page`. -/
def readDeltaPage (request : A2aJournalPageRequest) : JournalMethod R (A2aJournalPage R) := do
  let s ← read id
  check (s.readDeltaPage H request)

/-- `finish_restore`. -/
def finishRestore (restoreId : String) : JournalMethod R Unit := do
  check (validateId "restore id" restoreId)
  modify fun s =>
    { s with restorePins := s.restorePins.erase restoreId }.removeUnpinnedCompactedPayloads

/-- What a collection does with one covered delta. -/
def compact (sequence : Nat) : JournalMethod R PUnit := do
  let s ← read id
  let delta ← check (okOr s.deltas[sequence]?
    (.corruption "GC-covered delta disappeared during the atomic transaction"))
  let tombstone ← check (A2aCompactedMutationTombstone.fromDelta delta)
  modify fun s =>
    { s with
      compactedMutations := s.compactedMutations.insert tombstone.mutationId tombstone
      mutationIdentities := s.mutationIdentities.erase delta.mutationId }

/-- The manifest of a collection through this sequence, before the generation. -/
def collected (s : InMemoryJournalState R) (sequence : Nat) : InMemoryJournalState R :=
  { s with
    manifest :=
      { s.manifest with
        retainedFromSequence := saturatingAdd sequence 1
        compactedMutationCount := s.compactedMutations.size
        compactedMutationsHash := compactedMutationsHash H s.compactedMutations } }

/-- `garbage_collect`. -/
def garbageCollect (request : A2aJournalGcRequest) : JournalMethod R A2aJournalGcOutcome := do
  let s ← read id
  match ← check (s.admitCollection H request) with
  | none => pure .alreadyCollected
  | some active =>
    each compact (s.deltas.keys.filter (· ≤ active.highWater.sequence))
    modify fun s => collected H s active.highWater.sequence
    let s ← read id
    modify removeUnpinnedCompactedPayloads
    advanceGeneration H
    pure (.collected s.removable.length)

end InMemoryA2aMapperJournalStore

end

end AikitRuntime.Journal
