import AikitRuntime.Library.Simulations
import AikitRuntime.Library.Tables
import AikitRuntime.Journal.Calls

/-!
# The SQLite journal store

`SqliteA2aMapperJournalStore` keeps the journal in six tables, and runs every method in one
immediate transaction: it loads the manifest (`SqliteJournalView::load`), checks the head, and then
reads and writes rows. A transaction that ends early is dropped, and one that fails is rolled back.

Tables are maps of their primary keys, and an `INSERT` of a key that is there fails. Values are kept
as JSON texts, whose form is a parameter (`JournalTexts`), and counters as `i64`.
-/

namespace AikitRuntime.Journal

open Library Method
open InMemoryJournalState (PageProgress activeAt validateFirst restoreStart)

/-- The JSON text of the values of a type: `serde_json::to_string` and `serde_json::from_str`. -/
structure JsonText (α : Type) where
  encode : α → String
  decode : String → Except String α

/-- The texts of what the tables keep. -/
structure JournalTexts (R : MapperRecords) where
  manifest : JsonText A2aJournalManifest
  delta : JsonText (A2aMapperDelta R)
  token : JsonText A2aJournalToken
  tombstone : JsonText A2aCompactedMutationTombstone
  checkpoint : JsonText A2aMapperCheckpoint
  pin : JsonText RestorePin

/-- `decode_journal_json`. -/
def decodeJournalJson {α : Type} (text : JsonText α) (label value : String) : A2aJournalResult α :=
  (text.decode value).mapError fun error => .corruption s!"stored {label} is unreadable: {error}"

/-- `sql_from_u64`. -/
def sqlFromU64 (value : Nat) : A2aJournalResult Int := do
  refuseIf (i64Max < value) (.invalid "journal counter exceeds the SQLite integer range")
  pure value

/-- `sql_to_u64`. -/
def sqlToU64 (value : Int) : A2aJournalResult Nat := do
  refuseIf (value < 0) (.corruption "stored journal counter is negative")
  pure value.toNat

/-- A row of `aikit_a2a_journal_manifest`. -/
structure ManifestRow where
  manifestJson : String
  nextRestoreId : Int
  deriving DecidableEq

/-- A row of `aikit_a2a_journal_mutations`. -/
structure MutationRow where
  deltaJson : String
  tokenJson : String
  deriving DecidableEq

/-- The tables of `SQLITE_JOURNAL_SCHEMA`. The manifest has one row at most. -/
structure JournalTables where
  manifest : Option ManifestRow
  deltas : IntTable String
  mutations : BTreeMap MutationRow
  compacted : BTreeMap String
  checkpoints : BTreeMap String
  restorePins : BTreeMap String

/-- `INSERT INTO table (key, …) VALUES (…)`. -/
def insertRow {K V : Type} {cmp : K → K → Ordering} [Std.TransCmp cmp] (operation column : String)
    (rows : Std.ExtTreeMap K V cmp) (key : K) (row : V) :
    A2aJournalResult (Std.ExtTreeMap K V cmp) := do
  refuseIf (rows.contains key)
    (.outcomeUnknown s!"{operation}: UNIQUE constraint failed: {column}")
  pure (rows.insert key row)

/-- `SqliteJournalView`, less its transaction. -/
structure SqliteJournalView where
  manifest : A2aJournalManifest
  nextRestoreId : Nat

section
variable {R : MapperRecords} (H : JournalHost R) (C : JournalTexts R)

namespace JournalTables

/-- The tables that `SqliteA2aMapperJournalStore::open` leaves of an empty database. -/
def new : JournalTables := ⟨some ⟨C.manifest.encode (.empty H), 1⟩, ∅, ∅, ∅, ∅, ∅⟩

/-- `load`. -/
def load (tx : JournalTables) : A2aJournalResult SqliteJournalView := do
  let row ← okOr tx.manifest (.outcomeUnknown "load manifest: Query returned no rows")
  let manifest ← decodeJournalJson C.manifest "journal manifest" row.manifestJson
  let nextRestoreId ← sqlToU64 row.nextRestoreId
  pure ⟨manifest, nextRestoreId⟩

/-- A row that may be there, decoded. -/
def decodeRow {α : Type} (text : JsonText α) (label : String) :
    Option String → A2aJournalResult (Option α)
  | none => .ok none
  | some value => some <$> decodeJournalJson text label value

/-- `delta_at`. -/
def deltaAt (tx : JournalTables) (sequence : Nat) : A2aJournalResult (Option (A2aMapperDelta R)) := do
  let key ← sqlFromU64 sequence
  decodeRow C.delta "journal delta" tx.deltas[key]?

/-- The loop over the rows of a table that is read whole. -/
def decodeRows {α : Type} (text : JsonText α) (label : String) :
    List (String × String) → BTreeMap α → A2aJournalResult (BTreeMap α)
  | [], values => .ok values
  | (key, value) :: rows, values => do
    let decoded ← decodeJournalJson text label value
    decodeRows text label rows (values.insert key decoded)

/-- `compacted_mutations`. -/
def compactedMutations (tx : JournalTables) :
    A2aJournalResult (BTreeMap A2aCompactedMutationTombstone) :=
  decodeRows C.tombstone "mutation tombstone" tx.compacted.toList ∅

/-- `restore_pins`. -/
def loadRestorePins (tx : JournalTables) : A2aJournalResult (BTreeMap RestorePin) :=
  decodeRows C.pin "restore pin" tx.restorePins.toList ∅

/-- `token_at`. -/
def tokenAt (tx : JournalTables) (view : SqliteJournalView) (sequence : Nat) :
    A2aJournalResult (Option A2aJournalToken) :=
  if sequence = view.manifest.head.sequence then .ok (some view.manifest.head)
  else if sequence = 0 then
    .ok (some ((activeAt view.manifest 0).getD (.genesis H)))
  else do
    match ← tx.deltaAt C sequence with
    | some delta => some <$> delta.token
    | none => pure (activeAt view.manifest sequence)

/-- `validate_head`. -/
def validateHead (tx : JournalTables) (view : SqliteJournalView) : A2aJournalResult Unit := do
  view.manifest.validate H
  let compacted ← tx.compactedMutations C
  refuseIf (view.manifest.compactedMutationCount ≠ compacted.size ∨
      view.manifest.compactedMutationsHash ≠ compactedMutationsHash H compacted)
    (.corruption "compacted mutation tombstones do not match the manifest root")
  if view.manifest.head.sequence = 0 then validateFirst H view.manifest
  else skipIf (view.manifest.head.sequence < view.manifest.retainedFromSequence) do
    let found ← tx.deltaAt C view.manifest.head.sequence
    let delta ← okOr found (.corruption "journal head delta is missing")
    delta.validate H
    let token ← delta.token
    refuseIf (token ≠ view.manifest.head)
      (.corruption "journal head token does not match head delta")

/-- The keys of a scan, converted. -/
def sequences : List Int → A2aJournalResult (List Nat)
  | [] => .ok []
  | key :: keys => do
    let sequence ← sqlToU64 key
    let rest ← sequences keys
    pure (sequence :: rest)

/-- The payloads that `remove_unpinned_compacted_payloads` deletes. -/
def removable (tx : JournalTables) (manifest : A2aJournalManifest) : A2aJournalResult (List Nat) := do
  let pins ← tx.loadRestorePins C
  let bound ← sqlFromU64 manifest.retainedFromSequence
  let scanned ← sequences (tx.deltas.keys.filter (· < bound))
  pure (scanned.filter fun sequence => !pins.values.any (·.covers sequence))

/-- What `append_delta` finds: the token of a new mutation, nothing for a known one. -/
def admitDelta (tx : JournalTables) (view : SqliteJournalView) (delta : A2aMapperDelta R) :
    A2aJournalResult (Option A2aJournalToken) := do
  tx.validateHead H C view
  match tx.mutations[delta.mutationId]? with
  | some stored => do
    let existing ← decodeJournalJson C.delta "mutation delta" stored.deltaJson
    let token ← decodeJournalJson C.token "mutation token" stored.tokenJson
    replayed delta (existing = delta) token
  | none =>
    match tx.compacted[delta.mutationId]? with
    | some stored => do
      let tombstone ← decodeJournalJson C.tombstone "mutation tombstone" stored
      replayed delta (tombstone.deltaHash = delta.deltaHash) tombstone.token
    | none => do
      refuseIf (delta.expectedToken ≠ view.manifest.head)
        (.staleHead delta.expectedToken view.manifest.head)
      let token ← delta.token
      let present ← tx.deltaAt C token.sequence
      refuseIf (present.isSome)
        (.corruption "journal sequence already contains a different mutation")
      pure (some token)

/-- A checkpoint is installed as the first thing in a journal. -/
def IsBootstrap (tx : JournalTables) (view : SqliteJournalView)
    (metadata : A2aMapperCheckpointMetadata) : Prop :=
  metadata.highWater.sequence = 0 ∧ view.manifest.head = .genesis H ∧
    view.manifest.activeCheckpoint = none ∧ tx.deltas.size = 0

instance (tx : JournalTables) (view : SqliteJournalView) (metadata : A2aMapperCheckpointMetadata) :
    Decidable (tx.IsBootstrap H view metadata) :=
  inferInstanceAs (Decidable (_ ∧ _))

/-- A new checkpoint is after the active one. -/
def checkNewer (manifest : A2aJournalManifest) (metadata : A2aMapperCheckpointMetadata) :
    A2aJournalResult Unit :=
  match manifest.activeCheckpoint with
  | some active =>
    refuseIf (metadata.highWater.sequence ≤ active.highWater.sequence) .checkpointConflict
  | none => .ok ()

/-- The head that a new checkpoint leaves. -/
def headAfter (tx : JournalTables) (view : SqliteJournalView)
    (metadata : A2aMapperCheckpointMetadata) : A2aJournalResult A2aJournalToken :=
  if tx.IsBootstrap H view metadata then do
    refuseIf (metadata.highWater ≠ bootstrapToken H metadata.highWater.revision metadata.stateHash)
      .checkpointConflict
    pure metadata.highWater
  else do
    let found ← tx.tokenAt H C view metadata.highWater.sequence
    let known ← okOr found .historyCompacted
    refuseIf (known ≠ metadata.highWater) .checkpointConflict
    checkNewer view.manifest metadata
    pure view.manifest.head

/-- What `install_checkpoint` finds: the head it leaves, nothing for a checkpoint that is active. -/
def admitCheckpoint (tx : JournalTables) (view : SqliteJournalView)
    (request : A2aCheckpointInstallRequest) : A2aJournalResult (Option A2aJournalToken) := do
  tx.validateHead H C view
  let metadata := request.checkpoint.metadata
  if view.manifest.activeCheckpoint = some metadata then do
    let json ← okOr tx.checkpoints[metadata.checkpointId]?
      (.corruption "active checkpoint bytes are missing")
    let stored ← decodeJournalJson C.checkpoint "checkpoint" json
    refuseIf (stored ≠ request.checkpoint) .checkpointConflict
    pure none
  else
    match tx.checkpoints[metadata.checkpointId]? with
    | some json => do
      let stored ← decodeJournalJson C.checkpoint "checkpoint" json
      .error (if stored = request.checkpoint then .staleCheckpoint else .checkpointConflict)
    | none => do
      refuseIf (request.expectedActive ≠ view.manifest.activeCheckpoint) .staleCheckpoint
      some <$> tx.headAfter H C view metadata

/-- The bytes of the active checkpoint, checked again. -/
def activeBytes (tx : JournalTables) (view : SqliteJournalView) :
    A2aJournalResult (Option A2aMapperCheckpoint) :=
  match view.manifest.activeCheckpoint with
  | some metadata => do
    let json ← okOr tx.checkpoints[metadata.checkpointId]?
      (.corruption "active checkpoint bytes are missing")
    let checkpoint ← decodeJournalJson C.checkpoint "checkpoint" json
    checkpoint.validate H
    pure (some checkpoint)
  | none => pure none

/-- What `garbage_collect` finds: the checkpoint that covers something to collect. -/
def admitCollection (tx : JournalTables) (view : SqliteJournalView) (request : A2aJournalGcRequest) :
    A2aJournalResult (Option A2aMapperCheckpointMetadata) := do
  tx.validateHead H C view
  let active ← okOr view.manifest.activeCheckpoint .staleCheckpoint
  refuseIf (active ≠ request.checkpoint) .staleCheckpoint
  if saturatingAdd active.highWater.sequence 1 ≤ view.manifest.retainedFromSequence then pure none
  else do
    refuseIf (view.manifest.token ≠ request.expectedManifest) .staleManifest
    pure (some active)

/-- The deltas through a sequence, in order. -/
def covered (tx : JournalTables) (sequence : Nat) : A2aJournalResult (List String) := do
  let bound ← sqlFromU64 sequence
  let rows := tx.deltas.toList.filter (·.1 ≤ bound)
  let _ ← sequences (rows.map (·.1))
  pure (rows.map (·.2))

/-- The loop in `read_delta_page`, over `count` sequences. -/
def collectPage (tx : JournalTables) (request : A2aJournalPageRequest) :
    (count sequence : Nat) → PageProgress R →
      A2aJournalResult (PageProgress R)
  | 0, _, progress => .ok progress
  | count + 1, sequence, progress =>
    if request.maxDeltas ≤ progress.deltas.length then .ok progress
    else do
      let found ← tx.deltaAt C sequence
      let delta ← okOr found .historyCompacted
      delta.validate H
      refuseIf (delta.expectedToken ≠ progress.cursor ∨
          delta.previousHash ≠ progress.cursor.deltaHash)
        (.corruption s!"broken delta hash chain at sequence {sequence}")
      let bytes := asU32 (H.encodedLen delta)
      if request.maxBytes < saturatingAdd32 progress.encodedBytes bytes then .ok progress
      else do
        let cursor ← delta.token
        collectPage tx request count (sequence + 1)
          ⟨progress.deltas ++ [delta], cursor, progress.encodedBytes + bytes⟩

/-- The token that a page's cursor must be. -/
def knownAfter (tx : JournalTables) (view : SqliteJournalView) (pin : RestorePin)
    (after : A2aJournalToken) : A2aJournalResult A2aJournalToken :=
  if after = pin.start then .ok pin.start
  else do
    let found ← tx.tokenAt H C view after.sequence
    okOr found .historyCompacted

/-- `read_delta_page`, in its transaction. -/
def readDeltaPage (tx : JournalTables) (view : SqliteJournalView) (request : A2aJournalPageRequest) :
    A2aJournalResult (A2aJournalPage R) := do
  tx.validateHead H C view
  let pins ← tx.loadRestorePins C
  let pin ← okOr pins[request.restoreId]? .restoreNotFound
  refuseIf (request.after.sequence < pin.start.sequence ∨
      pin.through.sequence < request.after.sequence)
    (.invalid "restore cursor is outside its pinned range")
  let known ← tx.knownAfter H C view pin request.after
  refuseIf (known ≠ request.after)
    (.corruption "restore cursor token does not match journal history")
  let first := saturatingAdd request.after.sequence 1
  let page ← tx.collectPage H C request (pin.through.sequence + 1 - first) first
    ⟨[], request.after, 0⟩
  pure ⟨page.deltas, page.cursor, pin.through, page.cursor = pin.through, page.encodedBytes⟩

end JournalTables

/-- A call on the store, or what it does in its transaction. -/
abbrev SqliteMethod (α : Type) : Type := Method JournalTables A2aJournalError α

namespace SqliteA2aMapperJournalStore

open JournalTables

/-- `store_manifest`. -/
def storeManifest (view : SqliteJournalView) : SqliteMethod Unit := do
  let nextRestoreId ← check (sqlFromU64 view.nextRestoreId)
  modify fun tx =>
    { tx with manifest := tx.manifest.map fun _ => ⟨C.manifest.encode view.manifest, nextRestoreId⟩ }

/-- `remove_unpinned_compacted_payloads`. -/
def removeUnpinnedCompactedPayloads (manifest : A2aJournalManifest) : SqliteMethod Nat := do
  let tx ← read id
  let removable ← check (tx.removable C manifest)
  let keys ← check (removable.mapM sqlFromU64)
  modify fun tx => { tx with deltas := keys.foldl (fun deltas key => deltas.erase key) tx.deltas }
  pure removable.length

/-- `manifest`. -/
def manifest : SqliteMethod A2aJournalManifest := transaction do
  let tx ← read id
  let view ← check (tx.load C)
  check (tx.validateHead H C view)
  pure (.drop view.manifest)

/-- `lookup_head`. -/
def lookupHead : SqliteMethod A2aJournalToken := transaction do
  let tx ← read id
  let view ← check (tx.load C)
  check (tx.validateHead H C view)
  pure (.drop view.manifest.head)

/-- The writes of `append_delta`. -/
def writeDelta (view : SqliteJournalView) (delta : A2aMapperDelta R) (token : A2aJournalToken) :
    SqliteMethod Unit := do
  let tx ← read id
  let sequence ← check (sqlFromU64 token.sequence)
  let deltas ← check (insertRow "insert delta" "aikit_a2a_journal_deltas.sequence" tx.deltas
    sequence (C.delta.encode delta))
  modify fun tx => { tx with deltas }
  let mutations ← check (insertRow "insert mutation identity"
    "aikit_a2a_journal_mutations.mutation_id" tx.mutations delta.mutationId
    ⟨C.delta.encode delta, C.token.encode token⟩)
  modify fun tx => { tx with mutations }
  let manifest ← check (A2aJournalManifest.advanceGeneration H { view.manifest with head := token })
  storeManifest C { view with manifest }

/-- `append_delta`. -/
def appendDelta (delta : A2aMapperDelta R) : SqliteMethod A2aJournalAppendOutcome := do
  check (delta.validate H)
  transaction do
    let tx ← read id
    let view ← check (tx.load C)
    match ← check (tx.admitDelta H C view delta) with
    | none => pure (.drop .alreadyApplied)
    | some token =>
      writeDelta H C view delta token
      pure (.commit .applied)

/-- The writes of `install_checkpoint`. -/
def writeCheckpoint (view : SqliteJournalView) (checkpoint : A2aMapperCheckpoint)
    (head : A2aJournalToken) : SqliteMethod Unit := do
  let tx ← read id
  let checkpoints ← check (insertRow "insert checkpoint"
    "aikit_a2a_journal_checkpoints.checkpoint_id" tx.checkpoints checkpoint.metadata.checkpointId
    (C.checkpoint.encode checkpoint))
  modify fun tx => { tx with checkpoints }
  let manifest ← check (A2aJournalManifest.advanceGeneration H
    { view.manifest with head, activeCheckpoint := some checkpoint.metadata })
  storeManifest C { view with manifest }

/-- `install_checkpoint`. -/
def installCheckpoint (request : A2aCheckpointInstallRequest) :
    SqliteMethod A2aCheckpointInstallOutcome := do
  check (request.checkpoint.validate H)
  transaction do
    let tx ← read id
    let view ← check (tx.load C)
    match ← check (tx.admitCheckpoint H C view request) with
    | none => pure (.drop .alreadyApplied)
    | some head =>
      writeCheckpoint H C view request.checkpoint head
      pure (.commit .applied)

/-- The writes of `begin_restore`. -/
def writePin (view : SqliteJournalView) (restoreId : String) (pin : RestorePin)
    (nextRestoreId : Nat) : SqliteMethod Unit := do
  let tx ← read id
  let restorePins ← check (insertRow "insert restore pin"
    "aikit_a2a_journal_restore_pins.restore_id" tx.restorePins restoreId (C.pin.encode pin))
  modify fun tx => { tx with restorePins }
  storeManifest C { view with nextRestoreId }

/-- `begin_restore`. -/
def beginRestore : SqliteMethod A2aJournalRestorePoint := transaction do
  let tx ← read id
  let view ← check (tx.load C)
  check (tx.validateHead H C view)
  let checkpoint ← check (tx.activeBytes H C view)
  let start := restoreStart H checkpoint
  let restoreId := s!"a2a-restore-{view.nextRestoreId}"
  let nextRestoreId ← check (okOr (checkedAdd view.nextRestoreId 1)
    (.invalid "restore identifier capacity exhausted"))
  writePin C view restoreId ⟨start, view.manifest.head⟩ nextRestoreId
  pure (.commit ⟨restoreId, view.manifest, checkpoint, start⟩)

/-- `read_delta_page`. -/
def readDeltaPage (request : A2aJournalPageRequest) : SqliteMethod (A2aJournalPage R) := do
  check request.validate
  transaction do
    let tx ← read id
    let view ← check (tx.load C)
    let page ← check (tx.readDeltaPage H C view request)
    pure (.drop page)

/-- `finish_restore`. -/
def finishRestore (restoreId : String) : SqliteMethod Unit := do
  check (validateId "restore id" restoreId)
  transaction do
    modify fun tx => { tx with restorePins := tx.restorePins.erase restoreId }
    let tx ← read id
    let view ← check (tx.load C)
    let _ ← removeUnpinnedCompactedPayloads C view.manifest
    pure (.commit ())

/-- The loop over the covered deltas in `garbage_collect`: each gives way to its tombstone. -/
def compact : List String → BTreeMap A2aCompactedMutationTombstone →
    SqliteMethod (BTreeMap A2aCompactedMutationTombstone)
  | [], compacted => pure compacted
  | json :: rows, compacted => do
    let delta ← check (decodeJournalJson C.delta "journal delta" json)
    let tombstone ← check (A2aCompactedMutationTombstone.fromDelta delta)
    modify fun tx =>
      { tx with
        compacted := tx.compacted.insert tombstone.mutationId (C.tombstone.encode tombstone)
        mutations := tx.mutations.erase delta.mutationId }
    compact rows (compacted.insert tombstone.mutationId tombstone)

/-- `garbage_collect`, once it has something to collect. -/
def collect (view : SqliteJournalView) (active : A2aMapperCheckpointMetadata) : SqliteMethod Nat := do
  let tx ← read id
  let rows ← check (tx.covered active.highWater.sequence)
  let compacted ← check (tx.compactedMutations C)
  let compacted ← compact C rows compacted
  let manifest : A2aJournalManifest :=
    { view.manifest with
      retainedFromSequence := saturatingAdd active.highWater.sequence 1
      compactedMutationCount := compacted.size
      compactedMutationsHash := compactedMutationsHash H compacted }
  let removedDeltas ← removeUnpinnedCompactedPayloads C manifest
  let manifest ← check (manifest.advanceGeneration H)
  storeManifest C { view with manifest }
  pure removedDeltas

/-- `garbage_collect`. -/
def garbageCollect (request : A2aJournalGcRequest) : SqliteMethod A2aJournalGcOutcome :=
  transaction do
    let tx ← read id
    let view ← check (tx.load C)
    match ← check (tx.admitCollection H C view request) with
    | none => pure (.drop .alreadyCollected)
    | some active =>
      let removedDeltas ← collect H C view active
      pure (.commit (.collected removedDeltas))

end SqliteA2aMapperJournalStore

open SqliteA2aMapperJournalStore in
/-- The method of a call on the SQLite store. -/
def sqliteMethod : JournalCall R → SqliteMethod (JournalAnswer R)
  | .manifest => .manifest <$> manifest H C
  | .lookupHead => .head <$> lookupHead H C
  | .appendDelta delta => .appended <$> appendDelta H C delta
  | .installCheckpoint request => .installed <$> installCheckpoint H C request
  | .beginRestore => .restore <$> beginRestore H C
  | .readDeltaPage request => .page <$> readDeltaPage H C request
  | .finishRestore restoreId => (fun _ => .finished) <$> finishRestore C restoreId
  | .garbageCollect request => .collected <$> garbageCollect H C request

end

end AikitRuntime.Journal
