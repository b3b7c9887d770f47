import AikitRuntime.Library.Paths
import AikitRuntime.Journal.MemoryStore

/-!
# Calls on a journal store

Any number of clients call one store, and a run is a path of calls with their answers. What a run
applied are the deltas that it answered to be applied, in order.
-/

namespace AikitRuntime.Journal

open Library

section
variable {R : MapperRecords}

/-- A call on a journal store. -/
inductive JournalCall (R : MapperRecords) where
  | manifest
  | lookupHead
  | appendDelta (delta : A2aMapperDelta R)
  | installCheckpoint (request : A2aCheckpointInstallRequest)
  | beginRestore
  | readDeltaPage (request : A2aJournalPageRequest)
  | finishRestore (restoreId : String)
  | garbageCollect (request : A2aJournalGcRequest)

/-- What a call returns. -/
inductive JournalAnswer (R : MapperRecords) where
  | manifest (manifest : A2aJournalManifest)
  | head (head : A2aJournalToken)
  | appended (outcome : A2aJournalAppendOutcome)
  | installed (outcome : A2aCheckpointInstallOutcome)
  | restore (point : A2aJournalRestorePoint)
  | page (page : A2aJournalPage R)
  | finished
  | collected (outcome : A2aJournalGcOutcome)

open InMemoryA2aMapperJournalStore in
/-- The method of a call on the in-memory store. -/
def memoryMethod (H : JournalHost R) : JournalCall R → JournalMethod R (JournalAnswer R)
  | .manifest => .manifest <$> manifest H
  | .lookupHead => .head <$> lookupHead H
  | .appendDelta delta => .appended <$> appendDelta H delta
  | .installCheckpoint request => .installed <$> installCheckpoint H request
  | .beginRestore => .restore <$> beginRestore H
  | .readDeltaPage request => .page <$> readDeltaPage H request
  | .finishRestore restoreId => (fun _ => .finished) <$> finishRestore restoreId
  | .garbageCollect request => .collected <$> garbageCollect H request

/-- A call and its answer. -/
structure JournalCalled (R : MapperRecords) where
  call : JournalCall R
  answer : A2aJournalResult (JournalAnswer R)

/-- A call with this answer takes one store to another. -/
def Calls (H : JournalHost R) (s : InMemoryJournalState R) (called : JournalCalled R)
    (t : InMemoryJournalState R) : Prop :=
  (memoryMethod H called.call).run s = match called.answer with
    | .ok a => .ok a t
    | .error e => .error e t

/-- A run of calls on a new store. -/
abbrev StoreRun (H : JournalHost R) (calls : List (JournalCalled R)) (s : InMemoryJournalState R) :
    Prop :=
  Path (Calls H) (.new H) calls s

/-- The delta that a call applied. -/
def JournalCalled.applied (called : JournalCalled R) : Option (A2aMapperDelta R) :=
  match called.call, called.answer with
  | .appendDelta delta, .ok (.appended .applied) => some delta
  | _, _ => none

/-- The deltas that a run applied. -/
def applied (calls : List (JournalCalled R)) : List (A2aMapperDelta R) :=
  calls.filterMap JournalCalled.applied

/-- What is hashed in a run. -/
inductive Hashed (H : JournalHost R) (calls : List (JournalCalled R)) : HashMaterial R → Prop where
  | genesis : Hashed H calls .genesis
  | delta {delta : A2aMapperDelta R} {answer : A2aJournalResult (JournalAnswer R)}
      (hmem : ⟨.appendDelta delta, answer⟩ ∈ calls) : Hashed H calls delta.material
  | checkpoint {request : A2aCheckpointInstallRequest} {answer : A2aJournalResult (JournalAnswer R)}
      (hmem : ⟨.installCheckpoint request, answer⟩ ∈ calls) :
      Hashed H calls (.checkpoint request.checkpoint.metadata.highWater
        request.checkpoint.metadata.mapperSchemaVersion request.checkpoint.metadata.stateHash)
  | bootstrap {request : A2aCheckpointInstallRequest} {answer : A2aJournalResult (JournalAnswer R)}
      (hmem : ⟨.installCheckpoint request, answer⟩ ∈ calls) :
      Hashed H calls (.bootstrap request.checkpoint.metadata.highWater.revision
        request.checkpoint.metadata.stateHash)
  | manifest {pre : List (JournalCalled R)} {t : InMemoryJournalState R} (hpre : pre <+: calls)
      (hrun : StoreRun H pre t) : Hashed H calls t.manifest.material
  | tombstones {pre : List (JournalCalled R)} {t : InMemoryJournalState R} (hpre : pre <+: calls)
      (hrun : StoreRun H pre t) : Hashed H calls (.tombstones t.compactedMutations)

/-- No two things that are hashed in a run have one hash. -/
def CollisionFree (H : JournalHost R) (calls : List (JournalCalled R)) : Prop :=
  ∀ a b, Hashed H calls a → Hashed H calls b → H.stableHash a = H.stableHash b → a = b

/-- A call writes, unless the manifest has no next generation. -/
def Admits (H : JournalHost R) (s : InMemoryJournalState R) : JournalCall R → Prop
  | .appendDelta delta =>
    delta.validate H = .ok () ∧ ∃ token, s.admitDelta H delta = .ok (some token)
  | .installCheckpoint request =>
    request.checkpoint.validate H = .ok () ∧ ∃ head, s.admitCheckpoint H request = .ok (some head)
  | .garbageCollect request => ∃ active, s.admitCollection H request = .ok (some active)
  | _ => False

/-- A call that does not write at the last generation. -/
def HasGeneration (H : JournalHost R) (s : InMemoryJournalState R) (call : JournalCall R) : Prop :=
  Admits H s call → s.manifest.generation < u64Max

/-- A step of a run in which no call writes at the last generation. -/
structure BoundedCall (H : JournalHost R) (s : InMemoryJournalState R) (called : JournalCalled R)
    (t : InMemoryJournalState R) : Prop where
  calls : Calls H s called t
  hasGeneration : HasGeneration H s called.call

/-- A run in which no call writes at the last generation. -/
abbrev BoundedRun (H : JournalHost R) (calls : List (JournalCalled R))
    (s : InMemoryJournalState R) : Prop :=
  Path (BoundedCall H) (.new H) calls s

end

end AikitRuntime.Journal
