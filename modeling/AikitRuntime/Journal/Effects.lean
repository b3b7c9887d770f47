import AikitRuntime.Journal.Calls
import AikitRuntime.Journal.History

/-!
# What the calls do

`Does H s called t` lists what a call can do to a store that keeps its journal, as long as there is
a next generation to write: nothing, or one of five writes. Every write keeps the journal, so every
run does.
-/

namespace AikitRuntime.Journal

open Library Durability Method
open InMemoryJournalState InMemoryA2aMapperJournalStore

section
variable {R : MapperRecords}

/-- What a call can do. -/
inductive Does (H : JournalHost R) (s : InMemoryJournalState R) :
    JournalCalled R → InMemoryJournalState R → Prop where
  /-- It reads, is refused, or was done before. -/
  | kept {called : JournalCalled R} (hquiet : called.applied = none) : Does H s called s
  | appended {delta : A2aMapperDelta R} {token : A2aJournalToken}
      (hvalid : delta.validate H = .ok ()) (hadmitted : s.admitDelta H delta = .ok (some token))
      (hlt : s.manifest.generation < u64Max) :
      Does H s ⟨.appendDelta delta, .ok (.appended .applied)⟩ (s.appended H delta token)
  | installed {request : A2aCheckpointInstallRequest} {head : A2aJournalToken}
      (hvalid : request.checkpoint.validate H = .ok ())
      (hhead : s.headAfter H request.checkpoint.metadata = .ok head)
      (hlt : s.manifest.generation < u64Max) :
      Does H s ⟨.installCheckpoint request, .ok (.installed .applied)⟩
        (s.installed H request.checkpoint head)
  | restoring {bytes : Option A2aMapperCheckpoint} (hbytes : s.activeBytes H = .ok bytes)
      (hnext : s.nextRestoreId + 1 ≤ u64Max) :
      Does H s
        ⟨.beginRestore, .ok (.restore
          ⟨restoreName s.nextRestoreId, s.manifest, bytes, restoreStart H bytes⟩)⟩
        (s.restoring (restoreStart H bytes))
  | released {id : String} : Does H s ⟨.finishRestore id, .ok .finished⟩ (s.released id)
  | collected {request : A2aJournalGcRequest} {active : A2aMapperCheckpointMetadata}
      {tombstones : BTreeMap A2aCompactedMutationTombstone}
      {identities : BTreeMap (StoredMutationIdentity R)} {removed : Nat}
      (hactive : s.manifest.activeCheckpoint = some active)
      (hrun : (each compact (covered s active)).run s = .ok ⟨⟩
        { s with compactedMutations := tombstones, mutationIdentities := identities })
      (hlt : s.manifest.generation < u64Max) :
      Does H s ⟨.garbageCollect request, .ok (.collected (.collected removed))⟩
        (s.compacted H active.highWater.sequence tombstones identities).removeUnpinnedCompactedPayloads

variable {H : JournalHost R} {s t : InMemoryJournalState R} {base : A2aJournalToken}
  {ds : List (A2aMapperDelta R)} {delta : A2aMapperDelta R} {token : A2aJournalToken}
  {called : JournalCalled R}

/-! ### Generations -/

theorem advanceGeneration_of_lt {manifest : A2aJournalManifest}
    (h : manifest.generation < u64Max) :
    manifest.advanceGeneration H = .ok (manifest.advanced H) := by
  unfold A2aJournalManifest.advanceGeneration
  rw [checkedAdd_eq_some.mpr ⟨rfl, h⟩]
  rfl

theorem advanceGeneration_of_not_lt {manifest : A2aJournalManifest}
    (h : ¬ manifest.generation < u64Max) :
    manifest.advanceGeneration H = .error (.invalid "manifest generation overflow") := by
  unfold A2aJournalManifest.advanceGeneration checkedAdd
  rw [if_neg (by omega)]
  rfl

theorem run_advanceGeneration (h : s.manifest.generation < u64Max) :
    (advanceGeneration H).run s = .ok () { s with manifest := s.manifest.advanced H } := by
  unfold InMemoryA2aMapperJournalStore.advanceGeneration
  rw [run_read_bind, id_eq, advanceGeneration_of_lt h]
  rfl

variable {f : InMemoryJournalState R → InMemoryJournalState R}

/-- A change of the state, and the next generation. -/
theorem run_write {α : Type} {a : α}
    (h : (f s).manifest.generation < u64Max) :
    (do modify f; advanceGeneration H; pure a : JournalMethod R α).run s =
      .ok a { f s with manifest := (f s).manifest.advanced H } := by
  have hf : (modify f : JournalMethod R PUnit).run s = .ok ⟨⟩ (f s) := rfl
  rw [run_bind_ok hf, run_bind_ok (run_advanceGeneration h)]
  rfl

/-- A write at the last generation fails, and what it wrote stays. -/
theorem run_write_last {α : Type} {a : α}
    (h : ¬ (f s).manifest.generation < u64Max) :
    (do modify f; advanceGeneration H; pure a : JournalMethod R α).run s =
      .error (.invalid "manifest generation overflow") (f s) := by
  have hf : (modify f : JournalMethod R PUnit).run s = .ok ⟨⟩ (f s) := rfl
  have hadvance : (advanceGeneration H).run (f s) =
      .error (.invalid "manifest generation overflow") (f s) := by
    unfold InMemoryA2aMapperJournalStore.advanceGeneration
    rw [run_read_bind, id_eq, advanceGeneration_of_not_lt h]
    rfl
  rw [run_bind_ok hf, run_bind_error hadvance]

theorem failsClean_write {α : Type} {a : α}
    (h : (f s).manifest.generation < u64Max) :
    FailsClean (do modify f; advanceGeneration H; pure a : JournalMethod R α) s := by
  intro e t hrun
  rw [run_write h] at hrun
  cases hrun

/-! ### Appends -/

theorem run_appendDelta (hvalid : delta.validate H = .ok ())
    (hadmitted : s.admitDelta H delta = .ok (some token)) (hlt : s.manifest.generation < u64Max) :
    (appendDelta H delta).run s = .ok .applied (s.appended H delta token) := by
  unfold appendDelta
  rw [hvalid, run_check_bind_ok, run_read_bind, id_eq, hadmitted, run_check_bind_ok]
  exact run_write hlt

theorem appendDelta_does (hgeneration : HasGeneration H s (.appendDelta delta))
    {outcome : A2aJournalAppendOutcome} (h : (appendDelta H delta).run s = .ok outcome t) :
    Does H s ⟨.appendDelta delta, .ok (.appended outcome)⟩ t := by
  have hrun := h
  unfold appendDelta at h
  obtain ⟨_, hvalid, h⟩ := run_check_bind_eq_ok.mp h
  rw [run_read_bind, id_eq] at h
  obtain ⟨found, hadmitted, h⟩ := run_check_bind_eq_ok.mp h
  cases found with
  | none =>
    cases h
    exact .kept rfl
  | some token =>
    have hlt := hgeneration ⟨hvalid, token, hadmitted⟩
    rw [run_appendDelta hvalid hadmitted hlt] at hrun
    cases hrun
    exact .appended hvalid hadmitted hlt

theorem appendDelta_failsClean (hgeneration : HasGeneration H s (.appendDelta delta)) :
    FailsClean (appendDelta H delta) s := by
  refine FailsClean.check_bind fun _ hvalid => FailsClean.read_bind ?_
  refine FailsClean.check_bind fun found hadmitted => ?_
  cases found with
  | none => exact FailsClean.pure _
  | some token => exact failsClean_write (hgeneration ⟨hvalid, token, hadmitted⟩)

/-! ### Installations -/

variable {request : A2aCheckpointInstallRequest} {head : A2aJournalToken}

theorem run_installCheckpoint (hvalid : request.checkpoint.validate H = .ok ())
    (hadmitted : s.admitCheckpoint H request = .ok (some head))
    (hlt : s.manifest.generation < u64Max) :
    (installCheckpoint H request).run s = .ok .applied (s.installed H request.checkpoint head) := by
  unfold installCheckpoint
  rw [hvalid, run_check_bind_ok, run_read_bind, id_eq, hadmitted, run_check_bind_ok]
  exact run_write hlt

theorem admitCheckpoint_some (hadmitted : s.admitCheckpoint H request = .ok (some head)) :
    s.headAfter H request.checkpoint.metadata = .ok head ∧
      s.checkpoints[request.checkpoint.metadata.checkpointId]? = none := by
  unfold admitCheckpoint at hadmitted
  obtain ⟨_, _, hadmitted⟩ := bind_eq_ok.mp hadmitted
  dsimp only at hadmitted
  split at hadmitted
  · obtain ⟨_, _, hadmitted⟩ := bind_eq_ok.mp hadmitted
    obtain ⟨_, _, hadmitted⟩ := bind_eq_ok.mp hadmitted
    cases hadmitted
  · split at hadmitted
    · cases hadmitted
    · obtain ⟨_, _, hadmitted⟩ := bind_eq_ok.mp hadmitted
      cases hhead : s.headAfter H request.checkpoint.metadata with
      | ok found =>
        rw [hhead] at hadmitted
        cases hadmitted
        exact ⟨rfl, by assumption⟩
      | error e =>
        rw [hhead] at hadmitted
        cases hadmitted

theorem installCheckpoint_does (hgeneration : HasGeneration H s (.installCheckpoint request))
    {outcome : A2aCheckpointInstallOutcome}
    (h : (installCheckpoint H request).run s = .ok outcome t) :
    Does H s ⟨.installCheckpoint request, .ok (.installed outcome)⟩ t := by
  have hrun := h
  unfold installCheckpoint at h
  obtain ⟨_, hvalid, h⟩ := run_check_bind_eq_ok.mp h
  rw [run_read_bind, id_eq] at h
  obtain ⟨found, hadmitted, h⟩ := run_check_bind_eq_ok.mp h
  cases found with
  | none =>
    cases h
    exact .kept rfl
  | some head =>
    have hlt := hgeneration ⟨hvalid, head, hadmitted⟩
    rw [run_installCheckpoint hvalid hadmitted hlt] at hrun
    cases hrun
    exact .installed hvalid (admitCheckpoint_some hadmitted).1 hlt

theorem installCheckpoint_failsClean (hgeneration : HasGeneration H s (.installCheckpoint request)) :
    FailsClean (installCheckpoint H request) s := by
  refine FailsClean.check_bind fun _ hvalid => FailsClean.read_bind ?_
  refine FailsClean.check_bind fun found hadmitted => ?_
  cases found with
  | none => exact FailsClean.pure _
  | some head => exact failsClean_write (hgeneration ⟨hvalid, head, hadmitted⟩)

/-! ### Restores -/

theorem run_beginRestore (hjournal : Journaled H s base ds) (hnext : s.nextRestoreId + 1 ≤ u64Max)
    {bytes : Option A2aMapperCheckpoint} (hbytes : s.activeBytes H = .ok bytes) :
    (beginRestore H).run s = .ok
      ⟨restoreName s.nextRestoreId, s.manifest, bytes, restoreStart H bytes⟩
      (s.restoring (restoreStart H bytes)) := by
  have hadd : checkedAdd s.nextRestoreId 1 = some (s.nextRestoreId + 1) :=
    checkedAdd_eq_some.mpr ⟨rfl, hnext⟩
  unfold beginRestore
  rw [run_read_bind, id_eq, hjournal.validateHead, run_check_bind_ok, hbytes, run_check_bind_ok,
    hadd, okOr_some, run_check_bind_ok]
  rfl

theorem beginRestore_ok {point : A2aJournalRestorePoint}
    (h : (beginRestore H).run s = .ok point t) :
    ∃ bytes, s.activeBytes H = .ok bytes ∧ s.nextRestoreId + 1 ≤ u64Max ∧
      point = ⟨restoreName s.nextRestoreId, s.manifest, bytes, restoreStart H bytes⟩ ∧
      t = s.restoring (restoreStart H bytes) := by
  unfold beginRestore at h
  rw [run_read_bind, id_eq] at h
  obtain ⟨_, _, h⟩ := run_check_bind_eq_ok.mp h
  obtain ⟨bytes, hbytes, h⟩ := run_check_bind_eq_ok.mp h
  obtain ⟨next, hnext, h⟩ := run_check_bind_eq_ok.mp h
  obtain ⟨rfl, hle⟩ := checkedAdd_eq_some.mp (okOr_eq_ok.mp hnext)
  cases h
  exact ⟨bytes, hbytes, hle, rfl, rfl⟩

theorem beginRestore_does {point : A2aJournalRestorePoint}
    (h : (beginRestore H).run s = .ok point t) : Does H s ⟨.beginRestore, .ok (.restore point)⟩ t := by
  obtain ⟨bytes, hbytes, hle, rfl, rfl⟩ := beginRestore_ok h
  exact .restoring hbytes hle

theorem beginRestore_failsClean : FailsClean (beginRestore H) s := by
  refine FailsClean.read_bind (FailsClean.check_bind fun _ _ => ?_)
  exact FailsClean.check_bind fun _ _ => FailsClean.check_bind fun _ _ => FailsClean.modify _ _

theorem finishRestore_does {id : String} {u : Unit}
    (h : (finishRestore id : JournalMethod R Unit).run s = .ok u t) :
    Does H s ⟨.finishRestore id, .ok .finished⟩ t := by
  unfold finishRestore at h
  obtain ⟨_, _, h⟩ := run_check_bind_eq_ok.mp h
  cases h
  exact .released

theorem finishRestore_failsClean (id : String) :
    FailsClean (finishRestore id : JournalMethod R Unit) s := by
  refine FailsClean.check_bind fun _ _ => ?_
  intro e t h
  cases h

/-! ### Collections -/

variable {collection : A2aJournalGcRequest} {active : A2aMapperCheckpointMetadata}

theorem admitCollection_some (hadmitted : s.admitCollection H collection = .ok (some active)) :
    s.manifest.activeCheckpoint = some active := by
  unfold admitCollection at hadmitted
  obtain ⟨_, _, hadmitted⟩ := bind_eq_ok.mp hadmitted
  obtain ⟨found, hfound, hadmitted⟩ := bind_eq_ok.mp hadmitted
  obtain ⟨_, _, hadmitted⟩ := bind_eq_ok.mp hadmitted
  split at hadmitted
  · cases hadmitted
  · obtain ⟨_, _, hadmitted⟩ := bind_eq_ok.mp hadmitted
    cases hadmitted
    exact okOr_eq_ok.mp hfound

/-- What a collection does after its loop. -/
theorem run_collected (sequence : Nat) (h : s.manifest.generation < u64Max) :
    (do
      modify fun s => collected H s sequence
      let s ← read id
      modify removeUnpinnedCompactedPayloads
      advanceGeneration H
      pure (.collected s.removable.length) : JournalMethod R A2aJournalGcOutcome).run s =
      .ok (.collected (collected H s sequence).removable.length)
        { (collected H s sequence).removeUnpinnedCompactedPayloads with
          manifest := (collected H s sequence).manifest.advanced H } := by
  have hf : (modify fun s => collected H s sequence : JournalMethod R PUnit).run s =
      .ok ⟨⟩ (collected H s sequence) := rfl
  rw [run_bind_ok hf, run_read_bind]
  exact run_write h

/-- A collection that is admitted is carried out. -/
theorem run_garbageCollect (h : Journaled H s base ds)
    (hadmitted : s.admitCollection H collection = .ok (some active))
    (hlt : s.manifest.generation < u64Max) :
    ∃ removed u, (garbageCollect H collection).run s = .ok (.collected removed) u ∧
      Does H s ⟨.garbageCollect collection, .ok (.collected (.collected removed))⟩ u := by
  have hactive := admitCollection_some hadmitted
  have ha := h.active active hactive
  have hcounted := ha.counted
  have hle := ha.reached.le
  have hlength := h.length_eq
  have hnext : saturatingAdd active.highWater.sequence 1 = active.highWater.sequence + 1 := by
    unfold saturatingAdd
    omega
  obtain ⟨tombstones, identities, hrun, -⟩ := h.collect hactive hlt
  have hdone := run_collected (H := H) active.highWater.sequence
    (s := { s with compactedMutations := tombstones, mutationIdentities := identities }) hlt
  refine ⟨(collected H
    { s with compactedMutations := tombstones, mutationIdentities := identities }
    active.highWater.sequence).removable.length, _, ?_, .collected hactive hrun hlt⟩
  unfold garbageCollect
  rw [run_read_bind, id_eq, hadmitted, run_check_bind_ok]
  dsimp only
  rw [run_bind_ok hrun, hdone]
  unfold collected
  rw [hnext]
  rfl

theorem garbageCollect_does (hjournal : Journaled H s base ds)
    (hgeneration : HasGeneration H s (.garbageCollect collection)) {outcome : A2aJournalGcOutcome}
    (h : (garbageCollect H collection).run s = .ok outcome t) :
    Does H s ⟨.garbageCollect collection, .ok (.collected outcome)⟩ t := by
  have hrun := h
  unfold garbageCollect at h
  rw [run_read_bind, id_eq] at h
  obtain ⟨found, hadmitted, h⟩ := run_check_bind_eq_ok.mp h
  cases found with
  | none =>
    cases h
    exact .kept rfl
  | some active =>
    obtain ⟨removed, u, hrun', hdoes⟩ := run_garbageCollect hjournal hadmitted (hgeneration ⟨active, hadmitted⟩)
    rw [hrun'] at hrun
    cases hrun
    exact hdoes

theorem garbageCollect_failsClean (hjournal : Journaled H s base ds)
    (hgeneration : HasGeneration H s (.garbageCollect collection)) :
    FailsClean (garbageCollect H collection) s := by
  intro e t h
  have hrun := h
  unfold garbageCollect at h
  rw [run_read_bind, id_eq] at h
  cases hadmitted : s.admitCollection H collection with
  | error e' =>
    rw [hadmitted] at h
    cases h
    rfl
  | ok found =>
    rw [hadmitted, run_check_bind_ok] at h
    cases found with
    | none => cases h
    | some active =>
      obtain ⟨_, _, hrun', -⟩ := run_garbageCollect hjournal hadmitted (hgeneration ⟨active, hadmitted⟩)
      rw [hrun'] at hrun
      cases hrun

/-! ### Every call -/

/-- A method that does what its call can do, and fails without a trace. -/
theorem does_of_method {α : Type} {m : JournalMethod R α} {wrap : α → JournalAnswer R}
    {call : JournalCall R} {answer : A2aJournalResult (JournalAnswer R)}
    (hok : ∀ a u, m.run s = .ok a u → Does H s ⟨call, .ok (wrap a)⟩ u) (hclean : FailsClean m s)
    (h : (wrap <$> m).run s = match answer with
      | .ok a => .ok a t
      | .error e => .error e t) : Does H s ⟨call, answer⟩ t := by
  cases answer with
  | ok a =>
    obtain ⟨b, hrun, rfl⟩ := run_map_eq_ok.mp h
    exact hok b t hrun
  | error e =>
    cases hclean e t (run_map_eq_error.mp h)
    refine .kept ?_
    unfold JournalCalled.applied
    cases call <;> rfl

theorem readDeltaPage_failsClean (page : A2aJournalPageRequest) :
    FailsClean (readDeltaPage H page) s :=
  FailsClean.read_bind (FailsClean.check _)

theorem readDeltaPage_run {request : A2aJournalPageRequest} {page : A2aJournalPage R} :
    (readDeltaPage H request).run s = .ok page t ↔ s.readDeltaPage H request = .ok page ∧ s = t := by
  unfold InMemoryA2aMapperJournalStore.readDeltaPage
  rw [run_read_bind, id_eq, run_check_eq_ok]

/-- **A call does one of these.** -/
theorem Calls.does (hjournal : Journaled H s base ds) (hgeneration : HasGeneration H s called.call)
    (h : Calls H s called t) : Does H s called t := by
  obtain ⟨call, answer⟩ := called
  cases call with
  | manifest =>
    refine does_of_method (m := manifest H) (fun a u hrun => ?_) ?_ h
    · obtain ⟨_, _, hrun⟩ := run_check_bind_eq_ok.mp hrun
      cases hrun
      exact .kept rfl
    · exact FailsClean.read_bind (FailsClean.check_bind fun _ _ => FailsClean.pure _)
  | lookupHead =>
    refine does_of_method (m := lookupHead H) (fun a u hrun => ?_) ?_ h
    · obtain ⟨_, _, hrun⟩ := run_check_bind_eq_ok.mp hrun
      cases hrun
      exact .kept rfl
    · exact FailsClean.read_bind (FailsClean.check_bind fun _ _ => FailsClean.pure _)
  | appendDelta delta =>
    exact does_of_method (fun _ _ => appendDelta_does hgeneration)
      (appendDelta_failsClean hgeneration) h
  | installCheckpoint request =>
    exact does_of_method (fun _ _ => installCheckpoint_does hgeneration)
      (installCheckpoint_failsClean hgeneration) h
  | beginRestore => exact does_of_method (fun _ _ => beginRestore_does) beginRestore_failsClean h
  | readDeltaPage request =>
    refine does_of_method (m := readDeltaPage H request) (fun a u hrun => ?_)
      (readDeltaPage_failsClean request) h
    obtain ⟨-, rfl⟩ := readDeltaPage_run.mp hrun
    exact .kept rfl
  | finishRestore id =>
    exact does_of_method (fun _ _ => finishRestore_does) (finishRestore_failsClean id) h
  | garbageCollect request =>
    exact does_of_method (fun _ _ => garbageCollect_does hjournal hgeneration)
      (garbageCollect_failsClean hjournal hgeneration) h

/-! ### What an append is admitted for -/

theorem replayed_ne_some {same : Prop} [Decidable same] {known : A2aJournalToken} :
    replayed delta same known ≠ .ok (some token) := by
  intro h
  unfold replayed at h
  split at h
  · obtain ⟨_, _, h⟩ := bind_eq_ok.mp h
    obtain ⟨_, _, h⟩ := bind_eq_ok.mp h
    cases h
  · cases h

/-- Where a store has the id of a delta that was applied. -/
theorem Journaled.known_iff (h : Journaled H s base ds) (id : String) :
    (s.mutationIdentities[id]? = none ∧ s.compactedMutations[id]? = none) ↔
      ∀ e ∈ ds, e.mutationId ≠ id := by
  constructor
  · rintro ⟨hidentity, htombstone⟩ e he hid
    obtain ⟨i, hi⟩ := List.mem_iff_getElem?.mp he
    obtain ⟨t, ht, -⟩ := h.chain.reached_token h.base_sequence hi
    obtain ⟨tombstone, htomb⟩ := h.fromDelta_ok hi
    by_cases hlt : i + 1 < s.manifest.retainedFromSequence
    · have hsome := (h.tombstones id tombstone).mpr ⟨i, e, hlt, hi, hid, htomb⟩
      rw [htombstone] at hsome
      cases hsome
    · have hsome := (h.identities id ⟨e, t⟩).mpr ⟨i, Nat.le_of_not_lt hlt, hi, hid, ht⟩
      rw [hidentity] at hsome
      cases hsome
  · intro hfresh
    constructor
    · refine Option.eq_none_iff_forall_ne_some.mpr fun e he => ?_
      obtain ⟨i, -, hi, hid, -⟩ := (h.identities id e).mp he
      exact hfresh e.delta (List.mem_of_getElem? hi) hid
    · refine Option.eq_none_iff_forall_ne_some.mpr fun e he => ?_
      obtain ⟨i, d, -, hi, hid, -⟩ := (h.tombstones id e).mp he
      exact hfresh d (List.mem_of_getElem? hi) hid

/-- A delta that is admitted has a new id and follows the head. -/
theorem Journaled.admitDelta_some (h : Journaled H s base ds) (hvalid : delta.validate H = .ok ())
    (hadmitted : s.admitDelta H delta = .ok (some token)) :
    (∀ e ∈ ds, e.mutationId ≠ delta.mutationId) ∧ Follows H s.manifest.head delta token := by
  unfold admitDelta at hadmitted
  obtain ⟨_, _, hadmitted⟩ := bind_eq_ok.mp hadmitted
  cases hidentity : s.mutationIdentities[delta.mutationId]? with
  | some existing =>
    rw [hidentity] at hadmitted
    exact absurd hadmitted replayed_ne_some
  | none =>
    rw [hidentity] at hadmitted
    cases htombstone : s.compactedMutations[delta.mutationId]? with
    | some existing =>
      rw [htombstone] at hadmitted
      exact absurd hadmitted replayed_ne_some
    | none =>
      rw [htombstone] at hadmitted
      obtain ⟨_, hexpected, hadmitted⟩ := bind_eq_ok.mp hadmitted
      obtain ⟨found, hfound, hadmitted⟩ := bind_eq_ok.mp hadmitted
      obtain ⟨_, _, hadmitted⟩ := bind_eq_ok.mp hadmitted
      cases hadmitted
      exact ⟨(h.known_iff _).mp ⟨hidentity, htombstone⟩, hvalid,
        not_not.mp (refuseIf_eq_ok.mp hexpected), hfound⟩

/-- There is no payload after the head. -/
theorem Journaled.next_free (h : Journaled H s base ds) :
    s.deltas[s.manifest.head.sequence + 1]? = none := by
  refine Option.eq_none_iff_forall_ne_some.mpr fun d hd => ?_
  obtain ⟨i, hi, hget⟩ := h.stored _ d hd
  have hlt := (List.getElem?_eq_some_iff.mp hget).1
  have hlength := h.length_eq
  omega

/-- A delta with a new id that follows the head is admitted. -/
theorem Journaled.admitDelta_new (h : Journaled H s base ds)
    (hfresh : ∀ e ∈ ds, e.mutationId ≠ delta.mutationId)
    (hexpected : delta.expectedToken = s.manifest.head) :
    s.admitDelta H delta = some <$> delta.token := by
  obtain ⟨hidentity, htombstone⟩ := (h.known_iff _).mpr hfresh
  unfold admitDelta
  rw [h.validateHead, ok_bind, hidentity, htombstone]
  dsimp only
  rw [refuseIf_of_not (not_not.mpr hexpected), ok_bind]
  cases htoken : delta.token with
  | error e => rfl
  | ok token =>
    have hsequence : token.sequence = s.manifest.head.sequence + 1 := by
      rw [(A2aMapperDelta.token_eq_ok htoken).1, hexpected]
    have hnone : s.deltas[token.sequence]? = none := by rw [hsequence, h.next_free]
    have hcontains : ¬ s.deltas.contains token.sequence = true := by
      rw [Std.ExtTreeMap.contains_eq_isSome_getElem?, hnone]
      nofun
    rw [ok_bind, refuseIf_of_not hcontains]
    rfl

/-! ### Runs -/

/-- **A call keeps the journal.** -/
theorem Does.journaled (h : Does H s called t) (hjournal : Journaled H s base ds) :
    ∃ base', Journaled H t base' (ds ++ called.applied.toList) ∧ (base' = base ∨ ds = []) := by
  cases h with
  | kept hquiet =>
    rw [hquiet, Option.toList_none, List.append_nil]
    exact ⟨base, hjournal, .inl rfl⟩
  | appended hvalid hadmitted hlt =>
    obtain ⟨hfresh, hfollows⟩ := hjournal.admitDelta_some hvalid hadmitted
    exact ⟨base, hjournal.append hfresh hfollows hlt, .inl rfl⟩
  | @installed request head hvalid hhead hlt =>
    have hsame : ds ++ Option.toList (JournalCalled.applied
        ⟨.installCheckpoint request, .ok (.installed .applied)⟩ : Option (A2aMapperDelta R)) = ds :=
      List.append_nil ds
    rw [hsame]
    exact hjournal.installed hvalid hhead hlt
  | restoring hbytes hnext =>
    obtain ⟨hreached, hlt, hretained⟩ := hjournal.start hbytes
    refine ⟨base, ?_, .inl rfl⟩
    rw [show (JournalCalled.applied ⟨.beginRestore, .ok (.restore _)⟩ : Option (A2aMapperDelta R)) =
      none from rfl, Option.toList_none, List.append_nil]
    exact hjournal.pin hreached hlt hretained hnext
  | released =>
    refine ⟨base, ?_, .inl rfl⟩
    rw [show (JournalCalled.applied ⟨.finishRestore _, .ok .finished⟩ : Option (A2aMapperDelta R)) =
      none from rfl, Option.toList_none, List.append_nil]
    exact hjournal.release _
  | @collected request active tombstones identities removed hactive hrun hlt =>
    refine ⟨base, ?_, .inl rfl⟩
    rw [show (JournalCalled.applied ⟨.garbageCollect request, .ok (.collected (.collected removed))⟩ :
      Option (A2aMapperDelta R)) = none from rfl, Option.toList_none, List.append_nil]
    obtain ⟨tombstones', identities', hrun', hcollected⟩ := hjournal.collect hactive hlt
    rw [hrun] at hrun'
    injection hrun' with _ hstate
    injection hstate with _ _ hidentities htombstones
    subst hidentities htombstones
    exact hcollected.prune

theorem applied_append (pre post : List (JournalCalled R)) :
    applied (pre ++ post) = applied pre ++ applied post := List.filterMap_append

theorem applied_cons (called : JournalCalled R) (calls : List (JournalCalled R)) :
    applied (called :: calls) = called.applied.toList ++ applied calls := by
  rw [applied, List.filterMap_cons]
  cases called.applied <;> rfl

/-- Calls keep the journal, and apply to it what they answer. -/
theorem Journaled.path (h : Journaled H s base ds) {calls : List (JournalCalled R)}
    (hpath : Path (BoundedCall H) s calls t) :
    ∃ base', Journaled H t base' (ds ++ applied calls) := by
  induction hpath generalizing base ds with
  | nil =>
    rw [applied, List.filterMap_nil, List.append_nil]
    exact ⟨base, h⟩
  | cons hstep _ ih =>
    obtain ⟨base', hnext, -⟩ := (hstep.calls.does h hstep.hasGeneration).journaled h
    rw [applied_cons, ← List.append_assoc]
    exact ih hnext

/-- **A run keeps the journal.** -/
theorem BoundedRun.journaled {calls : List (JournalCalled R)} (h : BoundedRun H calls s) :
    ∃ base, Journaled H s base (applied calls) :=
  (journaled_new H).path h

end

end AikitRuntime.Journal
