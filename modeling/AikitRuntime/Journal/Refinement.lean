import AikitRuntime.Journal.Mirrors
import AikitRuntime.Journal.Counting

/-!
# The SQLite store answers as the in-memory store

Every method of the SQLite store gives the answer that the in-memory store gives, and leaves tables
that mirror what that store is left with. So both stores answer every list of calls alike, as long
as every stored text reads back and no counter grows out of `i64`.
-/

namespace AikitRuntime.Journal

open Library Method InMemoryJournalState
open InMemoryJournalState

section
variable {R : MapperRecords} {H : JournalHost R} {C : JournalTexts R} {s : InMemoryJournalState R}
  {tx : JournalTables} {delta : A2aMapperDelta R} {token : A2aJournalToken}

/-! ### Writes -/

theorem insertRow_of_none {K V : Type} {cmp : K → K → Ordering} [Std.TransCmp cmp]
    [Std.LawfulEqCmp cmp] {operation column : String} {rows : Std.ExtTreeMap K V cmp} {key : K}
    {row : V} (h : rows[key]? = none) :
    insertRow operation column rows key row = .ok (rows.insert key row) := by
  have hcontains : ¬ rows.contains key = true := by
    rw [Std.ExtTreeMap.contains_eq_isSome_getElem?, h]
    nofun
  unfold insertRow
  rw [refuseIf_of_not hcontains]
  rfl

theorem run_storeManifest {v : SqliteJournalView} (hsmall : v.nextRestoreId ≤ i64Max)
    {row : ManifestRow} (hrow : tx.manifest = some row) :
    (SqliteA2aMapperJournalStore.storeManifest C v).run tx = .ok ()
      { tx with manifest := some ⟨C.manifest.encode v.manifest, v.nextRestoreId⟩ } := by
  unfold SqliteA2aMapperJournalStore.storeManifest
  rw [sqlFromU64_of_le hsmall, run_check_bind_ok]
  obtain ⟨manifest, deltas, mutations, compacted, checkpoints, restorePins⟩ := tx
  cases hrow
  rfl

/-- The last two steps of a write. -/
theorem run_advance_store {manifest : A2aJournalManifest} {next : Nat}
    (hlt : manifest.generation < u64Max) (hsmall : next ≤ i64Max) {row : ManifestRow}
    (hrow : tx.manifest = some row) :
    (do
      let advanced ← check (manifest.advanceGeneration H)
      SqliteA2aMapperJournalStore.storeManifest C ⟨advanced, next⟩ : SqliteMethod Unit).run tx =
      .ok () { tx with manifest := some ⟨C.manifest.encode (manifest.advanced H), next⟩ } := by
  rw [advanceGeneration_of_lt hlt, run_check_bind_ok]
  exact run_storeManifest hsmall hrow

/-- What a method wrote is there when it commits. -/
theorem run_commit {α : Type} {m : SqliteMethod Unit} {tx' : JournalTables} {a : α}
    (h : m.run tx = .ok () tx') :
    (transaction (do m; pure (.commit a)) : SqliteMethod α).run tx = .ok a tx' :=
  run_transaction_of_commit (run_bind_ok h)

/-! ### Appends -/

theorem run_writeDelta (h : Mirrored H C s tx) (hlt : s.manifest.generation < u64Max) (htoken : token.sequence ≤ i64Max)
    (hfree : s.deltas[token.sequence]? = none) (hid : s.mutationIdentities[delta.mutationId]? = none) :
    ∃ tx', (SqliteA2aMapperJournalStore.writeDelta H C ⟨s.manifest, s.nextRestoreId⟩ delta token).run
        tx = .ok () tx' ∧ Mirrors C (s.appended H delta token) tx' := by
  have hm := h.mirrors
  have hfree' : tx.deltas[(token.sequence : Int)]? = none := by rw [hm.deltas.get, hfree]; rfl
  have hid' : tx.mutations[delta.mutationId]? = none := by rw [hm.mutations, BTreeMap.get_map, hid]; rfl
  have hmutations : tx.mutations.insert delta.mutationId (C.mutation ⟨delta, token⟩) =
      (s.appended H delta token).mutationIdentities.map fun _ => C.mutation := by
    rw [hm.mutations]
    exact BTreeMap.map_insert.symm
  refine ⟨{ tx with
    manifest := some ⟨C.manifest.encode (s.appended H delta token).manifest, s.nextRestoreId⟩
    deltas := tx.deltas.insert (token.sequence : Int) (C.delta.encode delta)
    mutations := tx.mutations.insert delta.mutationId (C.mutation ⟨delta, token⟩) }, ?_, rfl,
    hm.deltas.insert token.sequence delta, hmutations, hm.compacted, hm.checkpoints, hm.restorePins⟩
  unfold SqliteA2aMapperJournalStore.writeDelta
  rw [run_read_bind, id_eq, sqlFromU64_of_le htoken, run_check_bind_ok, insertRow_of_none hfree',
    run_check_bind_ok, run_modify_bind, insertRow_of_none hid', run_check_bind_ok, run_modify_bind]
  exact run_advance_store hlt h.ordinary.small.restore hm.manifest

theorem matches_appendDelta (h : Mirrored H C s tx) (delta : A2aMapperDelta R)
    (hnext : delta.validate H = .ok () → ∀ token, s.admitDelta H delta = .ok (some token) →
      token.sequence ≤ i64Max) :
    Matches (Mirrors C) ((InMemoryA2aMapperJournalStore.appendDelta H delta).run s)
      ((SqliteA2aMapperJournalStore.appendDelta H C delta).run tx) := by
  obtain ⟨base, ds, hjournal⟩ := h.journaled
  refine Matches.check_bind h.mirrors fun _ hvalid => ?_
  rw [run_read_bind, id_eq, run_transaction_read, id_eq, h.mirrors.load h.ordinary.readable,
    run_transaction_check_ok, h.admitDelta delta (hnext hvalid)]
  cases hadmitted : s.admitDelta H delta with
  | error e => exact .error h.mirrors
  | ok found =>
    rw [run_check_bind_ok, run_transaction_check_ok]
    cases found with
    | none => exact .ok h.mirrors
    | some token =>
      have hlt : s.manifest.generation < u64Max :=
        Nat.lt_of_le_of_lt h.ordinary.small.generation (by decide)
      obtain ⟨hfresh, hfollows⟩ := hjournal.admitDelta_some hvalid hadmitted
      have hfree : s.deltas[token.sequence]? = none := by
        rw [hfollows.sequence, hjournal.next_free]
      obtain ⟨tx', hrun, hmirrors⟩ := run_writeDelta h hlt (hnext hvalid token hadmitted) hfree
        ((hjournal.known_iff _).mpr hfresh).1
      dsimp only
      rw [run_write hlt, run_commit hrun]
      exact .ok hmirrors

/-! ### Checkpoints -/

variable {request : A2aCheckpointInstallRequest} {head : A2aJournalToken}

theorem run_writeCheckpoint {checkpoint : A2aMapperCheckpoint} (h : Mirrored H C s tx)
    (hlt : s.manifest.generation < u64Max)
    (hnew : s.checkpoints[checkpoint.metadata.checkpointId]? = none) :
    ∃ tx', (SqliteA2aMapperJournalStore.writeCheckpoint H C ⟨s.manifest, s.nextRestoreId⟩ checkpoint
        head).run tx = .ok () tx' ∧ Mirrors C (s.installed H checkpoint head) tx' := by
  have hm := h.mirrors
  have hnew' : tx.checkpoints[checkpoint.metadata.checkpointId]? = none := by
    rw [h.checkpoint, hnew]
    rfl
  have hcheckpoints : tx.checkpoints.insert checkpoint.metadata.checkpointId
      (C.checkpoint.encode checkpoint) =
      (s.installed H checkpoint head).checkpoints.map fun _ => C.checkpoint.encode := by
    rw [hm.checkpoints]
    exact BTreeMap.map_insert.symm
  refine ⟨{ tx with
    manifest := some ⟨C.manifest.encode (s.installed H checkpoint head).manifest, s.nextRestoreId⟩
    checkpoints := tx.checkpoints.insert checkpoint.metadata.checkpointId
      (C.checkpoint.encode checkpoint) }, ?_, rfl, hm.deltas, hm.mutations, hm.compacted,
    hcheckpoints, hm.restorePins⟩
  unfold SqliteA2aMapperJournalStore.writeCheckpoint
  rw [run_read_bind, id_eq, insertRow_of_none hnew', run_check_bind_ok, run_modify_bind]
  exact run_advance_store hlt h.ordinary.small.restore hm.manifest

theorem matches_installCheckpoint (h : Mirrored H C s tx) (request : A2aCheckpointInstallRequest)
    (hsmall : request.checkpoint.metadata.highWater.sequence ≤ i64Max) :
    Matches (Mirrors C) ((InMemoryA2aMapperJournalStore.installCheckpoint H request).run s)
      ((SqliteA2aMapperJournalStore.installCheckpoint H C request).run tx) := by
  refine Matches.check_bind h.mirrors fun _ hvalid => ?_
  rw [run_read_bind, id_eq, run_transaction_read, id_eq, h.mirrors.load h.ordinary.readable,
    run_transaction_check_ok, h.admitCheckpoint request hsmall]
  cases hadmitted : s.admitCheckpoint H request with
  | error e => exact .error h.mirrors
  | ok found =>
    rw [run_check_bind_ok, run_transaction_check_ok]
    cases found with
    | none => exact .ok h.mirrors
    | some head =>
      have hlt : s.manifest.generation < u64Max :=
        Nat.lt_of_le_of_lt h.ordinary.small.generation (by decide)
      obtain ⟨tx', hrun, hmirrors⟩ := run_writeCheckpoint h hlt (admitCheckpoint_some hadmitted).2
      dsimp only
      rw [run_write hlt, run_commit hrun]
      exact .ok hmirrors

/-! ### Restores -/

theorem run_writePin (h : Mirrored H C s tx) (hjournal : ∃ base ds, Journaled H s base ds)
    (hnext : s.nextRestoreId + 1 ≤ i64Max) (start : A2aJournalToken) :
    ∃ tx', (SqliteA2aMapperJournalStore.writePin C ⟨s.manifest, s.nextRestoreId⟩
        (restoreName s.nextRestoreId) ⟨start, s.manifest.head⟩ (s.nextRestoreId + 1)).run tx =
        .ok () tx' ∧ Mirrors C (s.restoring start) tx' := by
  obtain ⟨base, ds, hjournal⟩ := hjournal
  have hm := h.mirrors
  have hnew : s.restorePins[restoreName s.nextRestoreId]? = none := by
    refine Option.eq_none_iff_forall_ne_some.mpr fun pin hpin => ?_
    obtain ⟨n, hn, hname⟩ := hjournal.named _ pin hpin
    have hsame := restoreName_injective hname
    omega
  have hnew' : tx.restorePins[restoreName s.nextRestoreId]? = none := by
    rw [hm.restorePins, BTreeMap.get_map, hnew]
    rfl
  have hpins : tx.restorePins.insert (restoreName s.nextRestoreId)
      (C.pin.encode ⟨start, s.manifest.head⟩) =
      (s.restoring start).restorePins.map fun _ => C.pin.encode := by
    rw [hm.restorePins]
    exact BTreeMap.map_insert.symm
  refine ⟨{ tx with
    manifest := some ⟨C.manifest.encode s.manifest, (s.nextRestoreId + 1 : Nat)⟩
    restorePins := tx.restorePins.insert (restoreName s.nextRestoreId)
      (C.pin.encode ⟨start, s.manifest.head⟩) }, ?_, rfl, hm.deltas, hm.mutations, hm.compacted,
    hm.checkpoints, hpins⟩
  unfold SqliteA2aMapperJournalStore.writePin
  rw [run_read_bind, id_eq, insertRow_of_none hnew', run_check_bind_ok, run_modify_bind]
  exact run_storeManifest (v := ⟨s.manifest, s.nextRestoreId + 1⟩) hnext hm.manifest

/-- A restore is begun. -/
theorem matches_beginRestore (h : Mirrored H C s tx)
    (hnext : ∀ point u, (InMemoryA2aMapperJournalStore.beginRestore H).run s = .ok point u →
      u.nextRestoreId ≤ i64Max) :
    Matches (Mirrors C) ((InMemoryA2aMapperJournalStore.beginRestore H).run s)
      ((SqliteA2aMapperJournalStore.beginRestore H C).run tx) := by
  obtain ⟨base, ds, hjournal⟩ := h.journaled
  obtain ⟨bytes, hbytes⟩ := hjournal.activeBytes_ok
  have hle : s.nextRestoreId + 1 ≤ u64Max :=
    Nat.le_trans (Nat.succ_le_succ h.ordinary.small.restore) (by decide)
  have hmemory := run_beginRestore hjournal hle hbytes
  have hadd : checkedAdd s.nextRestoreId 1 = some (s.nextRestoreId + 1) :=
    checkedAdd_eq_some.mpr ⟨rfl, hle⟩
  obtain ⟨tx', hrun, hmirrors⟩ := run_writePin h h.journaled (hnext _ _ hmemory) (restoreStart H bytes)
  rw [hmemory]
  unfold SqliteA2aMapperJournalStore.beginRestore
  rw [run_transaction_read, id_eq, h.mirrors.load h.ordinary.readable, run_transaction_check_ok,
    h.validateHead, hjournal.validateHead, run_transaction_check_ok, h.activeBytes, hbytes,
    run_transaction_check_ok, hadd, okOr_some, run_transaction_check_ok]
  rw [show toString "a2a-restore-" ++ toString s.nextRestoreId = restoreName s.nextRestoreId from rfl]
  dsimp only
  rw [run_commit hrun]
  exact .ok hmirrors

theorem matches_readDeltaPage (h : Mirrored H C s tx) (request : A2aJournalPageRequest) :
    Matches (Mirrors C) ((InMemoryA2aMapperJournalStore.readDeltaPage H request).run s)
      ((SqliteA2aMapperJournalStore.readDeltaPage H C request).run tx) := by
  unfold InMemoryA2aMapperJournalStore.readDeltaPage SqliteA2aMapperJournalStore.readDeltaPage
  rw [run_read_bind, id_eq]
  cases hvalid : request.validate with
  | error e =>
    have hread : s.readDeltaPage H request = .error e := by
      unfold readDeltaPage
      rw [hvalid]
      rfl
    rw [hread]
    exact .error h.mirrors
  | ok _ =>
    rw [run_check_bind_ok, run_transaction_read, id_eq, h.mirrors.load h.ordinary.readable,
      run_transaction_check_ok, h.readDeltaPage request hvalid]
    cases s.readDeltaPage H request with
    | error e => exact .error h.mirrors
    | ok page => exact .ok h.mirrors

theorem matches_finishRestore (h : Mirrored H C s tx) (restoreId : String) :
    Matches (Mirrors C) ((InMemoryA2aMapperJournalStore.finishRestore restoreId).run s)
      ((SqliteA2aMapperJournalStore.finishRestore C restoreId).run tx) := by
  have hm := h.mirrors
  have hr := h.ordinary.readable
  refine Matches.check_bind hm fun _ _ => ?_
  let free : InMemoryJournalState R := { s with restorePins := s.restorePins.erase restoreId }
  let freed : JournalTables := { tx with restorePins := tx.restorePins.erase restoreId }
  have hpins : freed.restorePins = free.restorePins.map fun _ => C.pin.encode := by
    show tx.restorePins.erase restoreId = (s.restorePins.erase restoreId).map fun _ => C.pin.encode
    rw [BTreeMap.map_erase, hm.restorePins]
  have hfree : Mirrors C free freed :=
    ⟨hm.manifest, hm.deltas, hm.mutations, hm.compacted, hm.checkpoints, hpins⟩
  have hread : Readable C free := by
    refine ⟨hr.manifest, hr.delta, hr.mutation, hr.tombstone, hr.checkpoint, fun id pin hpin => ?_⟩
    have hget : (s.restorePins.erase restoreId)[id]? = some pin := hpin
    rw [BTreeMap.get_erase] at hget
    split at hget
    · cases hget
    · exact hr.pin id pin hget
  obtain ⟨rows, hprune, hrows⟩ := run_prune hfree.deltas (hfree.loadRestorePins hread)
    h.ordinary.small.retained
  have hrun : (transaction (do
      modify fun tx => { tx with restorePins := tx.restorePins.erase restoreId }
      let tx ← read id
      let view ← check (tx.load C)
      let _ ← SqliteA2aMapperJournalStore.removeUnpinnedCompactedPayloads C view.manifest
      pure (.commit ())) : SqliteMethod Unit).run tx = .ok () { freed with deltas := rows } := by
    refine run_transaction_of_commit ?_
    rw [run_modify_bind, run_read_bind, id_eq]
    show (check (freed.load C) >>= _ : SqliteMethod (Ended Unit)).run freed = _
    rw [hfree.load hread, run_check_bind_ok, run_bind_ok hprune]
    rfl
  rw [hrun]
  exact .ok ⟨hm.manifest, hrows, hm.mutations, hm.compacted, hm.checkpoints, hpins⟩

/-! ### Collections -/

/-- The entries that a checkpoint covers. -/
def coveredEntries (s : InMemoryJournalState R) (sequence : Nat) : List (Nat × A2aMapperDelta R) :=
  s.deltas.toList.filter (·.1 ≤ sequence)

theorem keys_coveredEntries (s : InMemoryJournalState R) (sequence : Nat) :
    s.deltas.keys.filter (· ≤ sequence) = (coveredEntries s sequence).map (·.1) := by
  rw [← Std.ExtTreeMap.map_fst_toList_eq_keys, List.filter_map]
  rfl

theorem Mirrors.covered (hm : Mirrors C s tx) {sequence : Nat} (hsmall : sequence ≤ i64Max) :
    tx.covered sequence = .ok ((coveredEntries s sequence).map fun entry =>
      C.delta.encode entry.2) := by
  have hrows : tx.deltas.toList.filter (·.1 ≤ (sequence : Int)) =
      (coveredEntries s sequence).map fun entry => ((entry.1 : Int), C.delta.encode entry.2) := by
    rw [hm.deltas.toList, List.filter_map]
    congr 1
    refine List.filter_congr fun entry _ => ?_
    simp
  have hkeys : ((coveredEntries s sequence).map fun entry =>
      ((entry.1 : Int), C.delta.encode entry.2)).map (·.1) =
      ((coveredEntries s sequence).map (·.1)).map Int.ofNat := by
    rw [List.map_map, List.map_map]
    rfl
  unfold JournalTables.covered
  rw [sqlFromU64_of_le hsmall, ok_bind]
  dsimp only
  rw [hrows, hkeys, sequences_cast, ok_bind, List.map_map]
  rfl

/-- **The loop of a collection** makes the same tombstones. -/
theorem run_compact_rows (entries : List (Nat × A2aMapperDelta R)) {t : InMemoryJournalState R}
    (hentries : ∀ entry ∈ entries, s.deltas[entry.1]? = some entry.2 ∧ C.delta.Reads entry.2)
    (hcompacted : tx.compacted = s.compactedMutations.map fun _ => C.tombstone.encode)
    (hmutations : tx.mutations = s.mutationIdentities.map fun _ => C.mutation)
    (hrun : (each InMemoryA2aMapperJournalStore.compact (entries.map (·.1))).run s = .ok ⟨⟩ t) :
    (SqliteA2aMapperJournalStore.compact C (entries.map fun entry => C.delta.encode entry.2)
        s.compactedMutations).run tx = .ok t.compactedMutations
      { tx with
        compacted := t.compactedMutations.map fun _ => C.tombstone.encode
        mutations := t.mutationIdentities.map fun _ => C.mutation } := by
  induction entries generalizing s tx with
  | nil =>
    cases hrun
    rw [← hcompacted, ← hmutations]
    rfl
  | cons entry entries ih =>
    obtain ⟨hget, hreads⟩ := hentries entry List.mem_cons_self
    obtain ⟨_, s₁, hfirst, hrest⟩ := run_bind_eq_ok.mp hrun
    unfold InMemoryA2aMapperJournalStore.compact at hfirst
    rw [run_read_bind, id_eq, hget, okOr_some, run_check_bind_ok] at hfirst
    obtain ⟨tombstone, hmake, hfirst⟩ := run_check_bind_eq_ok.mp hfirst
    cases hfirst
    rw [List.map_cons, SqliteA2aMapperJournalStore.compact, decodeJournalJson_reads hreads,
      run_check_bind_ok, hmake, run_check_bind_ok, run_modify_bind]
    have hcompacted' : tx.compacted.insert tombstone.mutationId (C.tombstone.encode tombstone) =
        (s.compactedMutations.insert tombstone.mutationId tombstone).map
          fun _ => C.tombstone.encode := by
      rw [hcompacted]
      exact BTreeMap.map_insert.symm
    have hmutations' : tx.mutations.erase entry.2.mutationId =
        (s.mutationIdentities.erase entry.2.mutationId).map fun _ => C.mutation := by
      rw [hmutations]
      exact BTreeMap.map_erase.symm
    exact ih (s := { s with
        compactedMutations := s.compactedMutations.insert tombstone.mutationId tombstone
        mutationIdentities := s.mutationIdentities.erase entry.2.mutationId })
      (fun e he => hentries e (List.mem_cons_of_mem _ he)) hcompacted' hmutations' hrest

variable {active : A2aMapperCheckpointMetadata}
  {tombstones : BTreeMap A2aCompactedMutationTombstone}
  {identities : BTreeMap (StoredMutationIdentity R)}

/-- The writes of a collection, once the tombstones are made. -/
theorem run_collect (h : Mirrored H C s tx)
    (hrun : (each InMemoryA2aMapperJournalStore.compact (covered s active)).run s = .ok ⟨⟩
      { s with compactedMutations := tombstones, mutationIdentities := identities })
    (hlt : s.manifest.generation < u64Max) (hhigh : active.highWater.sequence ≤ i64Max)
    {u : InMemoryJournalState R}
    (hu : u = InMemoryA2aMapperJournalStore.collected H
      { s with compactedMutations := tombstones, mutationIdentities := identities }
      active.highWater.sequence)
    (hretained : u.manifest.retainedFromSequence ≤ i64Max) :
    ∃ tx', (SqliteA2aMapperJournalStore.collect H C ⟨s.manifest, s.nextRestoreId⟩ active).run tx =
        .ok u.removable.length tx' ∧
      Mirrors C { u.removeUnpinnedCompactedPayloads with manifest := u.manifest.advanced H } tx' := by
  have hm := h.mirrors
  have hr := h.ordinary.readable
  unfold covered at hrun
  rw [keys_coveredEntries] at hrun
  have hentries : ∀ entry ∈ coveredEntries s active.highWater.sequence,
      s.deltas[entry.1]? = some entry.2 ∧ C.delta.Reads entry.2 := by
    intro entry hin
    have hget := NumberMap.mem_toList.mp (List.mem_of_mem_filter hin)
    exact ⟨hget, hr.delta _ _ hget⟩
  have hcompact := run_compact_rows _ hentries hm.compacted hm.mutations hrun
  let written : JournalTables :=
    { tx with
      compacted := tombstones.map fun _ => C.tombstone.encode
      mutations := identities.map fun _ => C.mutation }
  have hkeeps : IntTable.Keeps C.delta.encode u.deltas written.deltas := by
    rw [hu]
    exact hm.deltas
  have hload : written.loadRestorePins C = .ok u.restorePins := by
    rw [hu]
    exact hm.loadRestorePins hr
  obtain ⟨rows, hprune, hrows⟩ := run_prune hkeeps hload hretained
  have hstore : (SqliteA2aMapperJournalStore.storeManifest C
      ⟨u.manifest.advanced H, s.nextRestoreId⟩).run { written with deltas := rows } = _ :=
    run_storeManifest h.ordinary.small.restore hm.manifest
  have hgeneration : u.manifest.generation < u64Max := by
    rw [hu]
    exact hlt
  refine ⟨{ written with
    manifest := some ⟨C.manifest.encode (u.manifest.advanced H), s.nextRestoreId⟩
    deltas := rows }, ?_, ?_⟩
  · unfold SqliteA2aMapperJournalStore.collect
    rw [run_read_bind, id_eq, hm.covered hhigh, run_check_bind_ok, hm.compactedMutations hr,
      run_check_bind_ok, run_bind_ok hcompact]
    subst hu
    refine (run_bind_ok hprune).trans ?_
    dsimp only
    exact (congrArg (fun advanced => (check advanced >>= _ : SqliteMethod Nat).run _)
      (advanceGeneration_of_lt hgeneration)).trans (run_bind_ok hstore)
  · subst hu
    exact ⟨rfl, hrows, rfl, rfl, hm.checkpoints, hm.restorePins⟩

theorem matches_garbageCollect (h : Mirrored H C s tx) (request : A2aJournalGcRequest)
    (hnext : ∀ removed u,
      (InMemoryA2aMapperJournalStore.garbageCollect H request).run s = .ok (.collected removed) u →
      u.manifest.retainedFromSequence ≤ i64Max) :
    Matches (Mirrors C) ((InMemoryA2aMapperJournalStore.garbageCollect H request).run s)
      ((SqliteA2aMapperJournalStore.garbageCollect H C request).run tx) := by
  obtain ⟨base, ds, hjournal⟩ := h.journaled
  have hlt : s.manifest.generation < u64Max :=
    Nat.lt_of_le_of_lt h.ordinary.small.generation (by decide)
  unfold SqliteA2aMapperJournalStore.garbageCollect
  rw [run_transaction_read, id_eq, h.mirrors.load h.ordinary.readable, run_transaction_check_ok,
    h.admitCollection request]
  have hmemory := hnext
  unfold InMemoryA2aMapperJournalStore.garbageCollect at hmemory ⊢
  rw [run_read_bind, id_eq] at hmemory ⊢
  cases hadmitted : s.admitCollection H request with
  | error e => exact .error h.mirrors
  | ok found =>
    rw [hadmitted, run_check_bind_ok] at hmemory
    rw [run_check_bind_ok, run_transaction_check_ok]
    cases found with
    | none => exact .ok h.mirrors
    | some active =>
      have hactive := admitCollection_some hadmitted
      have hle := (hjournal.active active hactive).reached.le
      have hlength := hjournal.length_eq
      have hhead := h.ordinary.small.head
      obtain ⟨tombstones, identities, hcompact, -⟩ := hjournal.collect hactive hlt
      have hdone := run_collected (H := H) active.highWater.sequence
        (s := { s with compactedMutations := tombstones, mutationIdentities := identities }) hlt
      have hretained := hmemory _ _ ((run_bind_ok hcompact).trans hdone)
      obtain ⟨tx', hrun, hmirrors⟩ := run_collect h hcompact hlt (by omega) rfl hretained
      have hcommit := run_transaction_of_commit (run_bind_ok
        (f := fun removed => (pure (.commit (.collected removed)) :
          SqliteMethod (Ended A2aJournalGcOutcome))) hrun)
      dsimp only
      rw [run_bind_ok hcompact, hdone, hcommit]
      exact .ok hmirrors

/-! ### Every call -/

theorem matches_manifest (h : Mirrored H C s tx) :
    Matches (Mirrors C) ((InMemoryA2aMapperJournalStore.manifest H).run s)
      ((SqliteA2aMapperJournalStore.manifest H C).run tx) := by
  obtain ⟨base, ds, hjournal⟩ := h.journaled
  unfold InMemoryA2aMapperJournalStore.manifest SqliteA2aMapperJournalStore.manifest
  rw [run_read_bind, id_eq, run_transaction_read, id_eq, h.mirrors.load h.ordinary.readable,
    run_transaction_check_ok, h.validateHead, hjournal.validateHead]
  exact .ok h.mirrors

theorem matches_lookupHead (h : Mirrored H C s tx) :
    Matches (Mirrors C) ((InMemoryA2aMapperJournalStore.lookupHead H).run s)
      ((SqliteA2aMapperJournalStore.lookupHead H C).run tx) := by
  obtain ⟨base, ds, hjournal⟩ := h.journaled
  unfold InMemoryA2aMapperJournalStore.lookupHead SqliteA2aMapperJournalStore.lookupHead
  rw [run_read_bind, id_eq, run_transaction_read, id_eq, h.mirrors.load h.ordinary.readable,
    run_transaction_check_ok, h.validateHead, hjournal.validateHead]
  exact .ok h.mirrors

theorem after_map {σ ε α β : Type} (m : Method σ ε α) (g : α → β) (s : σ) :
    after ((g <$> m).run s) = after (m.run s) := by
  rw [run_map]
  cases m.run s <;> rfl

/-- **One call.** -/
theorem matches_call (h : Mirrored H C s tx) {call : JournalCall R} (hsmall : call.Small)
    (hnext : Small (after ((memoryMethod H call).run s))) :
    Matches (Mirrors C) ((memoryMethod H call).run s) ((sqliteMethod H C call).run tx) := by
  cases call with
  | manifest => exact (matches_manifest h).map _
  | lookupHead => exact (matches_lookupHead h).map _
  | appendDelta delta =>
    refine (matches_appendDelta h delta fun hvalid token hadmitted => ?_).map _
    have hlt : s.manifest.generation < u64Max :=
      Nat.lt_of_le_of_lt h.ordinary.small.generation (by decide)
    rw [memoryMethod, after_map, run_appendDelta hvalid hadmitted hlt] at hnext
    exact hnext.head
  | installCheckpoint request => exact (matches_installCheckpoint h request hsmall).map _
  | beginRestore =>
    refine (matches_beginRestore h fun point u hrun => ?_).map _
    rw [memoryMethod, after_map, hrun] at hnext
    exact hnext.restore
  | readDeltaPage request => exact (matches_readDeltaPage h request).map _
  | finishRestore restoreId => exact (matches_finishRestore h restoreId).map _
  | garbageCollect request =>
    refine (matches_garbageCollect h request fun removed u hrun => ?_).map _
    rw [memoryMethod, after_map, hrun] at hnext
    exact hnext.retained

/-- A call keeps the journal, as long as there is a next generation. -/
theorem Journaled.after_call {base : A2aJournalToken} {ds : List (A2aMapperDelta R)}
    (h : Journaled H s base ds) (hsmall : Small s) (call : JournalCall R) :
    ∃ base ds, Journaled H (after ((memoryMethod H call).run s)) base ds := by
  have hlt : s.manifest.generation < u64Max :=
    Nat.lt_of_le_of_lt hsmall.generation (by decide)
  have hcalls : Calls H s ⟨call, answer ((memoryMethod H call).run s)⟩
      (after ((memoryMethod H call).run s)) := by
    unfold Calls
    cases (memoryMethod H call).run s <;> rfl
  obtain ⟨base', hnext, -⟩ := (hcalls.does h fun _ => hlt).journaled h
  exact ⟨base', _, hnext⟩

theorem mirrors_new : Mirrors C (.new H) (.new H C) where
  manifest := rfl
  deltas := IntTable.keeps_empty
  mutations := BTreeMap.map_empty.symm
  compacted := BTreeMap.map_empty.symm
  checkpoints := BTreeMap.map_empty.symm
  restorePins := BTreeMap.map_empty.symm

/-- **Both stores answer every list of calls alike.** -/
theorem answers_sqlite (calls : List (JournalCall R)) (hcalls : ∀ call ∈ calls, call.Small)
    (hordinary : ∀ pre, pre <+: calls → Ordinary C (afterCalls (memoryMethod H) (.new H) pre)) :
    answers (sqliteMethod H C) (.new H C) calls = answers (memoryMethod H) (.new H) calls := by
  have hnew : Mirrors C (.new H) (.new H C) ∧
      ∃ base ds, Journaled H (.new H : InMemoryJournalState R) base ds :=
    ⟨mirrors_new, _, _, journaled_new H⟩
  symm
  refine answers_eq (R := fun s tx => Mirrors C s tx ∧ ∃ base ds, Journaled H s base ds)
    (P := fun call s => call.Small ∧ Ordinary C s ∧
      Small (after ((memoryMethod H call).run s))) (fun s tx call hR hP => ?_) calls hnew ?_
  · obtain ⟨hmirrors, base, ds, hjournal⟩ := hR
    obtain ⟨hsmall, hstate, hnext⟩ := hP
    obtain ⟨hanswer, hafter⟩ :=
      matches_call ⟨hmirrors, hstate, base, ds, hjournal⟩ hsmall hnext
    exact ⟨hanswer, hafter, hjournal.after_call hstate.small call⟩
  · rintro pre call post rfl
    refine ⟨hcalls call (by simp), hordinary pre (List.prefix_append ..), ?_⟩
    have hlater := (hordinary (pre ++ [call]) ⟨post, by simp⟩).small
    unfold afterCalls at hlater ⊢
    rwa [List.foldl_append] at hlater

end

/-! ### One list of calls -/

/-- The JSON text of a token, as long as its hash is plain. -/
def tokenText (token : A2aJournalToken) : String :=
  s!"\x7b\"sequence\":{token.sequence},\"revision\":{token.revision},\"delta_hash\":\"" ++
    s!"{token.deltaHash}\"\x7d"

/-- The JSON text of the metadata of a checkpoint. -/
def metadataText (metadata : A2aMapperCheckpointMetadata) : String :=
  s!"\x7b\"checkpoint_id\":\"{metadata.checkpointId}\"," ++
    s!"\"high_water\":{tokenText metadata.highWater}," ++
    s!"\"mapper_schema_version\":{metadata.mapperSchemaVersion}," ++
    s!"\"state_hash\":\"{metadata.stateHash}\",\"state_bytes\":{metadata.stateBytes}\x7d"

/-- The JSON text of a manifest. -/
def manifestText (manifest : A2aJournalManifest) : String :=
  s!"\x7b\"format_version\":{manifest.formatVersion},\"generation\":{manifest.generation}," ++
    s!"\"head\":{tokenText manifest.head}," ++
    (match manifest.activeCheckpoint with
      | some active => s!"\"active_checkpoint\":{metadataText active},"
      | none => "") ++
    s!"\"retained_from_sequence\":{manifest.retainedFromSequence}," ++
    s!"\"compacted_mutation_count\":{manifest.compactedMutationCount}," ++
    s!"\"compacted_mutations_hash\":\"{manifest.compactedMutationsHash}\"," ++
    s!"\"manifest_hash\":\"{manifest.manifestHash}\"\x7d"

/-- The JSON text of a delta that sets the next sequence to zero. -/
def deltaText (delta : A2aMapperDelta plainRecords) : String :=
  s!"\x7b\"format_version\":{delta.formatVersion},\"mutation_id\":\"{delta.mutationId}\"," ++
    s!"\"expected_token\":{tokenText delta.expectedToken}," ++
    s!"\"from_revision\":{delta.fromRevision},\"to_revision\":{delta.toRevision}," ++
    s!"\"previous_hash\":\"{delta.previousHash}\"," ++
    "\"operations\":[\x7b\"kind\":\"set_next_sequence\",\"next_sequence\":0\x7d]," ++
    s!"\"delta_hash\":\"{delta.deltaHash}\"\x7d"

/-- The JSON text of a checkpoint whose state is the byte 1. -/
def checkpointText (checkpoint : A2aMapperCheckpoint) : String :=
  s!"\x7b\"format_version\":{checkpoint.formatVersion}," ++
    s!"\"metadata\":{metadataText checkpoint.metadata},\"state\":[1]\x7d"

/-- The JSON text of a pin. -/
def pinText (pin : RestorePin) : String :=
  s!"\x7b\"start\":{tokenText pin.start},\"through\":{tokenText pin.through}\x7d"

/-- Texts of which some read back. -/
def knownText {α : Type} (encode : α → String) (known : List α) : JsonText α where
  encode := encode
  decode text := ((known.find? fun a => encode a = text).map Except.ok).getD (.error "unknown text")

/-- A checkpoint of the first delta. -/
def firstCheckpoint : A2aMapperCheckpoint where
  formatVersion := 1
  metadata := ⟨digest 11, countToken 1, 1, digest 1, 1⟩
  state := [1]

/-- The manifest that the checkpoint leaves. -/
def checkpointedManifest : A2aJournalManifest :=
  A2aJournalManifest.advanced countingHost
    { countManifest 1 with activeCheckpoint := some firstCheckpoint.metadata }

/-- The texts of a journal with one delta, a checkpoint of it, and a restore. -/
def firstTexts : JournalTexts plainRecords where
  manifest := knownText manifestText [countManifest 0, countManifest 1, checkpointedManifest]
  delta := knownText deltaText [countDelta 0]
  token := knownText tokenText [countToken 1]
  tombstone := knownText (fun _ => "") []
  checkpoint := knownText checkpointText [firstCheckpoint]
  pin := knownText pinText [⟨countToken 0, countToken 1⟩]

theorem knownText_reads {α : Type} {encode : α → String} {known : List α} {a : α} (hmem : a ∈ known)
    (hone : ∀ b ∈ known, encode b = encode a → b = a) : (knownText encode known).Reads a := by
  unfold JsonText.Reads knownText
  dsimp only
  cases hfind : known.find? fun b => encode b = encode a with
  | none =>
    have hnot := List.find?_eq_none.mp hfind a hmem
    rw [decide_eq_true rfl] at hnot
    exact absurd rfl hnot
  | some b =>
    have heq : encode b = encode a := of_decide_eq_true (by simpa using List.find?_some hfind)
    rw [hone b (List.mem_of_find?_eq_some hfind) heq]
    rfl

theorem knownText_reads_one {α : Type} (encode : α → String) (a : α) :
    (knownText encode [a]).Reads a :=
  knownText_reads (List.mem_singleton.mpr rfl) fun _ hin _ => List.mem_singleton.mp hin

/-- Manifests whose generations begin with different digits have different texts. -/
theorem manifestText_ne {m m' : A2aJournalManifest} {c d : Char} {cs ds : List Char}
    (hversion : m.formatVersion = m'.formatVersion) (hm : (toString m.generation).toList = c :: cs)
    (hm' : (toString m'.generation).toList = d :: ds) (hne : c ≠ d) :
    manifestText m ≠ manifestText m' := by
  intro h
  have hchars := congrArg String.toList h
  unfold manifestText at hchars
  rw [hversion] at hchars
  simp only [String.toList_append, List.append_assoc] at hchars
  have hdigits := List.append_cancel_left (List.append_cancel_left (List.append_cancel_left hchars))
  rw [hm, hm', List.cons_append, List.cons_append] at hdigits
  exact hne (List.cons.inj hdigits).1

theorem firstManifest_reads {m : A2aJournalManifest}
    (h : m ∈ [countManifest 0, countManifest 1, checkpointedManifest]) :
    firstTexts.manifest.Reads m := by
  have hzero : (toString (countManifest 0).generation).toList = ['0'] := by decide
  have hone : (toString (countManifest 1).generation).toList = ['1'] := by decide
  have htwo : (toString checkpointedManifest.generation).toList = ['2'] := by decide
  refine knownText_reads h fun m' h' heq => ?_
  simp only [List.mem_cons, List.not_mem_nil, or_false] at h h'
  rcases h with rfl | rfl | rfl <;> rcases h' with rfl | rfl | rfl
  · rfl
  · exact absurd heq (manifestText_ne rfl hone hzero (by decide))
  · exact absurd heq (manifestText_ne rfl htwo hzero (by decide))
  · exact absurd heq (manifestText_ne rfl hzero hone (by decide))
  · rfl
  · exact absurd heq (manifestText_ne rfl htwo hone (by decide))
  · exact absurd heq (manifestText_ne rfl hzero htwo (by decide))
  · exact absurd heq (manifestText_ne rfl hone htwo (by decide))
  · rfl

/-- A state with these records. -/
structure First (s : InMemoryJournalState plainRecords) : Prop where
  manifest : s.manifest ∈ [countManifest 0, countManifest 1, checkpointedManifest]
  delta : ∀ (k : Nat) delta, s.deltas[k]? = some delta → delta = countDelta 0
  mutation : ∀ (id : String) stored, s.mutationIdentities[id]? = some stored →
    stored = ⟨countDelta 0, countToken 1⟩
  compacted : s.compactedMutations = ∅
  checkpoint : ∀ (id : String) stored, s.checkpoints[id]? = some stored → stored = firstCheckpoint
  pin : ∀ (id : String) stored, s.restorePins[id]? = some stored →
    stored = ⟨countToken 0, countToken 1⟩
  next : s.nextRestoreId ≤ 2

theorem First.ordinary {s : InMemoryJournalState plainRecords} (h : First s) :
    Ordinary firstTexts s := by
  refine ⟨⟨firstManifest_reads h.manifest, fun k delta hget => ?_, fun id stored hget => ?_,
    fun id stored hget => ?_, fun id stored hget => ?_, fun id stored hget => ?_⟩, ?_⟩
  · rw [h.delta k delta hget]
    exact knownText_reads_one ..
  · rw [h.mutation id stored hget]
    exact ⟨knownText_reads_one .., knownText_reads_one ..⟩
  · rw [h.compacted] at hget
    exact absurd hget (by simp)
  · rw [h.checkpoint id stored hget]
    exact knownText_reads_one ..
  · rw [h.pin id stored hget]
    exact knownText_reads_one ..
  · have hmanifest := h.manifest
    simp only [List.mem_cons, List.not_mem_nil, or_false] at hmanifest
    refine ⟨?_, ?_, ?_, Nat.le_trans h.next (by decide)⟩
    all_goals rcases hmanifest with heq | heq | heq <;> rw [heq] <;> decide

theorem first_new : First (.new countingHost) where
  manifest := List.mem_cons_self
  delta _ _ h := absurd h (by simp [new])
  mutation _ _ h := absurd h (by simp [new])
  compacted := rfl
  checkpoint _ _ h := absurd h (by simp [new])
  pin _ _ h := absurd h (by simp [new])
  next := by decide

/-- The store with the first delta. -/
def oneDelta : InMemoryJournalState plainRecords :=
  (new countingHost).appended countingHost (countDelta 0) (countToken 1)

/-- The store with a restore of it. -/
def oneRestore : InMemoryJournalState plainRecords := oneDelta.restoring (countToken 0)

/-- The store with a checkpoint of it. -/
def oneCheckpoint : InMemoryJournalState plainRecords :=
  oneRestore.installed countingHost firstCheckpoint (countToken 1)

theorem first_oneDelta : First oneDelta where
  manifest := by decide
  delta k _ h := by
    rw [oneDelta, appended, NumberMap.get_insert] at h
    split at h
    · exact (Option.some.inj h).symm
    · exact first_new.delta k _ h
  mutation id _ h := by
    rcases BTreeMap.get_insert_eq_some h with ⟨-, rfl⟩ | ⟨-, hold⟩
    · rfl
    · exact first_new.mutation id _ hold
  compacted := rfl
  checkpoint := first_new.checkpoint
  pin := first_new.pin
  next := by decide

theorem first_oneRestore : First oneRestore where
  manifest := first_oneDelta.manifest
  delta := first_oneDelta.delta
  mutation := first_oneDelta.mutation
  compacted := rfl
  checkpoint := first_oneDelta.checkpoint
  pin id _ h := by
    rcases BTreeMap.get_insert_eq_some h with ⟨-, rfl⟩ | ⟨-, hold⟩
    · rfl
    · exact first_oneDelta.pin id _ hold
  next := Nat.le_refl 2

theorem first_oneCheckpoint : First oneCheckpoint where
  manifest := by decide
  delta := first_oneRestore.delta
  mutation := first_oneRestore.mutation
  compacted := rfl
  checkpoint id _ h := by
    rcases BTreeMap.get_insert_eq_some h with ⟨-, rfl⟩ | ⟨-, hold⟩
    · rfl
    · exact first_oneRestore.checkpoint id _ hold
  pin := first_oneRestore.pin
  next := Nat.le_refl 2

/-- The calls: a delta, a restore and a page of it, a checkpoint, and the head. -/
def firstCalls : List (JournalCall plainRecords) :=
  [.appendDelta (countDelta 0), .beginRestore,
    .readDeltaPage ⟨restoreName 1, countToken 0, 1, a2aMapperJournalMinPageBytes⟩,
    .installCheckpoint ⟨none, firstCheckpoint⟩, .lookupHead]

theorem firstCheckpoint_validate : firstCheckpoint.validate countingHost = .ok () := by
  have hid : validateId "checkpoint id" firstCheckpoint.metadata.checkpointId = .ok () :=
    validateId_digest _ _
  have hintegrity : firstCheckpoint.validateIntegrity countingHost = .ok () := by
    unfold A2aMapperCheckpoint.validateIntegrity
    refine bind_eq_ok.mpr ⟨(), refuseIf_of_not (not_not.mpr rfl), bind_eq_ok.mpr ⟨(), hid, ?_⟩⟩
    refine bind_eq_ok.mpr ⟨(), countToken_validate _, bind_eq_ok.mpr ⟨(), ?_, ?_⟩⟩
    · exact refuseIf_of_not (by decide : ¬ ((1 : Nat) = 0 ∨ ([1] : List UInt8) = [] ∨
        32 * 1024 * 1024 < 1 ∨ 1 ≠ 1))
    · refine bind_eq_ok.mpr ⟨(), refuseIf_of_not (not_not.mpr rfl), ?_⟩
      exact refuseIf_of_not (not_not.mpr rfl)
  unfold A2aMapperCheckpoint.validate
  rw [hintegrity, ok_bind]
  unfold A2aMapperCheckpoint.decodeMapper
  rw [hintegrity, ok_bind]
  exact bind_eq_ok.mpr ⟨⟨1, 1⟩, rfl, refuseIf_of_not (by rintro (h | h) <;> exact h rfl)⟩

theorem admitCheckpoint_first {base : A2aJournalToken} {ds : List (A2aMapperDelta plainRecords)}
    (h : Journaled countingHost oneRestore base ds) :
    oneRestore.admitCheckpoint countingHost ⟨none, firstCheckpoint⟩ = .ok (some (countToken 1)) := by
  unfold admitCheckpoint
  rw [h.validateHead, ok_bind]
  rfl

theorem after_firstDelta :
    after ((memoryMethod countingHost (.appendDelta (countDelta 0))).run (.new countingHost)) =
      oneDelta := by
  have hrun := run_append_count (s := .new countingHost) (journaled_new countingHost) rfl (by decide)
  rw [memoryMethod, after_map, hrun]
  rfl

theorem after_firstRestore :
    after ((memoryMethod countingHost .beginRestore).run oneDelta) = oneRestore := by
  obtain ⟨base, ds, hjournal⟩ := (journaled_new countingHost).after_call first_new.ordinary.small
    (.appendDelta (countDelta 0))
  rw [after_firstDelta] at hjournal
  rw [memoryMethod, after_map, run_beginRestore hjournal (by decide) rfl]
  rfl

theorem after_firstCheckpoint :
    after ((memoryMethod countingHost (.installCheckpoint ⟨none, firstCheckpoint⟩)).run oneRestore) =
      oneCheckpoint := by
  obtain ⟨base, ds, hjournal⟩ := (journaled_new countingHost).after_call first_new.ordinary.small
    (.appendDelta (countDelta 0))
  rw [after_firstDelta] at hjournal
  obtain ⟨base', ds', hjournal'⟩ := hjournal.after_call first_oneDelta.ordinary.small .beginRestore
  rw [after_firstRestore] at hjournal'
  rw [memoryMethod, after_map, run_installCheckpoint firstCheckpoint_validate
    (admitCheckpoint_first hjournal') (by decide)]
  rfl

theorem after_read {α : Type} (f : InMemoryJournalState plainRecords → A2aJournalResult α)
    (s : InMemoryJournalState plainRecords) :
    after ((do let s ← read id; check (f s) : JournalMethod plainRecords α).run s) = s := by
  rw [run_read_bind, id_eq]
  cases f s <;> rfl

/-- What the calls leave, one after another. -/
theorem firstCalls_states {pre : List (JournalCall plainRecords)} (hpre : pre <+: firstCalls) :
    First (afterCalls (memoryMethod countingHost) (.new countingHost) pre) := by
  have hpage : after ((memoryMethod countingHost
      (.readDeltaPage ⟨restoreName 1, countToken 0, 1, a2aMapperJournalMinPageBytes⟩)).run oneRestore) =
      oneRestore := by
    rw [memoryMethod, after_map]
    exact after_read ..
  have hhead : after ((memoryMethod countingHost .lookupHead).run oneCheckpoint) = oneCheckpoint := by
    rw [memoryMethod, after_map]
    unfold InMemoryA2aMapperJournalStore.lookupHead
    rw [run_read_bind, id_eq]
    cases oneCheckpoint.validateHead countingHost <;> rfl
  unfold afterCalls
  rcases List.prefix_cons_iff.mp hpre with rfl | ⟨_, rfl, hpre₁⟩
  · exact first_new
  rw [List.foldl_cons, after_firstDelta]
  rcases List.prefix_cons_iff.mp hpre₁ with rfl | ⟨_, rfl, hpre₂⟩
  · exact first_oneDelta
  rw [List.foldl_cons, after_firstRestore]
  rcases List.prefix_cons_iff.mp hpre₂ with rfl | ⟨_, rfl, hpre₃⟩
  · exact first_oneRestore
  rw [List.foldl_cons, hpage]
  rcases List.prefix_cons_iff.mp hpre₃ with rfl | ⟨_, rfl, hpre₄⟩
  · exact first_oneRestore
  rw [List.foldl_cons, after_firstCheckpoint]
  rcases List.prefix_cons_iff.mp hpre₄ with rfl | ⟨_, rfl, hpre₅⟩
  · exact first_oneCheckpoint
  rw [List.prefix_nil.mp hpre₅, List.foldl_cons, hhead]
  exact first_oneCheckpoint

theorem answers_firstCalls :
    answers (sqliteMethod countingHost firstTexts) (.new countingHost firstTexts) firstCalls =
      answers (memoryMethod countingHost) (.new countingHost) firstCalls :=
  answers_sqlite firstCalls (by simp [firstCalls, JournalCall.Small, firstCheckpoint, countToken, i64Max])
    fun _ hpre => (firstCalls_states hpre).ordinary

end AikitRuntime.Journal
