import AikitRuntime.Journal.Effects
import AikitRuntime.Journal.SqliteStore

/-!
# Tables that mirror the in-memory store

Tables mirror a state of the in-memory store when they keep its records as texts. As long as the
texts can be read back and the counters fit into `i64` (`Ordinary`), everything that the SQLite
store finds out from its tables is what the in-memory store finds out from its state, errors too.
-/

namespace AikitRuntime.Journal

open Library Method
open InMemoryJournalState

/-- The text of a value reads back. -/
def JsonText.Reads {α : Type} (text : JsonText α) (a : α) : Prop :=
  text.decode (text.encode a) = .ok a

section
variable {R : MapperRecords}

/-- The texts of a mutation. -/
def JournalTexts.mutation (C : JournalTexts R) (stored : StoredMutationIdentity R) : MutationRow :=
  ⟨C.delta.encode stored.delta, C.token.encode stored.token⟩

/-- The tables keep the records of a state. -/
structure Mirrors (C : JournalTexts R) (s : InMemoryJournalState R) (tx : JournalTables) : Prop where
  manifest : tx.manifest = some ⟨C.manifest.encode s.manifest, s.nextRestoreId⟩
  deltas : IntTable.Keeps C.delta.encode s.deltas tx.deltas
  mutations : tx.mutations = s.mutationIdentities.map fun _ => C.mutation
  compacted : tx.compacted = s.compactedMutations.map fun _ => C.tombstone.encode
  checkpoints : tx.checkpoints = s.checkpoints.map fun _ => C.checkpoint.encode
  restorePins : tx.restorePins = s.restorePins.map fun _ => C.pin.encode

/-- The text of every stored value reads back. -/
structure Readable (C : JournalTexts R) (s : InMemoryJournalState R) : Prop where
  manifest : C.manifest.Reads s.manifest
  delta : ∀ (k : Nat) delta, s.deltas[k]? = some delta → C.delta.Reads delta
  mutation : ∀ (id : String) stored, s.mutationIdentities[id]? = some stored →
    C.delta.Reads stored.delta ∧ C.token.Reads stored.token
  tombstone : ∀ (id : String) stored, s.compactedMutations[id]? = some stored →
    C.tombstone.Reads stored
  checkpoint : ∀ (id : String) stored, s.checkpoints[id]? = some stored → C.checkpoint.Reads stored
  pin : ∀ (id : String) stored, s.restorePins[id]? = some stored → C.pin.Reads stored

/-- The counters of a store fit into `i64`. -/
structure Small (s : InMemoryJournalState R) : Prop where
  generation : s.manifest.generation ≤ i64Max
  head : s.manifest.head.sequence ≤ i64Max
  retained : s.manifest.retainedFromSequence ≤ i64Max
  restore : s.nextRestoreId ≤ i64Max

/-- What is assumed of every state that a store goes through. -/
structure Ordinary (C : JournalTexts R) (s : InMemoryJournalState R) : Prop where
  readable : Readable C s
  small : Small s

/-- The sequence that a call brings fits into `i64`. -/
def JournalCall.Small : JournalCall R → Prop
  | .installCheckpoint request => request.checkpoint.metadata.highWater.sequence ≤ i64Max
  | _ => True

/-- Two stores side by side. -/
structure Mirrored (H : JournalHost R) (C : JournalTexts R) (s : InMemoryJournalState R)
    (tx : JournalTables) : Prop where
  mirrors : Mirrors C s tx
  ordinary : Ordinary C s
  journaled : ∃ base ds, Journaled H s base ds

variable {H : JournalHost R} {C : JournalTexts R} {s : InMemoryJournalState R} {tx : JournalTables}

/-! ### Texts and counters -/

theorem decodeJournalJson_reads {α : Type} {text : JsonText α} {a : α} (h : text.Reads a)
    (label : String) : decodeJournalJson text label (text.encode a) = .ok a := by
  unfold decodeJournalJson
  rw [h]
  rfl

theorem sqlFromU64_of_le {n : Nat} (h : n ≤ i64Max) : sqlFromU64 n = .ok (n : Int) := by
  unfold sqlFromU64
  rw [refuseIf_of_not (Nat.not_lt.mpr h)]
  rfl

theorem sqlToU64_cast (n : Nat) : sqlToU64 (n : Int) = .ok n := by
  unfold sqlToU64
  rw [refuseIf_of_not (by omega)]
  rfl

theorem sequences_cast (ks : List Nat) : JournalTables.sequences (ks.map Int.ofNat) = .ok ks := by
  induction ks with
  | nil => rfl
  | cons k ks ih =>
    rw [List.map_cons, JournalTables.sequences]
    show sqlToU64 (k : Int) >>= _ = _
    rw [sqlToU64_cast, ok_bind, ih]
    rfl

theorem mapM_sqlFromU64 (ks : List Nat) (h : ∀ k ∈ ks, k ≤ i64Max) :
    ks.mapM sqlFromU64 = .ok (ks.map Int.ofNat) := by
  induction ks with
  | nil => rfl
  | cons k ks ih =>
    rw [List.mapM_cons, sqlFromU64_of_le (h k List.mem_cons_self),
      ih fun j hj => h j (List.mem_cons_of_mem _ hj)]
    rfl

/-! ### Rows -/

theorem decodeRows_of_reads {α : Type} {text : JsonText α} (label : String)
    (entries : List (String × α)) (values : BTreeMap α)
    (h : ∀ entry ∈ entries, text.Reads entry.2) :
    JournalTables.decodeRows text label (entries.map fun entry => (entry.1, text.encode entry.2))
      values = .ok (entries.foldl (fun values entry => values.insert entry.1 entry.2) values) := by
  induction entries generalizing values with
  | nil => rfl
  | cons entry entries ih =>
    rw [List.map_cons, JournalTables.decodeRows,
      decodeJournalJson_reads (h entry List.mem_cons_self), ok_bind]
    exact ih _ fun e he => h e (List.mem_cons_of_mem _ he)

/-- A table of texts reads back as the map that it keeps. -/
theorem decodeRows_map {α : Type} {text : JsonText α} (label : String) (m : BTreeMap α)
    (h : ∀ (id : String) a, m[id]? = some a → text.Reads a) :
    JournalTables.decodeRows text label (m.map fun _ => text.encode).toList ∅ = .ok m := by
  rw [Std.ExtTreeMap.toList_map, decodeRows_of_reads, BTreeMap.foldl_insert_toList]
  exact fun entry hentry => h entry.1 entry.2 (BTreeMap.mem_toList.mp hentry)

theorem Mirrors.compactedMutations (hm : Mirrors C s tx) (hr : Readable C s) :
    tx.compactedMutations C = .ok s.compactedMutations := by
  unfold JournalTables.compactedMutations
  rw [hm.compacted]
  exact decodeRows_map _ _ hr.tombstone

theorem Mirrors.loadRestorePins (hm : Mirrors C s tx) (hr : Readable C s) :
    tx.loadRestorePins C = .ok s.restorePins := by
  unfold JournalTables.loadRestorePins
  rw [hm.restorePins]
  exact decodeRows_map _ _ hr.pin

theorem Mirrors.load (hm : Mirrors C s tx) (hr : Readable C s) :
    tx.load C = .ok ⟨s.manifest, s.nextRestoreId⟩ := by
  unfold JournalTables.load
  rw [hm.manifest, okOr_some, ok_bind, decodeJournalJson_reads hr.manifest, ok_bind, sqlToU64_cast]
  rfl

theorem Mirrors.deltaAt (hm : Mirrors C s tx) (hr : Readable C s) {k : Nat} (hk : k ≤ i64Max) :
    tx.deltaAt C k = .ok s.deltas[k]? := by
  unfold JournalTables.deltaAt
  rw [sqlFromU64_of_le hk, ok_bind, hm.deltas.get]
  cases hget : s.deltas[k]? with
  | none => rfl
  | some delta =>
    rw [Option.map_some, JournalTables.decodeRow, decodeJournalJson_reads (hr.delta k delta hget)]
    rfl

/-! ### Reads -/

variable {base : A2aJournalToken} {ds : List (A2aMapperDelta R)}

/-- A stored delta has a token. -/
theorem Journaled.token_ok (h : Journaled H s base ds) {k : Nat} {delta : A2aMapperDelta R}
    (hk : s.deltas[k]? = some delta) : ∃ token, delta.token = .ok token := by
  obtain ⟨i, -, hi⟩ := h.stored k delta hk
  obtain ⟨token, htoken, -⟩ := h.chain.reached_token h.base_sequence hi
  exact ⟨token, htoken⟩

theorem Mirrored.tokenAt (h : Mirrored H C s tx) {k : Nat} (hk : k ≤ i64Max) :
    tx.tokenAt H C ⟨s.manifest, s.nextRestoreId⟩ k = .ok (s.tokenAt H k) := by
  obtain ⟨base, ds, hjournal⟩ := h.journaled
  unfold JournalTables.tokenAt InMemoryJournalState.tokenAt
  split
  · rfl
  · split
    · rfl
    · rw [h.mirrors.deltaAt h.ordinary.readable hk, ok_bind]
      cases hget : s.deltas[k]? with
      | none => rfl
      | some delta =>
        obtain ⟨token, htoken⟩ := hjournal.token_ok hget
        dsimp only
        rw [Option.bind_some, htoken]
        rfl

theorem Mirrored.validateHead (h : Mirrored H C s tx) :
    tx.validateHead H C ⟨s.manifest, s.nextRestoreId⟩ = s.validateHead H := by
  unfold JournalTables.validateHead InMemoryJournalState.validateHead
  rw [h.mirrors.compactedMutations h.ordinary.readable, ok_bind,
    h.mirrors.deltaAt h.ordinary.readable h.ordinary.small.head, ok_bind]

/-- **What an append finds.** -/
theorem Mirrored.admitDelta (h : Mirrored H C s tx) (delta : A2aMapperDelta R)
    (hnext : ∀ token, s.admitDelta H delta = .ok (some token) → token.sequence ≤ i64Max) :
    tx.admitDelta H C ⟨s.manifest, s.nextRestoreId⟩ delta = s.admitDelta H delta := by
  obtain ⟨base, ds, hjournal⟩ := h.journaled
  have hr := h.ordinary.readable
  have hrow : tx.mutations[delta.mutationId]? =
      s.mutationIdentities[delta.mutationId]?.map C.mutation := by
    rw [h.mirrors.mutations, BTreeMap.get_map]
  have hcompacted : tx.compacted[delta.mutationId]? =
      s.compactedMutations[delta.mutationId]?.map C.tombstone.encode := by
    rw [h.mirrors.compacted, BTreeMap.get_map]
  cases hidentity : s.mutationIdentities[delta.mutationId]? with
  | some existing =>
    obtain ⟨hdelta, htoken⟩ := hr.mutation _ existing hidentity
    unfold JournalTables.admitDelta InMemoryJournalState.admitDelta
    rw [h.validateHead, hrow, hidentity, Option.map_some]
    dsimp only [JournalTexts.mutation]
    rw [decodeJournalJson_reads hdelta, ok_bind, decodeJournalJson_reads htoken, ok_bind]
  | none =>
    cases htombstone : s.compactedMutations[delta.mutationId]? with
    | some existing =>
      unfold JournalTables.admitDelta InMemoryJournalState.admitDelta
      rw [h.validateHead, hrow, hidentity, Option.map_none, hcompacted, htombstone, Option.map_some]
      dsimp only
      rw [decodeJournalJson_reads (hr.tombstone _ existing htombstone), ok_bind]
    | none =>
      by_cases hexpected : delta.expectedToken = s.manifest.head
      · have hadmitted := hjournal.admitDelta_new
          ((hjournal.known_iff _).mp ⟨hidentity, htombstone⟩) hexpected
        rw [hadmitted]
        unfold JournalTables.admitDelta
        rw [h.validateHead, hjournal.validateHead, ok_bind, hrow, hidentity, Option.map_none,
          hcompacted, htombstone, Option.map_none]
        dsimp only
        rw [refuseIf_of_not (not_not.mpr hexpected), ok_bind]
        cases htoken : delta.token with
        | error e => rfl
        | ok token =>
          rw [htoken] at hadmitted
          have hsequence : token.sequence = s.manifest.head.sequence + 1 := by
            rw [(A2aMapperDelta.token_eq_ok htoken).1, hexpected]
          rw [ok_bind, h.mirrors.deltaAt hr (hnext token hadmitted), hsequence, hjournal.next_free]
          rfl
      · unfold JournalTables.admitDelta InMemoryJournalState.admitDelta
        rw [h.validateHead, hrow, hidentity, Option.map_none, hcompacted, htombstone,
          Option.map_none]
        dsimp only
        rw [refuseIf_eq_error.mpr ⟨hexpected, rfl⟩]
        rfl

theorem Mirrored.isBootstrap_iff (h : Mirrored H C s tx) {metadata : A2aMapperCheckpointMetadata} :
    tx.IsBootstrap H ⟨s.manifest, s.nextRestoreId⟩ metadata ↔ s.IsBootstrap H metadata := by
  have hsize : tx.deltas.size = s.deltas.size := by
    rw [← Std.ExtTreeMap.length_toList, h.mirrors.deltas.toList, List.length_map,
      Std.ExtTreeMap.length_toList]
  unfold JournalTables.IsBootstrap InMemoryJournalState.IsBootstrap
  rw [hsize, Std.ExtTreeMap.isEmpty_eq_size_beq_zero, beq_iff_eq]

theorem checkNewer_eq (manifest : A2aJournalManifest) (metadata : A2aMapperCheckpointMetadata) :
    JournalTables.checkNewer manifest metadata = InMemoryJournalState.checkNewer manifest metadata := by
  unfold JournalTables.checkNewer InMemoryJournalState.checkNewer
  cases manifest.activeCheckpoint with
  | none => rfl
  | some active =>
    dsimp only
    by_cases hle : metadata.highWater.sequence ≤ active.highWater.sequence
    · rw [refuseIf_eq_error.mpr ⟨hle, rfl⟩]
      by_cases hlt : metadata.highWater.sequence < active.highWater.sequence
      · rw [refuseIf_eq_error.mpr ⟨hlt, rfl⟩]
        rfl
      · rw [refuseIf_of_not hlt, ok_bind, refuseIf_eq_error.mpr ⟨by omega, rfl⟩]
    · rw [refuseIf_of_not hle, refuseIf_of_not (by omega), ok_bind, refuseIf_of_not (by omega)]

theorem Mirrored.headAfter (h : Mirrored H C s tx) {metadata : A2aMapperCheckpointMetadata}
    (hsmall : metadata.highWater.sequence ≤ i64Max) :
    tx.headAfter H C ⟨s.manifest, s.nextRestoreId⟩ metadata = s.headAfter H metadata := by
  unfold JournalTables.headAfter InMemoryJournalState.headAfter
  by_cases hbootstrap : s.IsBootstrap H metadata
  · rw [if_pos hbootstrap, if_pos (h.isBootstrap_iff.mpr hbootstrap)]
  · rw [if_neg hbootstrap, if_neg (mt h.isBootstrap_iff.mp hbootstrap), h.tokenAt hsmall, ok_bind,
      checkNewer_eq]

theorem Mirrored.checkpoint (h : Mirrored H C s tx) (id : String) :
    tx.checkpoints[id]? = s.checkpoints[id]?.map C.checkpoint.encode := by
  rw [h.mirrors.checkpoints, BTreeMap.get_map]

/-- **What an installation finds.** -/
theorem Mirrored.admitCheckpoint (h : Mirrored H C s tx) (request : A2aCheckpointInstallRequest)
    (hsmall : request.checkpoint.metadata.highWater.sequence ≤ i64Max) :
    tx.admitCheckpoint H C ⟨s.manifest, s.nextRestoreId⟩ request = s.admitCheckpoint H request := by
  have hr := h.ordinary.readable
  unfold JournalTables.admitCheckpoint InMemoryJournalState.admitCheckpoint
  dsimp only
  rw [h.validateHead, h.checkpoint, h.headAfter hsmall]
  cases hstored : s.checkpoints[request.checkpoint.metadata.checkpointId]? with
  | none => rfl
  | some stored =>
    rw [Option.map_some, okOr_some, okOr_some, ok_bind, ok_bind]
    dsimp only
    rw [decodeJournalJson_reads (hr.checkpoint _ stored hstored), ok_bind, ok_bind]

theorem Mirrored.activeBytes (h : Mirrored H C s tx) :
    tx.activeBytes H C ⟨s.manifest, s.nextRestoreId⟩ = s.activeBytes H := by
  unfold JournalTables.activeBytes InMemoryJournalState.activeBytes
  dsimp only
  cases s.manifest.activeCheckpoint with
  | none => rfl
  | some metadata =>
    dsimp only
    rw [h.checkpoint]
    cases hstored : s.checkpoints[metadata.checkpointId]? with
    | none => rfl
    | some stored =>
      rw [Option.map_some, okOr_some, okOr_some, ok_bind, ok_bind,
        decodeJournalJson_reads (h.ordinary.readable.checkpoint _ stored hstored), ok_bind]

theorem Mirrored.admitCollection (h : Mirrored H C s tx) (request : A2aJournalGcRequest) :
    tx.admitCollection H C ⟨s.manifest, s.nextRestoreId⟩ request = s.admitCollection H request := by
  unfold JournalTables.admitCollection InMemoryJournalState.admitCollection
  rw [h.validateHead]

/-! ### Pages -/

theorem Mirrored.collectPage (h : Mirrored H C s tx) (request : A2aJournalPageRequest)
    (count sequence : Nat) (progress : PageProgress R) (hsmall : sequence + count ≤ i64Max + 1) :
    tx.collectPage H C request count sequence progress =
      s.collectPage H request count sequence progress := by
  induction count generalizing sequence progress with
  | zero => rfl
  | succ count ih =>
    unfold JournalTables.collectPage InMemoryJournalState.collectPage
    rw [h.mirrors.deltaAt h.ordinary.readable (by omega), ok_bind]
    simp only [ih (sequence + 1) _ (by omega)]

/-- **What a page holds.** -/
theorem Mirrored.readDeltaPage (h : Mirrored H C s tx) (request : A2aJournalPageRequest)
    (hvalid : request.validate = .ok ()) :
    tx.readDeltaPage H C ⟨s.manifest, s.nextRestoreId⟩ request = s.readDeltaPage H request := by
  obtain ⟨base, ds, hjournal⟩ := h.journaled
  have hhead := h.ordinary.small.head
  unfold JournalTables.readDeltaPage InMemoryJournalState.readDeltaPage
  rw [hvalid, ok_bind, h.validateHead, h.mirrors.loadRestorePins h.ordinary.readable, ok_bind]
  cases hpin : s.restorePins[request.restoreId]? with
  | none => rfl
  | some pin =>
    have hthrough := (hjournal.pinned _ pin hpin).through_le
    have hlength := hjournal.length_eq
    rw [okOr_some, ok_bind, ok_bind]
    by_cases hrange : request.after.sequence < pin.start.sequence ∨
        pin.through.sequence < request.after.sequence
    · rw [refuseIf_eq_error.mpr ⟨hrange, rfl⟩]
      rfl
    · rw [refuseIf_of_not hrange, ok_bind, ok_bind]
      have hafter : request.after.sequence ≤ i64Max := by omega
      have hfirst : saturatingAdd request.after.sequence 1 = request.after.sequence + 1 := by
        have hmax : i64Max + 1 < u64Max := by decide
        unfold saturatingAdd
        omega
      have hknown : tx.knownAfter H C ⟨s.manifest, s.nextRestoreId⟩ pin request.after =
          s.knownAfter H pin request.after := by
        unfold JournalTables.knownAfter InMemoryJournalState.knownAfter
        rw [h.tokenAt hafter, ok_bind]
      have hahead : ¬ pin.through.sequence < request.after.sequence := by omega
      rw [hknown, refuseIf_of_not hahead]
      dsimp only
      rw [hfirst, h.collectPage _ _ _ _ (by omega)]
      rfl

/-! ### Removing payloads -/

theorem keys_keeps (hd : IntTable.Keeps C.delta.encode s.deltas tx.deltas) :
    tx.deltas.keys = s.deltas.keys.map Int.ofNat := by
  rw [← Std.ExtTreeMap.map_fst_toList_eq_keys, hd.toList, ← Std.ExtTreeMap.map_fst_toList_eq_keys,
    List.map_map, List.map_map]
  rfl

theorem removable_eq (hd : IntTable.Keeps C.delta.encode s.deltas tx.deltas)
    (hpins : tx.loadRestorePins C = .ok s.restorePins)
    (hsmall : s.manifest.retainedFromSequence ≤ i64Max) :
    tx.removable C s.manifest = .ok s.removable := by
  have hscan : tx.deltas.keys.filter (· < (s.manifest.retainedFromSequence : Int)) =
      (s.deltas.keys.filter (· < s.manifest.retainedFromSequence)).map Int.ofNat := by
    rw [keys_keeps hd, List.filter_map]
    congr 1
    refine List.filter_congr fun k _ => ?_
    simp
  unfold JournalTables.removable
  rw [hpins, ok_bind, sqlFromU64_of_le hsmall, ok_bind, hscan, sequences_cast]
  rfl

/-- **The same payloads are removed.** -/
theorem run_prune (hd : IntTable.Keeps C.delta.encode s.deltas tx.deltas)
    (hpins : tx.loadRestorePins C = .ok s.restorePins)
    (hsmall : s.manifest.retainedFromSequence ≤ i64Max) :
    ∃ rows, (SqliteA2aMapperJournalStore.removeUnpinnedCompactedPayloads C s.manifest).run tx =
        .ok s.removable.length { tx with deltas := rows } ∧
      IntTable.Keeps C.delta.encode s.removeUnpinnedCompactedPayloads.deltas rows := by
  have hkeys : ∀ k ∈ s.removable, k ≤ i64Max := by
    intro k hk
    have hlt := (mem_removable.mp hk).2.1
    omega
  refine ⟨(s.removable.map Int.ofNat).foldl (fun rows key => rows.erase key) tx.deltas, ?_,
    hd.foldl_erase s.removable⟩
  unfold SqliteA2aMapperJournalStore.removeUnpinnedCompactedPayloads
  rw [run_read_bind, id_eq, removable_eq hd hpins hsmall, run_check_bind_ok,
    mapM_sqlFromU64 _ hkeys, run_check_bind_ok]
  rfl

end

end AikitRuntime.Journal
