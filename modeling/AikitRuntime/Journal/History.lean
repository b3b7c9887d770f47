import AikitRuntime.Journal.Chains
import AikitRuntime.Journal.Names

/-!
# A store and the deltas that were applied to it

`Journaled H s base applied` says what a store holds when the deltas `applied` were applied to it,
in this order, from the token `base`: they are a chain from there to the head; a delta is in the
table of identities until it is collected, and a tombstone from then on; its payload is there until
it is collected and no restore needs it. Deltas are found by their place, which is one less than
the sequence of their token.
-/

namespace AikitRuntime.Journal

open Library Durability InMemoryJournalState

section
variable {R : MapperRecords}

/-- The deltas that a pin is there for, and its two ends. -/
structure Pinned (H : JournalHost R) (s : InMemoryJournalState R) (applied : List (A2aMapperDelta R))
    (pin : RestorePin) : Prop where
  start_lt : pin.start.sequence < u64Max
  start_validate : pin.start.validate = .ok ()
  through_le : pin.through.sequence ≤ applied.length
  chain : Chain H pin.start ((applied.take pin.through.sequence).drop pin.start.sequence) pin.through
  present : ∀ i, pin.covers (i + 1) = true → s.deltas[i + 1]? = applied[i]?

/-- The active checkpoint is one of the journal, and its bytes are there. -/
structure Activated (H : JournalHost R) (s : InMemoryJournalState R) (base : A2aJournalToken)
    (applied : List (A2aMapperDelta R)) (active : A2aMapperCheckpointMetadata) : Prop where
  reached : Reached H base applied active.highWater
  retained : s.manifest.retainedFromSequence ≤ active.highWater.sequence + 1
  counted : s.manifest.head.sequence + 1 ≤ s.manifest.generation
  bytes : ∃ checkpoint, s.checkpoints[active.checkpointId]? = some checkpoint ∧
    checkpoint.metadata = active ∧ checkpoint.validate H = .ok ()

/-- There is no checkpoint yet. -/
structure Unchecked (H : JournalHost R) (s : InMemoryJournalState R) (base : A2aJournalToken) :
    Prop where
  base : base = .genesis H
  retained : s.manifest.retainedFromSequence = 1

/-- What a store holds after the deltas `applied`. -/
structure Journaled (H : JournalHost R) (s : InMemoryJournalState R) (base : A2aJournalToken)
    (applied : List (A2aMapperDelta R)) : Prop where
  base_sequence : base.sequence = 0
  base_validate : base.validate = .ok ()
  chain : Chain H base applied s.manifest.head
  ids : (applied.map (·.mutationId)).Nodup
  stored : ∀ k delta, s.deltas[k]? = some delta → ∃ i, k = i + 1 ∧ applied[i]? = some delta
  kept : ∀ i, s.manifest.retainedFromSequence ≤ i + 1 → s.deltas[i + 1]? = applied[i]?
  pinned : ∀ (id : String) pin, s.restorePins[id]? = some pin → Pinned H s applied pin
  named : ∀ (id : String) pin, s.restorePins[id]? = some pin →
    ∃ n < s.nextRestoreId, id = restoreName n
  identities : ∀ (id : String) e, s.mutationIdentities[id]? = some e ↔
    ∃ i, s.manifest.retainedFromSequence ≤ i + 1 ∧ applied[i]? = some e.delta ∧
      e.delta.mutationId = id ∧ e.delta.token = .ok e.token
  tombstones : ∀ (id : String) e, s.compactedMutations[id]? = some e ↔
    ∃ i delta, i + 1 < s.manifest.retainedFromSequence ∧ applied[i]? = some delta ∧
      delta.mutationId = id ∧ A2aCompactedMutationTombstone.fromDelta delta = .ok e
  version : s.manifest.formatVersion = a2aMapperDeltaFormatVersion
  sealed : s.manifest.manifestHash = s.manifest.computeHash H
  count : s.manifest.compactedMutationCount = s.compactedMutations.size
  root : s.manifest.compactedMutationsHash = compactedMutationsHash H s.compactedMutations
  retained_pos : 1 ≤ s.manifest.retainedFromSequence
  active : ∀ active, s.manifest.activeCheckpoint = some active → Activated H s base applied active
  unchecked : s.manifest.activeCheckpoint = none → Unchecked H s base
  counted : s.manifest.head.sequence ≤ s.manifest.generation
  generation_le : s.manifest.generation ≤ u64Max
  restore_le : s.nextRestoreId ≤ u64Max

variable {H : JournalHost R} {s : InMemoryJournalState R} {base : A2aJournalToken}
  {applied : List (A2aMapperDelta R)} {delta : A2aMapperDelta R} {token : A2aJournalToken}

/-- A new store. -/
theorem journaled_new (H : JournalHost R) : Journaled H (.new H) (.genesis H) [] where
  base_sequence := rfl
  base_validate := genesis_validate
  chain := .nil _
  ids := .nil
  stored k delta h := by
    rw [new, Std.ExtTreeMap.getElem?_empty] at h
    cases h
  kept i _ := Std.ExtTreeMap.getElem?_empty
  pinned id pin h := by
    rw [new, BTreeMap.get_empty] at h
    cases h
  named id pin h := by
    rw [new, BTreeMap.get_empty] at h
    cases h
  identities id e := by
    rw [new, BTreeMap.get_empty]
    simp
  tombstones id e := by
    rw [new, BTreeMap.get_empty]
    simp
  version := rfl
  sealed := rfl
  count := rfl
  root := rfl
  retained_pos := Nat.le_refl 1
  active _ h := by cases h
  unchecked _ := ⟨rfl, rfl⟩
  counted := Nat.le_refl 0
  generation_le := Nat.zero_le _
  restore_le := by
    show 1 ≤ u64Max
    decide

/-! ### Its own check -/

theorem Journaled.length_eq (h : Journaled H s base applied) :
    s.manifest.head.sequence = applied.length := by
  rw [h.chain.sequence, h.base_sequence, Nat.zero_add]

theorem Journaled.head_validate (h : Journaled H s base applied) :
    s.manifest.head.validate = .ok () :=
  h.chain.validate h.base_validate

theorem Journaled.head_reached (h : Journaled H s base applied) :
    Reached H base applied s.manifest.head :=
  h.chain.reached_head h.base_sequence

theorem Reached.validate (h : Reached H base applied token) (hbase : base.validate = .ok ()) :
    token.validate = .ok () :=
  h.chain.validate hbase

theorem Journaled.retained_le (h : Journaled H s base applied) :
    s.manifest.retainedFromSequence ≤ saturatingAdd s.manifest.head.sequence 1 := by
  have hgeneration := h.generation_le
  have hlength := h.length_eq
  unfold saturatingAdd
  rcases Option.eq_none_or_eq_some s.manifest.activeCheckpoint with hnone | ⟨active, hactive⟩
  · rw [(h.unchecked hnone).retained]
    have : (1 : Nat) ≤ u64Max := by decide
    omega
  · have ha := h.active active hactive
    have hretained := ha.retained
    have hcounted := ha.counted
    have hle := ha.reached.le
    omega

/-- A checkpoint in the journal is not ahead of the head. -/
theorem Journaled.not_ahead (h : Journaled H s base applied) (hreached : Reached H base applied token) :
    token.sequence ≤ s.manifest.head.sequence ∧ token.revision ≤ s.manifest.head.revision := by
  rw [h.length_eq]
  have hle := hreached.le
  refine ⟨hle, ?_⟩
  refine (hreached.chain_between h.head_reached ?_).revision_le
  rw [h.length_eq]
  exact hle

theorem Journaled.validateActive (h : Journaled H s base applied) :
    s.manifest.validateActive = .ok () := by
  unfold A2aJournalManifest.validateActive
  split
  · next active hactive =>
    have hreached := (h.active active hactive).reached
    have hahead := h.not_ahead hreached
    rw [hreached.validate h.base_validate, ok_bind]
    exact refuseIf_of_not (by omega)
  · rfl

theorem Journaled.validateManifest (h : Journaled H s base applied) :
    s.manifest.validate H = .ok () := by
  have hpos := h.retained_pos
  have hle := h.retained_le
  unfold A2aJournalManifest.validate
  rw [refuseIf_of_not (not_not.mpr h.version), ok_bind, h.head_validate, ok_bind, h.sealed, h.root]
  unfold A2aJournalManifest.computeHash compactedMutationsHash
  rw [validateHash_stableHash, ok_bind, validateHash_stableHash, ok_bind,
    refuseIf_of_not (by omega), ok_bind, h.validateActive, ok_bind]
  exact refuseIf_of_not (not_not.mpr rfl)

/-- The delta of the head is there while it is not collected. -/
theorem Journaled.head_delta (h : Journaled H s base applied) (hpos : s.manifest.head.sequence ≠ 0)
    (hretained : s.manifest.retainedFromSequence ≤ s.manifest.head.sequence) :
    ∃ delta, s.deltas[s.manifest.head.sequence]? = some delta ∧ delta.validate H = .ok () ∧
      delta.token = .ok s.manifest.head := by
  have hlength := h.length_eq
  obtain ⟨i, hi⟩ := Nat.exists_eq_succ_of_ne_zero hpos
  have hlt : i < applied.length := by omega
  obtain ⟨_, t, _, hstep, _, hrest⟩ := h.chain.through (List.getElem?_eq_getElem hlt)
  have hdrop : applied.drop (i + 1) = [] := List.drop_eq_nil_of_le (by omega)
  rw [hdrop] at hrest
  cases hrest
  refine ⟨applied[i], ?_, hstep.valid, hstep.token⟩
  rw [hi, h.kept i (by omega)]
  exact List.getElem?_eq_getElem hlt

/-- **A store passes its own check.** -/
theorem Journaled.validateHead (h : Journaled H s base applied) : s.validateHead H = .ok () := by
  have hlength := h.length_eq
  have hroot : ¬ (s.manifest.compactedMutationCount ≠ s.compactedMutations.size ∨
      s.manifest.compactedMutationsHash ≠ compactedMutationsHash H s.compactedMutations) := by
    rw [h.count, h.root]
    simp
  unfold InMemoryJournalState.validateHead
  rw [h.validateManifest, ok_bind, refuseIf_of_not hroot, ok_bind]
  split
  · next hzero =>
    have hnil : applied = [] := List.eq_nil_of_length_eq_zero (by omega)
    have hhead := h.chain
    rw [hnil] at hhead
    cases hhead
    unfold validateFirst
    rw [skipIf_eq_ok]
    rcases Option.eq_none_or_eq_some s.manifest.activeCheckpoint with hnone | ⟨active, hactive⟩
    · exact .inl (h.unchecked hnone).base
    · have hreached := (h.active active hactive).reached
      have hle := hreached.le
      rw [hnil] at hle
      have heq := hreached.eq h.head_reached (by simp at hle; omega)
      right
      rw [hactive, okOr_some, ok_bind]
      exact refuseIf_of_not (not_not.mpr heq)
  · next hpos =>
    rw [skipIf_eq_ok]
    by_cases hretained : s.manifest.head.sequence < s.manifest.retainedFromSequence
    · exact .inl hretained
    · obtain ⟨delta, hdelta, hvalid, htoken⟩ := h.head_delta hpos (Nat.le_of_not_lt hretained)
      right
      rw [hdelta, okOr_some, ok_bind, hvalid, ok_bind, htoken, ok_bind]
      exact refuseIf_of_not (not_not.mpr rfl)

/-! ### Appends -/

/-- The manifest after `advance_generation`, when there is a next generation. -/
def A2aJournalManifest.advanced (H : JournalHost R) (manifest : A2aJournalManifest) :
    A2aJournalManifest :=
  refreshHash H { manifest with generation := manifest.generation + 1 }

theorem getElem?_snoc {α : Type} {xs : List α} {x y : α} {i : Nat} :
    (xs ++ [x])[i]? = some y ↔ xs[i]? = some y ∨ (i = xs.length ∧ x = y) := by
  by_cases hlt : i < xs.length
  · rw [List.getElem?_append_left hlt]
    have hne : i ≠ xs.length := by omega
    simp [hne]
  · have hnone : xs[i]? = none := List.getElem?_eq_none (by omega)
    rw [List.getElem?_append_right (by omega), hnone]
    by_cases heq : i = xs.length
    · simp [heq]
    · have hout : ([x] : List α)[i - xs.length]? = none := List.getElem?_eq_none (by simp; omega)
      simp [heq, hout]

namespace InMemoryJournalState

/-- The store after a new mutation. -/
def appended (H : JournalHost R) (s : InMemoryJournalState R) (delta : A2aMapperDelta R)
    (token : A2aJournalToken) : InMemoryJournalState R :=
  { s with
    deltas := s.deltas.insert token.sequence delta
    mutationIdentities := s.mutationIdentities.insert delta.mutationId ⟨delta, token⟩
    manifest := { s.manifest with head := token }.advanced H }

end InMemoryJournalState

/-- A pin and an active checkpoint do not see what comes after them. -/
theorem Pinned.append {pin : RestorePin} {t : InMemoryJournalState R}
    {more : List (A2aMapperDelta R)} (h : Pinned H s applied pin)
    (hsame : ∀ i < applied.length, t.deltas[i + 1]? = s.deltas[i + 1]?) :
    Pinned H t (applied ++ more) pin := by
  refine ⟨h.start_lt, h.start_validate, ?_, ?_, fun i hcovers => ?_⟩
  · have hle := h.through_le
    rw [List.length_append]
    omega
  · rw [List.take_append_of_le_length h.through_le]
    exact h.chain
  · have hle := h.through_le
    have hlt : i < applied.length := by
      unfold RestorePin.covers at hcovers
      simp at hcovers
      omega
    rw [hsame i hlt, h.present i hcovers, List.getElem?_append_left hlt]

theorem Journaled.append (h : Journaled H s base applied)
    (hfresh : ∀ e ∈ applied, e.mutationId ≠ delta.mutationId)
    (hfollows : Follows H s.manifest.head delta token)
    (hgeneration : s.manifest.generation < u64Max) :
    Journaled H (s.appended H delta token) base (applied ++ [delta]) := by
  have hlength := h.length_eq
  have hretained := h.retained_le
  have hsequence : token.sequence = applied.length + 1 := by rw [hfollows.sequence, hlength]
  have hretained' : s.manifest.retainedFromSequence ≤ applied.length + 1 := by
    unfold saturatingAdd at hretained
    omega
  have hold (i : Nat) (hlt : i ≠ applied.length) :
      (s.appended H delta token).deltas[i + 1]? = s.deltas[i + 1]? := by
    refine NumberMap.get_insert_of_ne ?_
    omega
  constructor
  · exact h.base_sequence
  · exact h.base_validate
  · exact h.chain.append (.single hfollows)
  · rw [List.map_append, List.nodup_append]
    refine ⟨h.ids, by simp, ?_⟩
    intro id hid other hother heq
    obtain ⟨e, he, rfl⟩ := List.mem_map.mp hid
    rw [List.map_singleton, List.mem_singleton] at hother
    exact hfresh e he (heq.trans hother)
  · intro k d hk
    rw [appended, NumberMap.get_insert] at hk
    split at hk
    · next heq =>
      cases hk
      exact ⟨applied.length, by omega, by simp⟩
    · obtain ⟨i, rfl, hi⟩ := h.stored k d hk
      exact ⟨i, rfl, getElem?_snoc.mpr (.inl hi)⟩
  · intro i hi
    by_cases heq : i = applied.length
    · have hhead : i + 1 = token.sequence := by omega
      rw [heq, List.getElem?_append_right (Nat.le_refl _), ← heq, hhead, Nat.sub_self]
      exact NumberMap.get_insert.trans (if_pos rfl)
    · have hsame : (applied ++ [delta])[i]? = applied[i]? := by
        refine Option.ext fun d => ?_
        rw [getElem?_snoc]
        simp [heq]
      rw [hold i heq, hsame]
      exact h.kept i hi
  · intro id pin hpin
    exact (h.pinned id pin hpin).append fun i hlt => hold i (by omega)
  · exact h.named
  · intro id e
    rw [appended, BTreeMap.get_insert]
    split
    · next heq =>
      subst heq
      constructor
      · rintro ⟨⟩
        exact ⟨applied.length, hretained', getElem?_snoc.mpr (.inr ⟨rfl, rfl⟩), rfl, hfollows.token⟩
      · rintro ⟨i, -, hi, hid, htoken⟩
        rcases getElem?_snoc.mp hi with hin | ⟨-, hdelta⟩
        · exact absurd hid (hfresh _ (List.mem_of_getElem? hin))
        · rw [← hdelta, hfollows.token] at htoken
          cases htoken
          rw [hdelta]
    · next hne =>
      rw [h.identities]
      constructor
      · rintro ⟨i, hle, hi, hrest⟩
        exact ⟨i, hle, getElem?_snoc.mpr (.inl hi), hrest⟩
      · rintro ⟨i, hle, hi, hid, htoken⟩
        rcases getElem?_snoc.mp hi with hin | ⟨-, hdelta⟩
        · exact ⟨i, hle, hin, hid, htoken⟩
        · exact absurd (hdelta ▸ hid) hne
  · intro id e
    show s.compactedMutations[id]? = some e ↔ ∃ i d, i + 1 < s.manifest.retainedFromSequence ∧ _
    rw [h.tombstones]
    constructor
    · rintro ⟨i, d, hlt, hi, hrest⟩
      exact ⟨i, d, hlt, getElem?_snoc.mpr (.inl hi), hrest⟩
    · rintro ⟨i, d, hlt, hi, hrest⟩
      rcases getElem?_snoc.mp hi with hin | ⟨heq, -⟩
      · exact ⟨i, d, hlt, hin, hrest⟩
      · omega
  · exact h.version
  · rfl
  · exact h.count
  · exact h.root
  · exact h.retained_pos
  · intro active hactive
    have ha := h.active active hactive
    refine ⟨ha.reached.append, ha.retained, ?_, ha.bytes⟩
    have hcounted := ha.counted
    show token.sequence + 1 ≤ s.manifest.generation + 1
    omega
  · intro hnone
    have hu := h.unchecked hnone
    exact ⟨hu.base, hu.retained⟩
  · have hcounted := h.counted
    show token.sequence ≤ s.manifest.generation + 1
    omega
  · exact hgeneration
  · exact h.restore_le

/-! ### Installations -/

/-- The store after a new checkpoint. -/
def InMemoryJournalState.installed (H : JournalHost R) (s : InMemoryJournalState R)
    (checkpoint : A2aMapperCheckpoint) (head : A2aJournalToken) : InMemoryJournalState R :=
  { s with
    checkpoints := s.checkpoints.insert checkpoint.metadata.checkpointId checkpoint
    manifest :=
      { s.manifest with head, activeCheckpoint := some checkpoint.metadata }.advanced H }

variable {checkpoint : A2aMapperCheckpoint}

theorem A2aMapperCheckpoint.highWater_validate (h : checkpoint.validate H = .ok ()) :
    checkpoint.metadata.highWater.validate = .ok () := by
  unfold A2aMapperCheckpoint.validate at h
  obtain ⟨_, h, _⟩ := bind_eq_ok.mp h
  unfold A2aMapperCheckpoint.validateIntegrity at h
  obtain ⟨_, _, h⟩ := bind_eq_ok.mp h
  obtain ⟨_, _, h⟩ := bind_eq_ok.mp h
  obtain ⟨_, hvalid, _⟩ := bind_eq_ok.mp h
  exact hvalid

/-- A checkpoint of a journal on the same deltas, whose base is another one at the start only. -/
theorem Journaled.install {base' head : A2aJournalToken} (h : Journaled H s base applied)
    (hvalid : checkpoint.validate H = .ok ()) (hbase : base'.sequence = 0)
    (hbase' : base'.validate = .ok ()) (hchain : Chain H base' applied head)
    (hreached : Reached H base' applied checkpoint.metadata.highWater)
    (hretained : s.manifest.retainedFromSequence ≤ checkpoint.metadata.highWater.sequence + 1)
    (hgeneration : s.manifest.generation < u64Max) :
    Journaled H (s.installed H checkpoint head) base' applied := by
  have hhead : head.sequence = s.manifest.head.sequence := by
    rw [hchain.sequence, hbase, h.length_eq, Nat.zero_add]
  have hcounted := h.counted
  constructor
  · exact hbase
  · exact hbase'
  · exact hchain
  · exact h.ids
  · exact h.stored
  · exact h.kept
  · intro id pin hpin
    have hp := h.pinned id pin hpin
    exact ⟨hp.start_lt, hp.start_validate, hp.through_le, hp.chain, hp.present⟩
  · exact h.named
  · exact h.identities
  · exact h.tombstones
  · exact h.version
  · rfl
  · exact h.count
  · exact h.root
  · exact h.retained_pos
  · rintro active ⟨⟩
    refine ⟨hreached, hretained, ?_, checkpoint, BTreeMap.get_insert_self, rfl, hvalid⟩
    show head.sequence + 1 ≤ s.manifest.generation + 1
    omega
  · nofun
  · show head.sequence ≤ s.manifest.generation + 1
    omega
  · exact hgeneration
  · exact h.restore_le

/-- What `token_at` finds in the journal, unless it is a base that a checkpoint has replaced. -/
theorem Journaled.tokenAt_reached (h : Journaled H s base applied) {sequence : Nat}
    (htoken : s.tokenAt H sequence = some token)
    (hactive : ∀ active, s.manifest.activeCheckpoint = some active →
      active.highWater.sequence < sequence) :
    Reached H base applied token := by
  have hat : activeAt s.manifest sequence = none := by
    unfold activeAt
    rcases Option.eq_none_or_eq_some s.manifest.activeCheckpoint with hnone | ⟨active, hsome⟩
    · rw [hnone]
      rfl
    · have hne : active.highWater.sequence ≠ sequence := Nat.ne_of_lt (hactive active hsome)
      rw [hsome, Option.filter_some, if_neg (by simpa using hne)]
      rfl
  unfold tokenAt at htoken
  split at htoken
  · cases htoken
    exact h.head_reached
  · split at htoken
    · next hzero =>
      subst hzero
      rcases Option.eq_none_or_eq_some s.manifest.activeCheckpoint with hnone | ⟨active, hsome⟩
      · rw [hat, Option.getD_none] at htoken
        cases htoken
        rw [← (h.unchecked hnone).base]
        exact reached_base applied h.base_sequence
      · have hlt := hactive active hsome
        omega
    · rw [hat, Option.or_none] at htoken
      obtain ⟨d, hd, hdelta⟩ := Option.bind_eq_some_iff.mp htoken
      obtain ⟨i, -, hi⟩ := h.stored sequence d hd
      obtain ⟨t, ht, -, hreached⟩ := h.chain.reached_token h.base_sequence hi
      rw [ht] at hdelta
      cases hdelta
      exact hreached

/-- The head that an installation leaves, and where the checkpoint is. -/
theorem Journaled.headAfter_ok (h : Journaled H s base applied) {head : A2aJournalToken}
    {metadata : A2aMapperCheckpointMetadata} (hhead : s.headAfter H metadata = .ok head) :
    (applied = [] ∧ s.manifest.activeCheckpoint = none ∧ head = metadata.highWater ∧
      metadata.highWater.sequence = 0) ∨
    (head = s.manifest.head ∧ Reached H base applied metadata.highWater ∧
      ∀ active, s.manifest.activeCheckpoint = some active →
        active.highWater.sequence < metadata.highWater.sequence) := by
  unfold headAfter at hhead
  split at hhead
  · next hfirst =>
    obtain ⟨hzero, hgenesis, hnone, -⟩ := hfirst
    obtain ⟨_, _, heq⟩ := bind_eq_ok.mp hhead
    cases heq
    refine .inl ⟨List.eq_nil_of_length_eq_zero ?_, hnone, rfl, hzero⟩
    rw [← h.length_eq, hgenesis]
    rfl
  · obtain ⟨known, hknown, hhead⟩ := bind_eq_ok.mp hhead
    obtain ⟨_, hsame, hhead⟩ := bind_eq_ok.mp hhead
    obtain ⟨_, hnewer, hhead⟩ := bind_eq_ok.mp hhead
    cases hhead
    have hnewer : ∀ active, s.manifest.activeCheckpoint = some active →
        active.highWater.sequence < metadata.highWater.sequence := by
      intro active hactive
      rw [checkNewer, hactive] at hnewer
      obtain ⟨_, hge, hne⟩ := bind_eq_ok.mp hnewer
      have hge := refuseIf_eq_ok.mp hge
      have hne := refuseIf_eq_ok.mp hne
      omega
    refine .inr ⟨rfl, ?_, hnewer⟩
    rw [← not_not.mp (refuseIf_eq_ok.mp hsame)]
    exact h.tokenAt_reached (okOr_eq_ok.mp hknown) hnewer

/-- **An installation keeps the deltas**; it may set the base of an empty journal. -/
theorem Journaled.installed (h : Journaled H s base applied) {head : A2aJournalToken}
    (hvalid : checkpoint.validate H = .ok ())
    (hhead : s.headAfter H checkpoint.metadata = .ok head)
    (hgeneration : s.manifest.generation < u64Max) :
    ∃ base', Journaled H (s.installed H checkpoint head) base' applied ∧
      (base' = base ∨ applied = []) := by
  rcases h.headAfter_ok hhead with ⟨rfl, hnone, rfl, hzero⟩ | ⟨rfl, hreached, hnewer⟩
  · refine ⟨checkpoint.metadata.highWater, ?_, .inr rfl⟩
    refine h.install hvalid hzero (A2aMapperCheckpoint.highWater_validate hvalid) (.nil _)
      (reached_base [] hzero) ?_ hgeneration
    rw [(h.unchecked hnone).retained]
    omega
  · refine ⟨base, ?_, .inl rfl⟩
    refine h.install hvalid h.base_sequence h.base_validate h.chain hreached ?_ hgeneration
    rcases Option.eq_none_or_eq_some s.manifest.activeCheckpoint with hnone | ⟨active, hactive⟩
    · rw [(h.unchecked hnone).retained]
      omega
    · have hretained := (h.active active hactive).retained
      have hlt := hnewer active hactive
      omega

/-! ### Restores -/

namespace InMemoryJournalState

/-- The store with a new restore from this token. -/
def restoring (s : InMemoryJournalState R) (start : A2aJournalToken) : InMemoryJournalState R :=
  { s with
    nextRestoreId := s.nextRestoreId + 1
    restorePins := s.restorePins.insert (restoreName s.nextRestoreId) ⟨start, s.manifest.head⟩ }

/-- The store after a restore. -/
def released (s : InMemoryJournalState R) (id : String) : InMemoryJournalState R :=
  { s with restorePins := s.restorePins.erase id }.removeUnpinnedCompactedPayloads

end InMemoryJournalState

/-- The token that a restore starts from. -/
theorem Journaled.start (h : Journaled H s base applied) {bytes : Option A2aMapperCheckpoint}
    (hbytes : s.activeBytes H = .ok bytes) :
    Reached H base applied (restoreStart H bytes) ∧ (restoreStart H bytes).sequence < u64Max ∧
      s.manifest.retainedFromSequence ≤ (restoreStart H bytes).sequence + 1 := by
  unfold activeBytes at hbytes
  unfold restoreStart
  rcases Option.eq_none_or_eq_some s.manifest.activeCheckpoint with hnone | ⟨active, hactive⟩
  · have hu := h.unchecked hnone
    rw [hnone] at hbytes
    cases hbytes
    rw [Option.map_none, Option.getD_none, ← hu.base]
    refine ⟨reached_base applied h.base_sequence, ?_, ?_⟩
    · rw [h.base_sequence]
      decide
    · rw [hu.retained]
      omega
  · have ha := h.active active hactive
    obtain ⟨checkpoint, hget, hsame, hvalid⟩ := ha.bytes
    rw [hactive] at hbytes
    simp only [hget, okOr_some, ok_bind, hvalid] at hbytes
    cases hbytes
    rw [Option.map_some, Option.getD_some, hsame]
    have hle := ha.reached.le
    have hcounted := ha.counted
    have hgeneration := h.generation_le
    have hlength := h.length_eq
    exact ⟨ha.reached, by omega, ha.retained⟩

/-- The bytes of the active checkpoint are there. -/
theorem Journaled.activeBytes_ok (h : Journaled H s base applied) :
    ∃ bytes, s.activeBytes H = .ok bytes := by
  unfold activeBytes
  rcases Option.eq_none_or_eq_some s.manifest.activeCheckpoint with hnone | ⟨active, hactive⟩
  · rw [hnone]
    exact ⟨_, rfl⟩
  · obtain ⟨checkpoint, hget, -, hvalid⟩ := (h.active active hactive).bytes
    simp only [hactive, hget, okOr_some, ok_bind, hvalid]
    exact ⟨_, rfl⟩

theorem Journaled.pin (h : Journaled H s base applied) {start : A2aJournalToken}
    (hreached : Reached H base applied start) (hlt : start.sequence < u64Max)
    (hretained : s.manifest.retainedFromSequence ≤ start.sequence + 1)
    (hnext : s.nextRestoreId + 1 ≤ u64Max) :
    Journaled H (s.restoring start) base applied := by
  have hlength := h.length_eq
  have hnew : Pinned H s applied ⟨start, s.manifest.head⟩ := by
    refine ⟨hlt, hreached.validate h.base_validate, Nat.le_of_eq hlength, ?_, fun i hcovers => ?_⟩
    · refine hreached.chain_between h.head_reached ?_
      rw [hlength]
      exact hreached.le
    · unfold RestorePin.covers at hcovers
      simp at hcovers
      exact h.kept i (by omega)
  constructor
  · exact h.base_sequence
  · exact h.base_validate
  · exact h.chain
  · exact h.ids
  · exact h.stored
  · exact h.kept
  · intro id pin hpin
    have hp : Pinned H s applied pin := by
      rcases BTreeMap.get_insert_eq_some hpin with ⟨-, rfl⟩ | ⟨-, hold⟩
      · exact hnew
      · exact h.pinned id pin hold
    exact ⟨hp.start_lt, hp.start_validate, hp.through_le, hp.chain, hp.present⟩
  · intro id pin hpin
    show ∃ n < s.nextRestoreId + 1, id = restoreName n
    rcases BTreeMap.get_insert_eq_some hpin with ⟨rfl, -⟩ | ⟨-, hold⟩
    · exact ⟨s.nextRestoreId, by omega, rfl⟩
    · obtain ⟨n, hn, hid⟩ := h.named id pin hold
      exact ⟨n, by omega, hid⟩
  · exact h.identities
  · exact h.tombstones
  · exact h.version
  · exact h.sealed
  · exact h.count
  · exact h.root
  · exact h.retained_pos
  · intro active hactive
    have ha := h.active active hactive
    exact ⟨ha.reached, ha.retained, ha.counted, ha.bytes⟩
  · intro hnone
    have hu := h.unchecked hnone
    exact ⟨hu.base, hu.retained⟩
  · exact h.counted
  · exact h.generation_le
  · exact hnext

theorem mem_removable {k : Nat} :
    k ∈ s.removable ↔ (∃ d, s.deltas[k]? = some d) ∧ k < s.manifest.retainedFromSequence ∧
      ∀ (id : String) pin, s.restorePins[id]? = some pin → pin.covers k = false := by
  unfold removable
  rw [List.mem_filter, List.mem_filter, NumberMap.mem_keys, decide_eq_true_iff, Bool.not_eq_true',
    Bool.eq_false_iff, ne_eq, BTreeMap.any_values, and_assoc]
  simp

/-- A store keeps what is not collected, and what a restore needs. -/
theorem Journaled.prune (h : Journaled H s base applied) :
    Journaled H s.removeUnpinnedCompactedPayloads base applied := by
  have hget (k : Nat) : s.removeUnpinnedCompactedPayloads.deltas[k]? =
      if k ∈ s.removable then none else s.deltas[k]? := NumberMap.get_foldl_erase s.removable
  constructor
  · exact h.base_sequence
  · exact h.base_validate
  · exact h.chain
  · exact h.ids
  · intro k delta hk
    rw [hget] at hk
    split at hk
    · cases hk
    · exact h.stored k delta hk
  · intro i hi
    have hnot : i + 1 ∉ s.removable := by
      intro hin
      have hlt := (mem_removable.mp hin).2.1
      exact Nat.not_lt.mpr hi hlt
    rw [hget, if_neg hnot]
    exact h.kept i hi
  · intro id pin hpin
    have hp := h.pinned id pin hpin
    refine ⟨hp.start_lt, hp.start_validate, hp.through_le, hp.chain, fun i hcovers => ?_⟩
    have hnot : i + 1 ∉ s.removable := by
      intro hin
      have hfalse := (mem_removable.mp hin).2.2 id pin hpin
      rw [hcovers] at hfalse
      cases hfalse
    rw [hget, if_neg hnot]
    exact hp.present i hcovers
  · exact h.named
  · exact h.identities
  · exact h.tombstones
  · exact h.version
  · exact h.sealed
  · exact h.count
  · exact h.root
  · exact h.retained_pos
  · intro active hactive
    have ha := h.active active hactive
    exact ⟨ha.reached, ha.retained, ha.counted, ha.bytes⟩
  · intro hnone
    have hu := h.unchecked hnone
    exact ⟨hu.base, hu.retained⟩
  · exact h.counted
  · exact h.generation_le
  · exact h.restore_le

theorem Journaled.unpin (h : Journaled H s base applied) (id : String) :
    Journaled H { s with restorePins := s.restorePins.erase id } base applied := by
  have hold (id' : String) (pin : RestorePin)
      (hpin : (s.restorePins.erase id)[id']? = some pin) : s.restorePins[id']? = some pin := by
    rw [BTreeMap.get_erase] at hpin
    split at hpin
    · cases hpin
    · exact hpin
  constructor
  · exact h.base_sequence
  · exact h.base_validate
  · exact h.chain
  · exact h.ids
  · exact h.stored
  · exact h.kept
  · intro id' pin hpin
    have hp := h.pinned id' pin (hold id' pin hpin)
    exact ⟨hp.start_lt, hp.start_validate, hp.through_le, hp.chain, hp.present⟩
  · exact fun id' pin hpin => h.named id' pin (hold id' pin hpin)
  · exact h.identities
  · exact h.tombstones
  · exact h.version
  · exact h.sealed
  · exact h.count
  · exact h.root
  · exact h.retained_pos
  · intro active hactive
    have ha := h.active active hactive
    exact ⟨ha.reached, ha.retained, ha.counted, ha.bytes⟩
  · intro hnone
    have hu := h.unchecked hnone
    exact ⟨hu.base, hu.retained⟩
  · exact h.counted
  · exact h.generation_le
  · exact h.restore_le

theorem Journaled.release (h : Journaled H s base applied) (id : String) :
    Journaled H (s.released id) base applied :=
  (h.unpin id).prune

/-! ### Collections -/

/-- A delta tells its place by its id. -/
theorem Journaled.place_unique (h : Journaled H s base applied) {i j : Nat}
    {d e : A2aMapperDelta R} (hi : applied[i]? = some d) (hj : applied[j]? = some e)
    (hid : d.mutationId = e.mutationId) : i = j := by
  obtain ⟨hlt, rfl⟩ := List.getElem?_eq_some_iff.mp hi
  obtain ⟨hlt', rfl⟩ := List.getElem?_eq_some_iff.mp hj
  have hi' : (applied.map (·.mutationId))[i]? = some applied[i].mutationId := by
    rw [List.getElem?_map, hi]
    rfl
  have hj' : (applied.map (·.mutationId))[j]? = some applied[j].mutationId := by
    rw [List.getElem?_map, hj]
    rfl
  refine (List.getElem?_inj ?_ h.ids).mp ?_
  · rwa [List.length_map]
  · rw [hi', hj', hid]

/-- A tombstone for the delta at this key. -/
def Covers (s : InMemoryJournalState R) (ks : List Nat) (id : String) : Prop :=
  ∃ k ∈ ks, ∃ d, s.deltas[k]? = some d ∧ d.mutationId = id

open InMemoryA2aMapperJournalStore in
/-- What the loop of a collection does to the two tables. -/
theorem run_compact (ks : List Nat)
    (hks : ∀ k ∈ ks, ∃ d e, s.deltas[k]? = some d ∧ A2aCompactedMutationTombstone.fromDelta d = .ok e)
    (hids : ∀ k ∈ ks, ∀ k' ∈ ks, ∀ d d', s.deltas[k]? = some d → s.deltas[k']? = some d' →
      d.mutationId = d'.mutationId → d = d') :
    ∃ tombstones identities, (Method.each compact ks).run s = .ok ⟨⟩
        { s with compactedMutations := tombstones, mutationIdentities := identities } ∧
      (∀ k ∈ ks, ∀ d e, s.deltas[k]? = some d → A2aCompactedMutationTombstone.fromDelta d = .ok e →
        tombstones[d.mutationId]? = some e ∧ identities[d.mutationId]? = none) ∧
      ∀ id, ¬ Covers s ks id → tombstones[id]? = s.compactedMutations[id]? ∧
        identities[id]? = s.mutationIdentities[id]? := by
  induction ks generalizing s with
  | nil => exact ⟨_, _, rfl, nofun, fun _ _ => ⟨rfl, rfl⟩⟩
  | cons k ks ih =>
    obtain ⟨d, e, hd, he⟩ := hks k List.mem_cons_self
    have htombstone : e.mutationId = d.mutationId := by
      obtain ⟨token, -, heq⟩ := bind_eq_ok.mp he
      cases heq
      rfl
    let t : InMemoryJournalState R :=
      { s with
        compactedMutations := s.compactedMutations.insert d.mutationId e
        mutationIdentities := s.mutationIdentities.erase d.mutationId }
    have hfirst : (compact k).run s = .ok ⟨⟩ t := by
      unfold compact
      rw [Method.run_read_bind, id_eq, hd, okOr_some, Method.run_check_bind_ok, he,
        Method.run_check_bind_ok, htombstone]
      rfl
    obtain ⟨tombstones, identities, hrun, hcovered, hother⟩ := ih (s := t)
      (fun k' hk' => hks k' (List.mem_cons_of_mem _ hk'))
      (fun k' hk' k'' hk'' =>
        hids k' (List.mem_cons_of_mem _ hk') k'' (List.mem_cons_of_mem _ hk''))
    refine ⟨tombstones, identities, ?_, ?_, ?_⟩
    · show (compact k >>= fun _ => Method.each compact ks).run s = _
      rw [Method.run_bind_ok hfirst, hrun]
    · intro k' hk' d' e' hd' he'
      rcases List.mem_cons.mp hk' with rfl | hin
      · rw [hd] at hd'
        cases hd'
        rw [he] at he'
        cases he'
        by_cases hlater : Covers s ks d.mutationId
        · obtain ⟨k'', hk'', d'', hd'', hid⟩ := hlater
          have hsame := hids k'' (List.mem_cons_of_mem _ hk'') k' List.mem_cons_self d'' d hd'' hd hid
          rw [hsame] at hd''
          exact hcovered k'' hk'' d e hd'' he
        · obtain ⟨htombstones, hidentities⟩ := hother d.mutationId hlater
          rw [htombstones, hidentities]
          exact ⟨BTreeMap.get_insert_self, BTreeMap.get_erase.trans (if_pos rfl)⟩
      · exact hcovered k' hin d' e' hd' he'
    · intro id hnot
      have hne : d.mutationId ≠ id := fun heq => hnot ⟨k, List.mem_cons_self, d, hd, heq⟩
      have hrest : ¬ Covers t ks id := by
        rintro ⟨k', hk', hcovers⟩
        exact hnot ⟨k', List.mem_cons_of_mem _ hk', hcovers⟩
      obtain ⟨htombstones, hidentities⟩ := hother id hrest
      rw [htombstones, hidentities]
      exact ⟨BTreeMap.get_insert_of_ne hne, BTreeMap.get_erase.trans (if_neg hne)⟩

/-- The store after a collection through this sequence, before payloads are removed. -/
def InMemoryJournalState.compacted (H : JournalHost R) (s : InMemoryJournalState R) (sequence : Nat)
    (tombstones : BTreeMap A2aCompactedMutationTombstone)
    (identities : BTreeMap (StoredMutationIdentity R)) : InMemoryJournalState R :=
  { s with
    compactedMutations := tombstones
    mutationIdentities := identities
    manifest :=
      { s.manifest with
        retainedFromSequence := sequence + 1
        compactedMutationCount := tombstones.size
        compactedMutationsHash := compactedMutationsHash H tombstones }.advanced H }

/-- The keys that a collection goes through. -/
abbrev covered (s : InMemoryJournalState R) (active : A2aMapperCheckpointMetadata) : List Nat :=
  s.deltas.keys.filter (· ≤ active.highWater.sequence)

variable {active : A2aMapperCheckpointMetadata}

theorem Journaled.mem_covered (h : Journaled H s base applied) {k : Nat} :
    k ∈ covered s active ↔ ∃ i d, k = i + 1 ∧ i + 1 ≤ active.highWater.sequence ∧
      s.deltas[i + 1]? = some d ∧ applied[i]? = some d := by
  rw [List.mem_filter, NumberMap.mem_keys, decide_eq_true_iff]
  constructor
  · rintro ⟨⟨d, hd⟩, hle⟩
    obtain ⟨i, rfl, hi⟩ := h.stored k d hd
    exact ⟨i, d, rfl, hle, hd, hi⟩
  · rintro ⟨i, d, rfl, hle, hd, -⟩
    exact ⟨⟨d, hd⟩, hle⟩

/-- A delta of the journal makes a tombstone. -/
theorem Journaled.fromDelta_ok (h : Journaled H s base applied) {i : Nat}
    (hi : applied[i]? = some delta) :
    ∃ e, A2aCompactedMutationTombstone.fromDelta delta = .ok e := by
  obtain ⟨t, ht, -⟩ := h.chain.reached_token h.base_sequence hi
  unfold A2aCompactedMutationTombstone.fromDelta
  rw [ht]
  exact ⟨_, rfl⟩

/-- A delta of the journal that is there is one that is covered. -/
theorem Journaled.covers_iff (h : Journaled H s base applied) {i : Nat}
    (hi : applied[i]? = some delta) :
    Covers s (covered s active) delta.mutationId ↔
      i + 1 ≤ active.highWater.sequence ∧ s.deltas[i + 1]? = some delta := by
  constructor
  · rintro ⟨k, hk, d, hd, hid⟩
    obtain ⟨j, d', rfl, hle, hd', hj⟩ := h.mem_covered.mp hk
    rw [hd'] at hd
    cases hd
    have heq := h.place_unique hj hi hid
    subst heq
    rw [hi] at hj
    cases hj
    exact ⟨hle, hd'⟩
  · rintro ⟨hle, hd⟩
    exact ⟨i + 1, h.mem_covered.mpr ⟨i, delta, rfl, hle, hd, hi⟩, delta, hd, rfl⟩

/-- **A collection makes tombstones of what the active checkpoint covers.** -/
theorem Journaled.collect (h : Journaled H s base applied)
    (hactive : s.manifest.activeCheckpoint = some active)
    (hgeneration : s.manifest.generation < u64Max) :
    ∃ tombstones identities,
      (Method.each InMemoryA2aMapperJournalStore.compact (covered s active)).run s = .ok ⟨⟩
        { s with compactedMutations := tombstones, mutationIdentities := identities } ∧
      Journaled H (s.compacted H active.highWater.sequence tombstones identities) base applied := by
  have ha := h.active active hactive
  have hretained := ha.retained
  obtain ⟨tombstones, identities, hrun, hcovered, hother⟩ := run_compact (covered s active)
    (by
      intro k hk
      obtain ⟨i, d, rfl, -, hd, hi⟩ := h.mem_covered.mp hk
      obtain ⟨e, he⟩ := h.fromDelta_ok hi
      exact ⟨d, e, hd, he⟩)
    (by
      intro k hk k' hk' d d' hd hd' hid
      obtain ⟨i, hki, hi⟩ := h.stored k d hd
      obtain ⟨j, hkj, hj⟩ := h.stored k' d' hd'
      have heq := h.place_unique hi hj hid
      rw [← heq, hi] at hj
      exact Option.some.inj hj)
  refine ⟨tombstones, identities, hrun, ?_⟩
  constructor
  · exact h.base_sequence
  · exact h.base_validate
  · exact h.chain
  · exact h.ids
  · exact h.stored
  · intro i hi
    have hi : active.highWater.sequence + 1 ≤ i + 1 := hi
    exact h.kept i (by omega)
  · intro id pin hpin
    have hp := h.pinned id pin hpin
    exact ⟨hp.start_lt, hp.start_validate, hp.through_le, hp.chain, hp.present⟩
  · exact h.named
  · intro id e
    show identities[id]? = some e ↔ ∃ i, active.highWater.sequence + 1 ≤ i + 1 ∧ _
    by_cases hcovers : Covers s (covered s active) id
    · obtain ⟨k, hk, d, hd, rfl⟩ := hcovers
      obtain ⟨i, d', rfl, hle, hd', hi⟩ := h.mem_covered.mp hk
      rw [hd'] at hd
      cases hd
      obtain ⟨e', he'⟩ := h.fromDelta_ok hi
      rw [(hcovered _ hk d e' hd' he').2]
      refine ⟨nofun, fun ⟨j, hle', hj, hid, _⟩ => ?_⟩
      have heq := h.place_unique hi hj hid.symm
      omega
    · rw [(hother id hcovers).2, h.identities]
      constructor
      · rintro ⟨i, hle, hi, hid, htoken⟩
        refine ⟨i, ?_, hi, hid, htoken⟩
        by_contra hlt
        rw [← hid, h.covers_iff hi, h.kept i hle] at hcovers
        exact hcovers ⟨by omega, hi⟩
      · rintro ⟨i, hle, hrest⟩
        exact ⟨i, by omega, hrest⟩
  · intro id e
    show tombstones[id]? = some e ↔ ∃ i d, i + 1 < active.highWater.sequence + 1 ∧ _
    by_cases hcovers : Covers s (covered s active) id
    · obtain ⟨k, hk, d, hd, rfl⟩ := hcovers
      obtain ⟨i, d', rfl, hle, hd', hi⟩ := h.mem_covered.mp hk
      rw [hd'] at hd
      cases hd
      obtain ⟨e', he'⟩ := h.fromDelta_ok hi
      rw [(hcovered _ hk d e' hd' he').1]
      constructor
      · rintro ⟨⟩
        exact ⟨i, d, by omega, hi, rfl, he'⟩
      · rintro ⟨j, d', _, hj, hid, he⟩
        have heq := h.place_unique hi hj hid.symm
        subst heq
        rw [hi] at hj
        cases hj
        rw [he'] at he
        cases he
        rfl
    · rw [(hother id hcovers).1, h.tombstones]
      constructor
      · rintro ⟨i, d, hlt, hrest⟩
        exact ⟨i, d, by omega, hrest⟩
      · rintro ⟨i, d, hlt, hi, hid, he⟩
        refine ⟨i, d, ?_, hi, hid, he⟩
        by_contra hle
        rw [← hid, h.covers_iff hi, h.kept i (by omega)] at hcovers
        exact hcovers ⟨by omega, hi⟩
  · exact h.version
  · rfl
  · rfl
  · rfl
  · exact Nat.le_add_left 1 _
  · intro active' hactive'
    have heq : active' = active := Option.some.inj (hactive'.symm.trans hactive)
    subst heq
    refine ⟨ha.reached, Nat.le_refl _, ?_, ha.bytes⟩
    have hcounted := ha.counted
    show s.manifest.head.sequence + 1 ≤ s.manifest.generation + 1
    omega
  · intro hnone
    have hnone : s.manifest.activeCheckpoint = none := hnone
    rw [hactive] at hnone
    cases hnone
  · have hcounted := h.counted
    show s.manifest.head.sequence ≤ s.manifest.generation + 1
    omega
  · exact hgeneration
  · exact h.restore_le

end

end AikitRuntime.Journal
