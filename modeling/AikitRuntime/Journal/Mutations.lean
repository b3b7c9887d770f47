import AikitRuntime.Journal.Counting

/-!
# Mutations take effect once

Whatever the clients of a journal do, its store passes its own check, the deltas that were ever
applied are one chain, and an append is answered by what was applied before it, whether or not that
was collected since. All of this is up to the last generation of the manifest, which is a `u64`: the
store keeps every mutation that it ever applied, and does not come to it.
-/

namespace AikitRuntime.Journal

open Library Durability Method
open InMemoryJournalState InMemoryA2aMapperJournalStore

section
variable {R : MapperRecords} {H : JournalHost R} {s t : InMemoryJournalState R}
  {base : A2aJournalToken} {ds : List (A2aMapperDelta R)} {delta e : A2aMapperDelta R}
  {called : JournalCalled R} {calls : List (JournalCalled R)}
  {answer : A2aJournalResult (JournalAnswer R)}

/-! ### What an append finds -/

variable {token : A2aJournalToken}

theorem replayed_same (htoken : delta.token = .ok token) {same : Prop}
    [Decidable same] (hsame : same) : replayed delta same token = .ok none := by
  unfold replayed
  rw [if_pos hsame, htoken, ok_bind, refuseIf_of_not (not_not.mpr rfl)]
  rfl

theorem replayed_other {same : Prop} [Decidable same] (hsame : ¬ same) :
    replayed delta same token = .error (.mutationConflict delta.mutationId) :=
  if_neg hsame

/-- An id names one delta of a journal. -/
theorem Journaled.delta_unique (h : Journaled H s base ds) {d : A2aMapperDelta R} (hd : d ∈ ds)
    (he : e ∈ ds) (hid : d.mutationId = e.mutationId) : d = e := by
  obtain ⟨i, hi⟩ := List.mem_iff_getElem?.mp hd
  obtain ⟨j, hj⟩ := List.mem_iff_getElem?.mp he
  have heq := h.place_unique hi hj hid
  rw [heq, hj] at hi
  exact (Option.some.inj hi).symm

/-- **An id that is known is answered by what it was applied with.** -/
theorem Journaled.admitDelta_known (h : Journaled H s base ds) (he : e ∈ ds)
    (hid : e.mutationId = delta.mutationId) (hhash : e.deltaHash = delta.deltaHash → e = delta) :
    s.admitDelta H delta =
      if e = delta then .ok none else .error (.mutationConflict delta.mutationId) := by
  unfold admitDelta
  rw [h.validateHead, ok_bind]
  cases hidentity : s.mutationIdentities[delta.mutationId]? with
  | some existing =>
    obtain ⟨i, -, hi, hsame, htoken⟩ := (h.identities _ existing).mp hidentity
    have heq := h.delta_unique (List.mem_of_getElem? hi) he (hsame.trans hid.symm)
    dsimp only
    rw [heq] at htoken ⊢
    split
    · next hdelta =>
      rw [hdelta] at htoken
      exact replayed_same htoken hdelta
    · next hdelta => exact replayed_other hdelta
  | none =>
    cases htombstone : s.compactedMutations[delta.mutationId]? with
    | none =>
      have hfresh := (h.known_iff _).mp ⟨hidentity, htombstone⟩
      exact absurd hid (hfresh e he)
    | some existing =>
      obtain ⟨i, d, -, hi, hsame, hfrom⟩ := (h.tombstones _ existing).mp htombstone
      have heq := h.delta_unique (List.mem_of_getElem? hi) he (hsame.trans hid.symm)
      rw [heq] at hfrom
      obtain ⟨token, htoken, hexisting⟩ := bind_eq_ok.mp hfrom
      cases hexisting
      dsimp only
      split
      · next hdelta =>
        rw [hdelta] at htoken ⊢
        exact replayed_same htoken rfl
      · next hdelta => exact replayed_other fun heq' => hdelta (hhash heq')

/-- An id that is not known is refused for a stale head, or the delta's token is what counts. -/
theorem Journaled.admitDelta_fresh (h : Journaled H s base ds)
    (hfresh : ∀ e ∈ ds, e.mutationId ≠ delta.mutationId) :
    s.admitDelta H delta = .error (.staleHead delta.expectedToken s.manifest.head) ∨
      s.admitDelta H delta = some <$> delta.token := by
  by_cases hexpected : delta.expectedToken = s.manifest.head
  · exact .inr (h.admitDelta_new hfresh hexpected)
  · obtain ⟨hidentity, htombstone⟩ := (h.known_iff _).mpr hfresh
    left
    unfold admitDelta
    rw [h.validateHead, ok_bind, hidentity, htombstone]
    dsimp only
    rw [refuseIf_eq_error.mpr ⟨hexpected, rfl⟩]
    rfl

/-! ### What an append answers -/

theorem answer_of_ok {α : Type} {m : JournalMethod R α} {wrap : α → JournalAnswer R} {a : α}
    {u : InMemoryJournalState R} (hrun : m.run s = .ok a u)
    (h : (wrap <$> m).run s = match answer with
      | .ok a => .ok a t
      | .error e => .error e t) : answer = .ok (wrap a) ∧ t = u := by
  rw [run_map, hrun] at h
  cases answer <;> cases h
  exact ⟨rfl, rfl⟩

theorem answer_of_error {α : Type} {m : JournalMethod R α} {wrap : α → JournalAnswer R}
    {error : A2aJournalError} {u : InMemoryJournalState R} (hrun : m.run s = .error error u)
    (h : (wrap <$> m).run s = match answer with
      | .ok a => .ok a t
      | .error e => .error e t) : answer = .error error ∧ t = u := by
  rw [run_map, hrun] at h
  cases answer <;> cases h
  exact ⟨rfl, rfl⟩

/-- An append that finds a known mutation, or is refused, changes nothing. -/
theorem run_appendDelta_of_error (hvalid : delta.validate H = .ok ()) {error : A2aJournalError}
    (hadmitted : s.admitDelta H delta = .error error) :
    (appendDelta H delta).run s = .error error s := by
  unfold appendDelta
  rw [hvalid, run_check_bind_ok, run_read_bind, id_eq, hadmitted, run_check_bind_error]

theorem run_appendDelta_of_none (hvalid : delta.validate H = .ok ())
    (hadmitted : s.admitDelta H delta = .ok none) :
    (appendDelta H delta).run s = .ok .alreadyApplied s := by
  unfold appendDelta
  rw [hvalid, run_check_bind_ok, run_read_bind, id_eq, hadmitted, run_check_bind_ok]
  rfl

theorem run_appendDelta_last (hvalid : delta.validate H = .ok ())
    (hadmitted : s.admitDelta H delta = .ok (some token)) (hlast : ¬ s.manifest.generation < u64Max) :
    ∃ u, (appendDelta H delta).run s = .error (.invalid "manifest generation overflow") u := by
  unfold appendDelta
  rw [hvalid, run_check_bind_ok, run_read_bind, id_eq, hadmitted, run_check_bind_ok]
  exact ⟨_, run_write_last hlast⟩

/-- What an append answers, and when it changes nothing. -/
structure Answers (calls : List (JournalCalled R)) (s : InMemoryJournalState R)
    (delta : A2aMapperDelta R) (answer : A2aJournalResult (JournalAnswer R))
    (t : InMemoryJournalState R) : Prop where
  known : answer = .ok (.appended .alreadyApplied) ↔ delta ∈ applied calls
  conflict : answer = .error (.mutationConflict delta.mutationId) ↔
    ∃ e ∈ applied calls, e.mutationId = delta.mutationId ∧ e ≠ delta
  unchanged : answer = .ok (.appended .alreadyApplied) ∨
    answer = .error (.mutationConflict delta.mutationId) ∨
    answer = .error (.staleHead delta.expectedToken s.manifest.head) → t = s

/-- Deltas with one hash are one delta. -/
theorem delta_eq_of_hash (hvalid : delta.validate H = .ok ()) (hvalid' : e.validate H = .ok ())
    (hfree : H.stableHash e.material = H.stableHash delta.material → e.material = delta.material)
    (h : e.deltaHash = delta.deltaHash) : e = delta := by
  have hhash := (A2aMapperDelta.validate_eq_ok hvalid).hash
  have hhash' := (A2aMapperDelta.validate_eq_ok hvalid').hash
  unfold A2aMapperDelta.computeHash at hhash hhash'
  have hmaterial := hfree (by rw [hhash, hhash', h])
  unfold A2aMapperDelta.material at hmaterial
  obtain ⟨version, id, expected, fromRevision, toRevision, previous, operations, hash⟩ := e
  obtain ⟨_, _, _, _, _, _, _, _⟩ := delta
  cases hmaterial
  cases h
  rfl

/-- **An append is answered by what was applied before it.** -/
theorem Journaled.answers (h : Journaled H s base (applied calls))
    (hvalid : delta.validate H = .ok ())
    (hfree : ∀ e ∈ applied calls, H.stableHash e.material = H.stableHash delta.material →
      e.material = delta.material)
    (hcall : Calls H s ⟨.appendDelta delta, answer⟩ t) : Answers calls s delta answer t := by
  by_cases hknown : ∃ e ∈ applied calls, e.mutationId = delta.mutationId
  · obtain ⟨e, he, hid⟩ := hknown
    obtain ⟨i, hi⟩ := List.mem_iff_getElem?.mp he
    obtain ⟨_, _, _, hstep, -⟩ := h.chain.through hi
    have hadmitted := h.admitDelta_known he hid (delta_eq_of_hash hvalid hstep.valid (hfree e he))
    by_cases hsame : e = delta
    · rw [if_pos hsame] at hadmitted
      obtain ⟨rfl, rfl⟩ := answer_of_ok (run_appendDelta_of_none hvalid hadmitted) hcall
      subst hsame
      refine ⟨⟨fun _ => he, fun _ => rfl⟩, ⟨nofun, fun ⟨d, hd, hdid, hne⟩ => ?_⟩, fun _ => rfl⟩
      exact absurd (h.delta_unique hd he hdid) hne
    · rw [if_neg hsame] at hadmitted
      obtain ⟨rfl, rfl⟩ := answer_of_error (run_appendDelta_of_error hvalid hadmitted) hcall
      refine ⟨⟨nofun, fun hin => ?_⟩, ⟨fun _ => ⟨e, he, hid, hsame⟩, fun _ => rfl⟩, fun _ => rfl⟩
      exact absurd (h.delta_unique he hin hid) hsame
  · have hfresh : ∀ e ∈ applied calls, e.mutationId ≠ delta.mutationId := fun e he hid =>
      hknown ⟨e, he, hid⟩
    have hnew : delta ∉ applied calls := fun hin => hfresh delta hin rfl
    have hnone : ¬ ∃ e ∈ applied calls, e.mutationId = delta.mutationId ∧ e ≠ delta :=
      fun ⟨e, he, hid, _⟩ => hfresh e he hid
    rcases h.admitDelta_fresh hfresh with hadmitted | hadmitted
    · obtain ⟨rfl, rfl⟩ := answer_of_error (run_appendDelta_of_error hvalid hadmitted) hcall
      exact ⟨⟨nofun, fun hin => absurd hin hnew⟩, ⟨nofun, fun hin => absurd hin hnone⟩, fun _ => rfl⟩
    · cases htoken : delta.token with
      | error error =>
        have herror : error = .invalid "journal sequence overflow" := by
          unfold A2aMapperDelta.token at htoken
          cases hadd : checkedAdd delta.expectedToken.sequence 1 with
          | none =>
            rw [hadd] at htoken
            cases htoken
            rfl
          | some n =>
            rw [hadd] at htoken
            cases htoken
        rw [htoken] at hadmitted
        obtain ⟨rfl, rfl⟩ := answer_of_error (run_appendDelta_of_error hvalid hadmitted) hcall
        subst herror
        exact ⟨⟨nofun, fun hin => absurd hin hnew⟩, ⟨nofun, fun hin => absurd hin hnone⟩,
          fun _ => rfl⟩
      | ok token =>
        rw [htoken] at hadmitted
        by_cases hlt : s.manifest.generation < u64Max
        · obtain ⟨rfl, -⟩ := answer_of_ok (run_appendDelta hvalid hadmitted hlt) hcall
          refine ⟨⟨nofun, fun hin => absurd hin hnew⟩, ⟨nofun, fun hin => absurd hin hnone⟩, ?_⟩
          rintro (heq | heq | heq) <;> cases heq
        · obtain ⟨u, hrun⟩ := run_appendDelta_last hvalid hadmitted hlt
          obtain ⟨rfl, -⟩ := answer_of_error hrun hcall
          refine ⟨⟨nofun, fun hin => absurd hin hnew⟩, ⟨nofun, fun hin => absurd hin hnone⟩, ?_⟩
          rintro (heq | heq | heq) <;> cases heq

/-! ### The active checkpoint -/

/-- **The active checkpoint does not go back.** -/
theorem Does.active_le (h : Does H s called t) (hjournal : Journaled H s base ds)
    {active : A2aMapperCheckpointMetadata} (hactive : s.manifest.activeCheckpoint = some active) :
    ∃ next, t.manifest.activeCheckpoint = some next ∧
      active.highWater.sequence ≤ next.highWater.sequence := by
  cases h with
  | kept | appended | restoring | released | collected =>
    exact ⟨active, hactive, Nat.le_refl _⟩
  | @installed request head hvalid hhead hlt =>
    refine ⟨request.checkpoint.metadata, rfl, ?_⟩
    rcases hjournal.headAfter_ok hhead with ⟨-, hnone, -⟩ | ⟨-, -, hnewer⟩
    · rw [hactive] at hnone
      cases hnone
    · exact Nat.le_of_lt (hnewer active hactive)

/-! ### Whole runs -/

/-- A store with the deltas that a run applied to it. -/
structure Intact (H : JournalHost R) (calls : List (JournalCalled R)) (s : InMemoryJournalState R) :
    Prop where
  valid : s.validateHead H = .ok ()
  chain : ∃ base, base.sequence = 0 ∧ Chain H base (applied calls) s.manifest.head
  sequences : ∀ i delta, (applied calls)[i]? = some delta →
    ∃ token, delta.token = .ok token ∧ token.sequence = i + 1
  revisions : (applied calls).Pairwise fun d e => d.toRevision < e.toRevision
  once : ((applied calls).map (·.mutationId)).Nodup

theorem Journaled.unbroken (h : Journaled H s base (applied calls)) : Intact H calls s := by
  refine ⟨h.validateHead, ⟨base, h.base_sequence, h.chain⟩, fun i delta hi => ?_,
    h.chain.pairwise.1, h.ids⟩
  obtain ⟨token, htoken, hsequence, -⟩ := h.chain.reached_token h.base_sequence hi
  exact ⟨token, htoken, hsequence⟩

/-- **A journal is one chain of deltas, each applied once.** -/
theorem BoundedRun.intact (h : BoundedRun H calls s) :
    Intact H calls s ∧
    (∀ called t active, Calls H s called t → HasGeneration H s called.call →
      s.manifest.activeCheckpoint = some active →
      ∃ next, t.manifest.activeCheckpoint = some next ∧
        active.highWater.sequence ≤ next.highWater.sequence) ∧
    ∀ delta answer t, Calls H s ⟨.appendDelta delta, answer⟩ t → delta.validate H = .ok () →
      CollisionFree H (calls ++ [⟨.appendDelta delta, answer⟩]) → Answers calls s delta answer t := by
  obtain ⟨base, hjournal⟩ := h.journaled
  refine ⟨hjournal.unbroken, fun called t active hcall hgeneration hactive => ?_, ?_⟩
  · exact (hcall.does hjournal hgeneration).active_le hjournal hactive
  · intro delta answer t hcall hvalid hfree
    refine hjournal.answers hvalid (fun e he heq => ?_) hcall
    obtain ⟨earlier, hearlier, happlied⟩ := List.mem_filterMap.mp he
    obtain ⟨call, result⟩ := earlier
    have hcase : call = .appendDelta e := by
      unfold JournalCalled.applied at happlied
      split at happlied
      · next hcall _ =>
        cases happlied
        exact hcall
      · cases happlied
    subst hcase
    have hlast : ⟨.appendDelta delta, answer⟩ ∈ calls ++ [⟨.appendDelta delta, answer⟩] :=
      List.mem_append_right _ (List.mem_singleton.mpr rfl)
    exact hfree _ _ (.delta (List.mem_append_left _ hearlier)) (.delta hlast) heq

end

theorem intact_two : ∃ s, Intact countingHost (appends 2) s := by
  obtain ⟨s, hrun, -⟩ := exists_count 2 (by decide)
  exact ⟨s, (BoundedRun.intact hrun).1⟩

end AikitRuntime.Journal
