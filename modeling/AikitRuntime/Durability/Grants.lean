import AikitRuntime.Durability.Approvals
import AikitRuntime.Durability.DurableStore

/-!
# Approvals that a commit grants

A typed approval has an expiry, and is to be granted by the store's clock: an ordinary commit
must not resolve one, and a commit that names one must be in time. Both guards look an
approval up in the stored projection. The replacement may go back to a checkpoint between its
first event and the resolution, and the approval that is resolved there need not be the one
that was looked up: it may have been asked for again, with another expiry or with one at all.
-/

namespace AikitRuntime.Durability

open Library RunState

section
variable [Digest]

namespace RunState

variable {s t m current replacement : RunState} {e : RunEvent} {version sequence : Nat}
  {kind : RunEventKind} {id : String} {p q : DurableApproval} {expiry now : Nat}

omit [Digest] in
/-- The run has that approval, in its projection or in one of its checkpoints. -/
def Holds (s : RunState) (id : String) (p : DurableApproval) : Prop :=
  s.projection.approvals[id]? = some p ∨
    ∃ (checkpointId : String) (c : Checkpoint), s.checkpoints[checkpointId]? = some c ∧
      c.projection.approvals[id]? = some p

/-- The event resolves the approval as it stands in `s`, and leaves `q`. -/
def ResolvesTo (s : RunState) (sequence : Nat) (kind : RunEventKind) (id : String)
    (q : DurableApproval) : Prop :=
  ∃ approved response p decoded, kind = .approvalResolved id approved response ∧
    s.projection.approvals[id]? = some p ∧ q = resolvedApproval p sequence approved decoded

/-! ### Where an approval comes from -/

theorem Transition.approval (h : Transition s version sequence kind t)
    (hq : t.projection.approvals[id]? = some q) :
    s.Holds id q ∨ q.status = .pending ∨ s.ResolvesTo sequence kind id q := by
  cases h with
  | approvalRequested =>
    rcases BTreeMap.get_insert_eq_some hq with ⟨-, rfl⟩ | ⟨-, hold⟩
    · exact .inr (.inl rfl)
    · exact .inl (.inl hold)
  | approvalResolved hget =>
    rcases BTreeMap.get_insert_eq_some hq with ⟨rfl, rfl⟩ | ⟨-, hold⟩
    · exact .inr (.inr ⟨_, _, _, _, rfl, hget, rfl⟩)
    · exact .inl (.inl hold)
  | runRewound _ hstored hcheckpoint =>
    refine .inl (.inr ⟨_, _, hstored, ?_⟩)
    rw [← approvals_of_checkpointForCurrentRun hcheckpoint, ← forkProjection_approvals]
    exact hq
  | activityOrphaned => exact .inl (.inl (by split at hq <;> exact hq))
  | activityQuarantined => exact .inl (.inl (by dsimp only at hq; split at hq <;> exact hq))
  | activityReconciled => exact .inl (.inl (by dsimp only at hq; split at hq <;> exact hq))
  | _ => exact .inl (.inl hq)

theorem Transition.holds (h : Transition s version sequence kind t) (hq : t.Holds id q) :
    s.Holds id q ∨ q.status = .pending ∨
      (s.ResolvesTo sequence kind id q ∧ t.projection.approvals[id]? = some q) := by
  rcases hq with hq | ⟨checkpointId, c, hc, hq⟩
  · rcases h.approval hq with hheld | hpending | hresolves
    · exact .inl hheld
    · exact .inr (.inl hpending)
    · exact .inr (.inr ⟨hresolves, hq⟩)
  · rcases h.checkpoints with hkept | ⟨_, _, _, _, hinsert⟩
    · exact .inl (.inr ⟨checkpointId, c, hkept ▸ hc, hq⟩)
    · rw [hinsert] at hc
      rcases BTreeMap.get_insert_eq_some hc with ⟨-, rfl⟩ | ⟨-, hold⟩
      · exact .inl (.inl hq)
      · exact .inl (.inr ⟨checkpointId, c, hold, hq⟩)

/-- An event of the log resolved the approval, and left it as `q`. -/
def ResolvedIn (m : RunState) (events : List RunEvent) (id : String) (q : DurableApproval) : Prop :=
  ∃ pre e post u t, events = pre ++ e :: post ∧ Path Replays m pre u ∧ Replays u e t ∧
    u.ResolvesTo e.sequence e.kind id q ∧ t.projection.approvals[id]? = some q

variable {events : List RunEvent}

/-- **An approval of a run** is one of an earlier moment, or is pending, or was resolved since. -/
theorem holds_of_path (hm : Logged m) (h : Path Replays m events s)
    (hq : s.Holds id q) : m.Holds id q ∨ q.status = .pending ∨ ResolvedIn m events id q := by
  induction h with
  | nil => exact .inl hq
  | @cons m t s e es hstep _ ih =>
    obtain ⟨u, htransition, rfl⟩ := hm.transition hstep.2
    rcases ih (.extended hm hstep) hq with hold | hpending |
      ⟨pre, e', post, v, t, rfl, hpath, hrest⟩
    · rcases htransition.holds hold with hheld | hpending | ⟨hresolves, ht⟩
      · exact .inl hheld
      · exact .inr (.inl hpending)
      · exact .inr (.inr ⟨[], e, es, m, _, rfl, .nil m, hstep, hresolves, ht⟩)
    · exact .inr (.inl hpending)
    · exact .inr (.inr ⟨e :: pre, e', post, v, t, rfl, .cons hstep hpath, hrest⟩)

/-! ### What becomes of an approval without a rewind -/

theorem Transition.keepsExpiry (h : Transition s version sequence kind t) (hkind : ¬ kind.IsRewind)
    (hp : s.projection.approvals[id]? = some p) :
    ∃ q, t.projection.approvals[id]? = some q ∧ q.expiresAtUnixMs = p.expiresAtUnixMs := by
  cases h with
  | approvalRequested _ _ hfresh => exact ⟨p, BTreeMap.get_insert_of_get hfresh hp, rfl⟩
  | @approvalResolved approvalId approved response approval decoded hget =>
    by_cases hid : approvalId = id
    · subst hid
      rw [hget] at hp
      cases hp
      exact ⟨resolvedApproval p sequence approved decoded, BTreeMap.get_insert_self, rfl⟩
    · exact ⟨p, (BTreeMap.get_insert_of_ne hid).trans hp, rfl⟩
  | runRewound => exact absurd ⟨_, _, _, rfl⟩ hkind
  | activityOrphaned => exact ⟨p, by split <;> exact hp, rfl⟩
  | activityQuarantined => exact ⟨p, by dsimp only; split <;> exact hp, rfl⟩
  | activityReconciled => exact ⟨p, by dsimp only; split <;> exact hp, rfl⟩
  | _ => exact ⟨p, hp, rfl⟩

/-- While a run does not go back, an approval keeps its expiry. -/
theorem expiry_of_path (hm : Logged m) (h : Path Replays m events s)
    (hrewind : ∀ e ∈ events, ¬ e.kind.IsRewind) (hp : m.projection.approvals[id]? = some p) :
    ∃ q, s.projection.approvals[id]? = some q ∧ q.expiresAtUnixMs = p.expiresAtUnixMs := by
  induction h generalizing p with
  | nil => exact ⟨p, hp, rfl⟩
  | cons hstep _ ih =>
    obtain ⟨u, htransition, rfl⟩ := hm.transition hstep.2
    obtain ⟨q, hq, hexpiry⟩ := htransition.keepsExpiry (hrewind _ List.mem_cons_self) hp
    obtain ⟨q', hq', hexpiry'⟩ := ih (.extended hm hstep)
      (fun e he => hrewind e (List.mem_cons_of_mem _ he)) hq
    exact ⟨q', hq', hexpiry'.trans hexpiry⟩

/-! ### What a commit grants -/

omit [Digest] in
/-- The approval is approved, with that expiry, in the run or in one of its checkpoints. -/
def HasApproved (s : RunState) (id : String) (expiry : Nat) : Prop :=
  ∃ p, s.Holds id p ∧ p.status = .approved ∧ p.expiresAtUnixMs = some expiry

/-- The replacement has the approval approved, with that expiry, and the current run has not. -/
def NewlyApproves (current replacement : RunState) (id : String) (expiry : Nat) : Prop :=
  (∃ p, replacement.projection.approvals[id]? = some p ∧ p.status = .approved ∧
    p.expiresAtUnixMs = some expiry) ∧ ¬ current.HasApproved id expiry

/-- After a rewind, an event that the replacement appends approves the approval, which has that
expiry there, and the replacement still has it as the event left it. -/
def GrantsAfterRewind (current replacement : RunState) (id : String) (expiry : Nat) : Prop :=
  ∃ pre e post m t response q, replacement.events = current.events ++ (pre ++ e :: post) ∧
    (∃ e' ∈ pre, e'.kind.IsRewind) ∧ e.kind = .approvalResolved id true response ∧
      RunState.fromEvents (current.events ++ pre) = .ok m ∧ Replays m e t ∧
        t.projection.approvals[id]? = some q ∧ q.expiresAtUnixMs = some expiry ∧
          replacement.projection.approvals[id]? = some q

/-- What a commit may grant: the approval that it names, before its expiry. -/
def MayGrant (approvalId : Option String) (now : Nat) (id : String) (expiry : Nat) : Prop :=
  approvalId = some id ∧ now < expiry

/-! ### What the guards check -/

omit [Digest] in
theorem appendedEvents_eq_some (h : replacement.events = current.events ++ events) :
    appendedEvents current replacement = some events := by
  unfold appendedEvents
  rw [h, List.length_append, if_pos (Nat.le_add_right _ _), List.drop_left]

omit [Digest] in
/-- If the event approves an approval, it is the one named, and its stored expiry is to come. -/
def ResolvesInTime (current : RunState) (approvalId : String) (now : Nat) (e : RunEvent) : Prop :=
  ∀ id response, e.kind = .approvalResolved id true response → id = approvalId ∧
    ∃ p expiry, current.projection.approvals[id]? = some p ∧ p.expiresAtUnixMs = some expiry ∧
      now < expiry

omit [Digest] in
theorem tallyResolution_spec {approvalId : String} {tally next : ResolutionTally}
    (h : tallyResolution current approvalId now tally e = .ok next)
    (hintime : next.targetExpired = false) :
    tally.targetExpired = false ∧ ResolvesInTime current approvalId now e := by
  unfold tallyResolution at h
  split at h
  · next id approved response hkind =>
    simp only [bind_eq_ok, exists_unit, okOr_eq_ok, refuseIf_eq_ok, not_not] at h
    obtain ⟨p, hp, -, h⟩ := h
    cases approved with
    | false =>
      cases h
      exact ⟨hintime, fun _ _ happroves => by rw [hkind] at happroves; cases happroves⟩
    | true =>
      simp only [if_true, bind_eq_ok, exists_unit, okOr_eq_ok, refuseIf_eq_ok, not_not] at h
      obtain ⟨rfl, expiry, hexpiry, h⟩ := h
      cases h
      simp only [Bool.or_eq_false_iff, decide_eq_false_iff_not, Nat.not_le] at hintime
      refine ⟨hintime.1, fun _ _ happroves => ?_⟩
      rw [hkind] at happroves
      cases happroves
      exact ⟨rfl, p, expiry, hp, hexpiry, hintime.2⟩
  · next hother =>
    cases h
    exact ⟨hintime, fun id response happroves => absurd happroves (hother id true response)⟩

omit [Digest] in
/-- A tally that has found nothing late has found every grant in time. -/
theorem foldlM_tallyResolution_spec {approvalId : String} {tally last : ResolutionTally} (h : events.foldlM (tallyResolution current approvalId now) tally = .ok last)
    (hintime : last.targetExpired = false) :
    tally.targetExpired = false ∧ ∀ e ∈ events, ResolvesInTime current approvalId now e := by
  induction events generalizing tally with
  | nil =>
    cases h
    exact ⟨hintime, fun e he => by cases he⟩
  | cons e es ih =>
    rw [List.foldlM_cons] at h
    obtain ⟨next, hnext, hrest⟩ := bind_eq_ok.mp h
    obtain ⟨hlater, hes⟩ := ih hrest
    obtain ⟨hearlier, he⟩ := tallyResolution_spec hnext hlater
    refine ⟨hearlier, fun e' he' => ?_⟩
    rcases List.mem_cons.mp he' with rfl | hmem
    · exact he
    · exact hes e' hmem

omit [Digest] in
/-- **What the guards know**: an approval that is granted is one of the stored projection, and the
commit may grant it under the expiry that it has there. -/
theorem validateApprovals_spec {approvalId : Option String}
    {response : Option Value} (h : validateApprovals current replacement approvalId now = .ok ())
    (hlog : replacement.events = current.events ++ events) (he : e ∈ events)
    (hkind : e.kind = .approvalResolved id true response) :
    ∃ p, current.projection.approvals[id]? = some p ∧
      ∀ expiry, p.expiresAtUnixMs = some expiry → MayGrant approvalId now id expiry := by
  cases approvalId with
  | none =>
    simp only [validateApprovals, rejectUnvalidatedApprovalResolutions, bind_eq_ok, okOr_eq_ok,
      appendedEvents_eq_some hlog, Option.some.injEq, exists_eq_left', firstRefusal_eq_ok] at h
    have hreject := h e he
    simp only [rejectUnvalidated, hkind, bind_eq_ok, okOr_eq_ok, refuseIf_eq_ok, Bool.not_eq_true,
      Option.isSome_eq_false_iff, Option.isNone_iff_eq_none] at hreject
    obtain ⟨p, hp, huntyped⟩ := hreject
    exact ⟨p, hp, fun expiry hexpiry => by rw [huntyped] at hexpiry; cases hexpiry⟩
  | some approvalId =>
    simp only [validateApprovals, validateApprovalResolutionDeadline, bind_eq_ok, exists_unit,
      okOr_eq_ok, refuseIf_eq_ok, appendedEvents_eq_some hlog, Option.some.injEq, exists_eq_left',
      Bool.not_eq_true] at h
    obtain ⟨_, -, -, tally, htally, -, _, -, -, hintime⟩ := h
    obtain ⟨rfl, p, expiry, hp, hexpiry, hlt⟩ :=
      (foldlM_tallyResolution_spec htally hintime).2 e he id response hkind
    refine ⟨p, hp, fun expiry' hexpiry' => ⟨rfl, ?_⟩⟩
    rw [hexpiry] at hexpiry'
    cases hexpiry'
    exact hlt

/-! ### What a replacement grants -/

/-- What is newly approved was resolved by an appended event, as an approval with that expiry. -/
theorem resolvedIn_of_newlyApproves (hs : Logged current)
    (h : Path Replays current events replacement) (hnew : NewlyApproves current replacement id expiry) :
    ∃ pre e post u t response p q, events = pre ++ e :: post ∧ Path Replays current pre u ∧
      Replays u e t ∧ e.kind = .approvalResolved id true response ∧
        u.projection.approvals[id]? = some p ∧ p.expiresAtUnixMs = some expiry ∧
          t.projection.approvals[id]? = some q ∧ q.expiresAtUnixMs = some expiry ∧
            replacement.projection.approvals[id]? = some q := by
  obtain ⟨⟨q, hq, hstatus, hexpiry⟩, hnot⟩ := hnew
  rcases holds_of_path hs h (.inl hq) with hheld | hpending | ⟨pre, e, post, u, t, rfl, hpath, hstep,
    hresolves, ht⟩
  · exact absurd ⟨q, hheld, hstatus, hexpiry⟩ hnot
  · rw [hstatus] at hpending
    cases hpending
  · obtain ⟨approved, response, p, decoded, hkind, hp, rfl⟩ := hresolves
    cases approved with
    | true => exact ⟨pre, e, post, u, t, response, p, _, rfl, hpath, hstep, hkind, hp, hexpiry, ht, hexpiry, hq⟩
    | false => cases hstatus

/-- What is granted after a rewind is approved. -/
theorem GrantsAfterRewind.approved (h : GrantsAfterRewind current replacement id expiry) :
    ∃ p, replacement.projection.approvals[id]? = some p ∧ p.status = .approved ∧
      p.expiresAtUnixMs = some expiry := by
  obtain ⟨pre, e, post, m, t, response, q, -, -, hkind, hm, hstep, hq, hexpiry, hstands⟩ := h
  refine ⟨q, hstands, ?_, hexpiry⟩
  obtain ⟨u, htransition, rfl⟩ := (logged_of_fromEvents hm).transition hstep.2
  rw [hkind] at htransition
  cases htransition with
  | approvalResolved =>
    rw [pushEvent_projection] at hq
    rcases BTreeMap.get_insert_eq_some hq with ⟨-, rfl⟩ | ⟨hne, -⟩
    · rfl
    · exact absurd rfl hne

end RunState

/-- **What a commit grants.** A commit that succeeds has newly approved nothing but what it may
grant exactly when whatever it granted after a rewind was approved before, or is what it may
grant. -/
theorem grants_in_time_iff {σ : StoreSystem} {e : StoreEvent} {c : Commit} {current : RunState}
    {now : Nat} (hc : e.call.commit = some c)
    (hcurrent : σ.store.runs[c.replacement.runId]? = some current) (hs : Reachable current)
    (hreplacement : Reachable c.replacement) (hclock : e.clock = .ok now) (h : σ.Succeeds e) :
    (∀ id expiry, NewlyApproves current c.replacement id expiry →
        MayGrant c.approvalId now id expiry) ↔
      ∀ id expiry, GrantsAfterRewind current c.replacement id expiry →
        current.HasApproved id expiry ∨ MayGrant c.approvalId now id expiry := by
  obtain ⟨hlog, hguard⟩ := h.approvals hc hcurrent hclock
  obtain ⟨events, hevents⟩ := prefix_of_validateAppendOnly hlog
  obtain ⟨hlogged, -, hpath⟩ := hreplacement.logged.path hevents.symm hs.fromEvents_events
  constructor
  · intro hintime id expiry hgrants
    by_cases hbefore : current.HasApproved id expiry
    · exact .inl hbefore
    · exact .inr (hintime id expiry ⟨hgrants.approved, hbefore⟩)
  · intro hafter id expiry hnew
    obtain ⟨pre, e', post, u, t, response, p, q, rfl, hpre, hstep, hkind, hp, hexpiry, ht, hexpiry',
      hq⟩ := resolvedIn_of_newlyApproves hlogged hpath hnew
    by_cases hrewound : ∃ e ∈ pre, e.kind.IsRewind
    · have hu := fromEvents_append_path hs.fromEvents_events hpre
      refine (hafter id expiry ?_).resolve_left hnew.2
      exact ⟨pre, e', post, u, t, response, q, hevents.symm, hrewound, hkind, hu, hstep, ht, hexpiry', hq⟩
    · -- the approval that is resolved is the stored one, which the guard has looked at
      obtain ⟨stored, hstored, hmay⟩ :=
        validateApprovals_spec hguard hevents.symm (List.mem_append_right _ List.mem_cons_self) hkind
      obtain ⟨p', hp', hsame⟩ :=
        expiry_of_path hlogged hpre (fun e he hrewind => hrewound ⟨e, he, hrewind⟩) hstored
      rw [hp] at hp'
      cases hp'
      exact hmay expiry (hsame.symm.trans hexpiry)

/-! ### An approval that is asked for again -/

/-- What would hold if the guards covered every replacement. -/
def GrantsInTime : Prop :=
  ∀ (σ : StoreSystem) (e : StoreEvent) (c : Commit) (current : RunState) (now : Nat),
    e.call.commit = some c → σ.store.runs[c.replacement.runId]? = some current → Reachable current →
      Reachable c.replacement → e.clock = .ok now → σ.Succeeds e →
        ∀ id expiry, NewlyApproves current c.replacement id expiry → MayGrant c.approvalId now id expiry

/-- An untyped approval is pending. The run goes back behind its request, asks for it again with
an expiry, and allows it in the middle of the time that it gave itself. -/
def regrantedLog : List RunEvent :=
  logOf "r" [("1", .runStarted "s" .sync "b"), ("2", .checkpointCommitted "c" none),
    ("3", .approvalRequested "a" "k" none "Allow tool?" .null), ("4", .runRewound "c" "b2" false),
    ("5", .approvalRequested "a" "k" none "Allow tool?" (encodeApprovalEnvelope
      { schemaVersion := durabilitySchemaVersion, kind := .confirmation, payload := .null,
        policySnapshotHash := none, governanceBinding := none, requestedAtUnixMs := 1,
        expiresAtUnixMs := 10 })),
    ("6", .approvalResolved "a" true (some (encodeResolutionEnvelope
      { schemaVersion := durabilitySchemaVersion, resolvedAtUnixMs := 5, timedOut := false,
        response := none })))]

omit [Digest] in
/-- A store that holds one run. -/
def storeOf (runId : String) (s : RunState) : InMemoryDurableStore :=
  ⟨(∅ : BTreeMap RunState).insert runId s⟩

omit [Digest] in
/-- An ordinary commit of that log, long after the expiry, succeeds. -/
theorem regrants :
    ∃ current, @fromEvents sha256 (regrantedLog.take 3) = .ok current ∧
      ∃ replacement, @fromEvents sha256 regrantedLog = .ok replacement ∧ replacement.runId = "r" ∧
      (∃ u store, ((StoreCall.compareAndSwap 3 replacement).run (.ok 1000)).run (storeOf "r" current) =
        .ok u store ∧ True) ∧
      (∃ p, replacement.projection.approvals["a"]? = some p ∧ p.status = .approved ∧ p.expiresAtUnixMs = some 10) ∧
      (current.projection.approvals["a"]?.all fun p => p.status = .pending) = true ∧
      (current.checkpoints.values.all fun c => c.projection.approvals["a"]?.isNone) = true := by
  decide +kernel

omit [Digest] in
/-- So it grants the approval anew. -/
theorem succeeds_regrants :
    ∃ current replacement, @Reachable sha256 current ∧ @Reachable sha256 replacement ∧ replacement.runId = "r" ∧
      StoreSystem.Succeeds ⟨storeOf "r" current, 0⟩ ⟨.compareAndSwap 3 replacement, .ok 1000⟩ ∧
      NewlyApproves current replacement "a" 10 := by
  obtain ⟨current, hcurrent, replacement, hreplacement, hid, ⟨_, store, hstore, -⟩, hgranted, hpending,
    hcheckpoints⟩ := regrants
  let inst : Digest := sha256
  refine ⟨current, replacement, .fromEvents hcurrent, .fromEvents hreplacement, hid, ⟨store, hstore⟩, hgranted, ?_⟩
  rintro ⟨q, hheld | ⟨checkpointId, c, hc, hheld⟩, happroved, -⟩
  · rw [hheld] at hpending
    simp [happroved] at hpending
  · have hnone := BTreeMap.all_values.mp hcheckpoints checkpointId c hc
    rw [hheld] at hnone
    cases hnone

omit [Digest] in
/-- An ordinary commit grants a typed approval, with a timestamp of its own. -/
theorem not_grantsInTime : ¬ @GrantsInTime sha256 := by
  intro hclaim
  obtain ⟨current, replacement, hcurrent, hreplacement, hid, hsucceeds, hnew⟩ := succeeds_regrants
  obtain ⟨hnamed, -⟩ := hclaim _ _ _ current 1000 rfl (hid ▸ BTreeMap.get_insert_self) hcurrent
    hreplacement rfl hsucceeds "a" 10 hnew
  cases hnamed

omit [Digest] in
/-- It is granted after a rewind. -/
theorem grants_in_time_regrantedLog :
    ∃ current replacement id expiry, @NewlyApproves current replacement "a" 10 ∧
      @GrantsAfterRewind sha256 current replacement id expiry ∧ ¬ current.HasApproved id expiry := by
  obtain ⟨current, replacement, hcurrent, hreplacement, hid, hsucceeds, hnew⟩ := succeeds_regrants
  let inst : Digest := sha256
  have hiff := grants_in_time_iff rfl (hid ▸ BTreeMap.get_insert_self) hcurrent hreplacement rfl hsucceeds
  by_contra hnone
  obtain ⟨hnamed, -⟩ := hiff.mpr (fun id expiry hgrants => .inl (by
    by_contra hbefore
    exact hnone ⟨current, replacement, id, expiry, hnew, hgrants, hbefore⟩)) "a" 10 hnew
  cases hnamed

end

end AikitRuntime.Durability
