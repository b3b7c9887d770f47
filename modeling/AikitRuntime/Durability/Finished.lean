import AikitRuntime.Durability.Reach
import AikitRuntime.Durability.QuickDigest

/-!
# A finished run stays finished

Most events are refused by a run that has completed, failed or been cancelled, but not all:
a lease is still claimed and released, a pending approval resolved, and an attempt that
awaits reconciliation reconciled; and two migrations quarantine what a v1 log left open.
None of them touches what the run was: its status, its application state, its artifacts and
its checkpoints. `Frozen` says what stays, `Concluded` what a completed run has left open.
-/

namespace AikitRuntime.Durability

open Library ActivityRecord

namespace ActivityRecord

variable {r r' : ActivityRecord} {id : String} {version sequence : Nat} {kind : RunEventKind}

/-- `r'` is the record `r` later on, and no attempt of it was started in between: it has as many
attempts, or one that was quarantined without a start, and only attempts run that ran before. -/
structure NotStartedSince (r r' : ActivityRecord) : Prop where
  definition : r'.definition = r.definition
  attempts : r'.attempts.length = r.attempts.length ∨
    r.attempts = [] ∧ isReservedAuditActivity r = true ∧
      ∃ a, r'.attempts = [a] ∧ a.status = .reconcileRequired
  running : r'.EachAttempt fun i a => a.status = .running → r.attempts[i]? = some a

theorem NotStartedSince.refl : r.NotStartedSince r := ⟨rfl, .inl rfl, fun _ _ ha _ => ha⟩

theorem NotStartedSince.set {attempt : Nat} {found new : ActivityAttempt}
    (hfind : r.findAttempt attempt = some found) (hnew : new.status ≠ .running) :
    r.NotStartedSince (r.setAttempt attempt new) where
  definition := rfl
  attempts := .inl length_setAttempt
  running := by
    have hrunning : r.EachAttempt fun i a => a.status = .running → r.attempts[i]? = some a :=
      fun i a ha _ => ha
    exact hrunning.set hfind fun _ _ _ hstatus => absurd hstatus hnew

variable [Digest]

/-- An event other than a start starts nothing. -/
theorem RecordStep.notStartedSince (h : RecordStep version sequence id r kind r')
    (hkind : ¬ kind.Starts id) : r.NotStartedSince r' := by
  cases h with
  | started => exact absurd ⟨_, rfl⟩ hkind
  | completed hfind _ => exact .set hfind (by simp [completedAttempt])
  | failed _ hfind _ => exact .set hfind (by simp [failedAttempt])
  | cancelled _ hfind _ => exact .set hfind (by simp [cancelledAttempt])
  | quarantined hfind _ => exact .set hfind (by simp [quarantinedAttempt])
  | @reconciled _ resolution _ hfind _ =>
    exact .set hfind (by cases resolution <;> simp [RunState.resolveAttempt])
  | orphaned hempty hreserved =>
    refine ⟨rfl, .inr ⟨hempty, hreserved, _, by rw [pushAttempt_attempts, hempty, List.nil_append], rfl⟩, ?_⟩
    have hrunning : r.EachAttempt fun i a => a.status = .running → r.attempts[i]? = some a :=
      fun i a ha _ => ha
    exact hrunning.push fun hstatus => by cases hstatus

end ActivityRecord

section
variable [Digest]

/-- A fork does not begin finished. -/
theorem forkProjection_status {c : Checkpoint} {runId branchId : String} :
    (forkProjection c runId branchId).status.isTerminal = false := by
  unfold forkProjection
  dsimp only
  split
  · next h => rw [h.1]; rfl
  · split <;> rfl

namespace RunState

variable {s t : RunState} {e : RunEvent} {version sequence : Nat} {kind : RunEventKind}

/-- No run begins finished. -/
theorem Opened.status (h : Opened e t) : t.projection.status.isTerminal = false := by
  cases h with
  | root _ ht => rw [ht]; rfl
  | forked _ _ _ _ ht => rw [ht]; exact forkProjection_status

/-! ### What stays -/

/-- What a finished run was, it is later on. -/
structure Frozen (s t : RunState) : Prop where
  status : t.projection.status = s.projection.status
  state : t.projection.state = s.projection.state
  artifacts : t.projection.artifacts = s.projection.artifacts
  checkpoints : t.checkpoints = s.checkpoints
  activities : ∀ (id : String) (r' : ActivityRecord), t.projection.activities[id]? = some r' →
    ∃ r, s.projection.activities[id]? = some r ∧ r.NotStartedSince r'

variable {id : String} {r : ActivityRecord}

theorem Frozen.of_step {r' : ActivityRecord}
    (hget : s.projection.activities[id]? = some r) (hstep : RecordStep version sequence id r kind r')
    (hkind : ¬ kind.Starts id) : s.Frozen (s.withActivity id r') := by
  refine ⟨rfl, rfl, rfl, rfl, fun id' r₁ hr₁ => ?_⟩
  rcases BTreeMap.get_insert_eq_some hr₁ with ⟨rfl, rfl⟩ | ⟨-, hold⟩
  · exact ⟨r, hget, hstep.notStartedSince hkind⟩
  · exact ⟨r₁, hold, .refl⟩

/-- What a finished run still accepts, and what it leads to. -/
inductive Afterwards (s : RunState) (version sequence : Nat) : RunEventKind → RunState → Prop where
  /-- A lease, or a pin. -/
  | kept {kind : RunEventKind} {t : RunState} {workerLease : Option DurableWorkerLease}
      (hcheckpoints : t.checkpoints = s.checkpoints)
      (hprojection : t.projection = { s.projection with workerLease }) :
      Afterwards s version sequence kind t
  /-- The resolution of a pending approval. -/
  | resolved {approvalId : String} {approved : Bool} {response : Option Value}
      {approval : DurableApproval} (resolved : DurableApproval)
      (hget : s.projection.approvals[approvalId]? = some approval)
      (hpending : approval.status = .pending) :
      Afterwards s version sequence (.approvalResolved approvalId approved response)
        (s.withApproval approvalId resolved)
  /-- The quarantine of a v1 terminal audit that was never started. -/
  | orphaned {id reason : String} {record : ActivityRecord}
      (hget : s.projection.activities[id]? = some record) (hempty : record.attempts = [])
      (hversion : beforeV2 version = false)
      (hstep : record.definition.stableStepId = legacyRunStoppedAuditStepId)
      (hreserved : isReservedAuditActivity record = true) :
      Afterwards s version sequence (.activityReconciliationRequired id 1 reason)
        (s.withActivity id (record.pushAttempt (orphanAttempt 1 sequence reason)))
  /-- The quarantine of an attempt that a v1 log left running. -/
  | quarantined {id reason : String} {attempt : Nat} {record : ActivityRecord}
      {found latest : ActivityAttempt} (hget : s.projection.activities[id]? = some record)
      (hfind : record.findAttempt attempt = some found) (hstatus : found.Unsettled)
      (hlatest : record.latestAttempt = some latest) (hrunning : latest.status = .running) :
      Afterwards s version sequence (.activityReconciliationRequired id attempt reason)
        (s.withActivity id (record.setAttempt attempt (quarantinedAttempt found sequence reason)))
  /-- A reconciliation. -/
  | reconciled {id : String} {attempt : Nat} {resolution : ActivityReconciliation}
      {record : ActivityRecord} {found : ActivityAttempt}
      (hget : s.projection.activities[id]? = some record)
      (hfind : record.findAttempt attempt = some found)
      (hstatus : found.status = .reconcileRequired ∨
        s.isTerminalLegacyAttestation record resolution = true) :
      Afterwards s version sequence (.activityReconciled id attempt resolution)
        (s.withActivity id (record.setAttempt attempt (resolveAttempt sequence found resolution)))

variable {attempt : Nat}

omit [Digest] in
/-- What the first migration is about. -/
theorem isTerminalLegacyOrphan_eq_true {record : ActivityRecord}
    (hget : s.projection.activities[id]? = some record)
    (h : s.isTerminalLegacyOrphan version id attempt = true) :
    record.definition.stableStepId = legacyRunStoppedAuditStepId ∧ record.attempts = [] := by
  simp only [isTerminalLegacyOrphan, hget, Option.any_some, Bool.and_eq_true, decide_eq_true_eq,
    List.isEmpty_iff] at h
  exact ⟨h.2.1.1, h.2.2⟩

omit [Digest] in
/-- What the second migration is about. -/
theorem isTerminalLegacyRunning_eq_true {record : ActivityRecord}
    (hget : s.projection.activities[id]? = some record)
    (h : s.isTerminalLegacyRunning version id attempt = true) :
    isReservedAuditActivity record = false ∧
      ∃ latest, record.latestAttempt = some latest ∧ latest.status = .running := by
  simp only [isTerminalLegacyRunning, hget, Option.any_some, Bool.and_eq_true, decide_eq_true_eq,
    Bool.not_eq_true', Option.any_eq_true] at h
  obtain ⟨-, ⟨⟨hreserved, -⟩, latest, hlatest, -, hrunning⟩, -⟩ := h
  exact ⟨hreserved, latest, hlatest, hrunning⟩

theorem Transition.afterwards (h : Transition s version sequence kind t)
    (hterminal : s.projection.status.isTerminal = true) : Afterwards s version sequence kind t := by
  have active : s.projection.status.isTerminal ≠ false := by rw [hterminal]; decide
  have stopped : s.projection.status ≠ .running := by rintro h; rw [h] at hterminal; cases hterminal
  cases h with
  | policySnapshotPinned => exact .kept rfl rfl
  | governanceBindingPinned => exact .kept rfl rfl
  | workerLeaseClaimed => exact .kept rfl rfl
  | workerLeaseRenewed => exact .kept rfl rfl
  | workerLeaseReleased => exact .kept rfl rfl
  | approvalResolved hget hpending => exact .resolved _ hget hpending
  | activityOrphaned hmigration hactive hget hempty hversion hreserved =>
    obtain rfl := hactive.resolve_right active
    rcases Bool.or_eq_true_iff.mp hmigration with horphan | hrunning
    · exact .orphaned hget hempty hversion (isTerminalLegacyOrphan_eq_true hget horphan).1 hreserved
    · have hordinary := (isTerminalLegacyRunning_eq_true hget hrunning).1
      rw [hreserved] at hordinary
      cases hordinary
  | activityQuarantined hmigration hactive hget hfind hstatus =>
    obtain rfl := hactive.resolve_right active
    rcases Bool.or_eq_true_iff.mp hmigration with horphan | hrunning
    · have hempty := (isTerminalLegacyOrphan_eq_true hget horphan).2
      rw [findAttempt, hempty] at hfind
      cases hfind
    · obtain ⟨-, latest, hlatest, hstill⟩ := isTerminalLegacyRunning_eq_true hget hrunning
      exact .quarantined hget hfind hstatus hlatest hstill
  | activityReconciled hget _ _ hfind hstatus =>
    dsimp only
    rw [if_neg fun hopen => active hopen.1]
    exact .reconciled hget hfind hstatus
  | runResumed hpaused => rw [hpaused] at hterminal; cases hterminal
  | stateReplaced hrunning => exact absurd hrunning stopped
  | activityScheduled hrunning => exact absurd hrunning stopped
  | activityAttemptStarted hrunning => exact absurd hrunning stopped
  | activityAttemptCompleted hactive => exact absurd hactive active
  | activityAttemptFailed hactive => exact absurd hactive active
  | activityAttemptCancelled hactive => exact absurd hactive active
  | approvalRequested hactive => exact absurd hactive active
  | artifactPublished hactive => exact absurd hactive active
  | checkpointCommitted hactive => exact absurd hactive active
  | runPaused hactive => exact absurd hactive active
  | forkCreated hactive => exact absurd hactive active
  | runRewound hactive => exact absurd hactive active
  | runCompleted hactive => exact absurd hactive active
  | runFailed hactive => exact absurd hactive active
  | runCancelled hactive => exact absurd hactive active

/-- **What a finished run was stays.** -/
theorem Afterwards.frozen (h : Afterwards s version sequence kind t) : s.Frozen t := by
  cases h with
  | kept hcheckpoints hprojection =>
    refine ⟨by rw [hprojection], by rw [hprojection], by rw [hprojection], hcheckpoints, ?_⟩
    rw [hprojection]
    exact fun _ r' hr' => ⟨r', hr', .refl⟩
  | resolved => exact ⟨rfl, rfl, rfl, rfl, fun _ r' hr' => ⟨r', hr', .refl⟩⟩
  | @orphaned id reason record hget hempty _ _ hreserved =>
    have hstep : RecordStep version sequence id record
        (.activityReconciliationRequired id 1 reason) _ := .orphaned hempty hreserved
    exact .of_step hget hstep (by rintro ⟨_, ⟨⟩⟩)
  | @quarantined id reason attempt record _ _ hget hfind hstatus =>
    have hstep : RecordStep version sequence id record
        (.activityReconciliationRequired id attempt reason) _ := .quarantined hfind hstatus
    exact .of_step hget hstep (by rintro ⟨_, ⟨⟩⟩)
  | @reconciled id attempt resolution record _ hget hfind hstatus =>
    have hstep : RecordStep version sequence id record
        (.activityReconciled id attempt resolution) _ := .reconciled hfind <|
      hstatus.imp_right fun hattest => (isTerminalLegacyAttestation_eq_true hattest).2.2
    exact .of_step hget hstep (by rintro ⟨_, ⟨⟩⟩)

/-! ### What a completed run has left open -/

/-- A migration quarantined the activity: it is a terminal audit of a v1 log, which a v1 event
scheduled, and a later event recorded that it was never started. -/
structure LegacyQuarantined (s : RunState) (id : String) (r : ActivityRecord) : Prop where
  step : r.definition.stableStepId = legacyRunStoppedAuditStepId
  scheduled : ∃ e ∈ s.events, beforeV2 e.schemaVersion = true ∧
    e.kind = .activityScheduled r.definition
  quarantined : ∃ e ∈ s.events, beforeV2 e.schemaVersion = false ∧
    ∃ reason, e.kind = .activityReconciliationRequired id 1 reason

/-- A completed run has no approval pending and no attempt running, and awaits no reconciliation
but of what a migration quarantined. -/
structure Concluded (s : RunState) : Prop where
  pending : s.NonePending
  running : s.NoneRunning
  awaiting : ∀ (id : String) (r : ActivityRecord), s.projection.activities[id]? = some r →
    r.awaitsReconciliation = true → s.LegacyQuarantined id r

/-- Only a v1 event schedules a legacy terminal audit. -/
theorem version_of_checkSchedule {definition : ActivityDefinition}
    (h : s.checkSchedule version definition = .ok ())
    (hstep : definition.stableStepId = legacyRunStoppedAuditStepId) : beforeV2 version = true := by
  by_contra hversion
  unfold checkSchedule at h
  rw [if_neg hversion] at h
  simp only [checkV2Schedule, validateReservedAuditSchedule, bind_eq_ok, exists_unit,
    refuseIf_eq_ok] at h
  exact h.2.1 hstep

/-- A legacy terminal audit was scheduled by a v1 event of the log. -/
theorem Logged.legacy_scheduled (hs : Logged s) : s.Satisfies fun _ r =>
    r.definition.stableStepId = legacyRunStoppedAuditStepId →
      ∃ e ∈ s.events, beforeV2 e.schemaVersion = true ∧ e.kind = .activityScheduled r.definition := by
  induction hs with
  | opened ho h =>
    refine (ho.opened h.2).satisfies fun _ r _ hstep hlegacy => ?_
    simp [isReservedStep, hlegacy] at hstep
  | @extended s t e hs h ih =>
    obtain ⟨u, htransition, rfl⟩ := hs.transition h.2
    have hold : s.Satisfies fun _ r => r.definition.stableStepId = legacyRunStoppedAuditStepId →
        ∃ e' ∈ (u.pushEvent e).events, beforeV2 e'.schemaVersion = true ∧
          e'.kind = .activityScheduled r.definition := by
      refine ih.mono fun _ r hr hlegacy => ?_
      obtain ⟨e', he', hscheduled⟩ := hr hlegacy
      exact ⟨e', h.2.mem_events he', hscheduled⟩
    refine (htransition.satisfies ?_ ?_ hold).pushEvent
    · intro definition hkind _ _ hcheck hlegacy
      exact ⟨e, by simp, version_of_checkSchedule hcheck hlegacy, hkind⟩
    · intro id r r' _ hr hstep hlegacy
      rw [hstep.definition] at hlegacy ⊢
      exact hr hlegacy

/-- A run completes by the event that says so. -/
theorem Transition.completes (h : Transition s version sequence kind t)
    (ht : t.projection.status = .completed) :
    s.projection.status = .completed ∨
      (s.NonePending ∧ s.NoneAwaiting ∧ s.NoneRunning ∧ t = s.withStatus .completed none) := by
  cases h with
  | runCompleted _ _ hpending hawaiting hnone => exact .inr ⟨hpending, hawaiting, hnone, rfl⟩
  | activityOrphaned =>
    dsimp only at ht
    split at ht
    · exact .inl ht
    · cases ht
  | activityQuarantined =>
    dsimp only at ht
    split at ht
    · exact .inl ht
    · cases ht
  | activityReconciled =>
    dsimp only at ht
    split at ht
    · cases ht
    · exact .inl ht
  | approvalRequested => cases ht
  | runPaused => cases ht
  | runResumed => cases ht
  | runRewound => cases ht
  | runFailed => cases ht
  | runCancelled => cases ht
  | _ => exact .inl ht

theorem LegacyQuarantined.accepts {r' : ActivityRecord}
    (h : s.LegacyQuarantined id r) (hdefinition : r'.definition = r.definition)
    (he : Accepts s e t) : t.LegacyQuarantined id r' := by
  obtain ⟨hstep, ⟨e₁, he₁, hscheduled⟩, ⟨e₂, he₂, hquarantined⟩⟩ := h
  rw [← hdefinition] at hstep hscheduled
  exact ⟨hstep, ⟨e₁, he.mem_events he₁, hscheduled⟩, ⟨e₂, he.mem_events he₂, hquarantined⟩⟩

omit [Digest] in
/-- An attempt that is settled otherwise does not make its record await reconciliation. -/
theorem awaits_setAttempt {found new : ActivityAttempt}
    (hfind : r.findAttempt attempt = some found) (hnew : new.status ≠ .reconcileRequired)
    (h : (r.setAttempt attempt new).awaitsReconciliation = true) : r.awaitsReconciliation = true := by
  obtain ⟨latest, hlatest, hstatus⟩ := (Option.any_eq_true _ _).mp h
  have hlength := (latestAttempt_eq_some.mp hlatest).1
  rw [length_setAttempt] at hlength
  obtain ⟨old, hold⟩ : ∃ old, r.latestAttempt = some old :=
    ⟨_, latestAttempt_eq_some.mpr ⟨hlength, List.getElem?_eq_getElem (by omega)⟩⟩
  have hcases : (found = old ∧ (r.setAttempt attempt new).latestAttempt = some new) ∨
      (r.setAttempt attempt new).latestAttempt = some old := latestAttempt_setAttempt hfind hold
  rcases hcases with ⟨-, hset⟩ | hset
  · rw [hset] at hlatest
    cases hlatest
    exact absurd (of_decide_eq_true hstatus) hnew
  · rw [hset] at hlatest
    cases hlatest
    exact (Option.any_eq_true _ _).mpr ⟨latest, hold, hstatus⟩

/-- A run that has concluded stays so. -/
theorem Concluded.step (hs : Logged s) (hconcluded : s.Concluded)
    (hcompleted : s.projection.status = .completed) (h : Replays s e t) : t.Concluded := by
  obtain ⟨u, htransition, rfl⟩ := hs.transition h.2
  have hafterwards := htransition.afterwards (by rw [hcompleted]; rfl)
  have hfrozen := hafterwards.frozen
  refine ⟨?_, ?_, ?_⟩
  · intro id p hp
    generalize hkind : e.kind = kind at hafterwards
    cases hafterwards with
    | kept _ hprojection =>
      rw [pushEvent_projection, hprojection] at hp
      exact hconcluded.pending id p hp
    | resolved _ hget hpending => exact absurd hpending (hconcluded.pending _ _ hget)
    | _ => exact hconcluded.pending id p hp
  · intro id r' hr' a ha hrunning
    obtain ⟨r, hr, hsince⟩ := hfrozen.activities id r' hr'
    obtain ⟨i, hi⟩ := List.getElem?_of_mem ha
    exact hconcluded.running id r hr a (List.mem_of_getElem? (hsince.running i a hi hrunning)) hrunning
  · intro id r' hr' hawaits
    generalize hkind : e.kind = kind at hafterwards
    cases hafterwards with
    | kept _ hprojection =>
      rw [pushEvent_projection, hprojection] at hr'
      exact (hconcluded.awaiting id r' hr' hawaits).accepts rfl h.2
    | resolved => exact (hconcluded.awaiting id r' hr' hawaits).accepts rfl h.2
    | @orphaned id' reason record hget hempty hversion hstep hreserved =>
      rcases BTreeMap.get_insert_eq_some hr' with ⟨rfl, rfl⟩ | ⟨-, hold⟩
      · obtain ⟨e', he', hscheduled⟩ := hs.legacy_scheduled.current _ record hget hstep
        exact ⟨hstep, ⟨e', h.2.mem_events he', hscheduled⟩, e, by simp, hversion, reason, hkind⟩
      · exact (hconcluded.awaiting id r' hold hawaits).accepts rfl h.2
    | quarantined hget _ _ hlatest hrunning =>
      exact absurd hrunning (hconcluded.running _ _ hget _ (List.mem_of_getLast? hlatest))
    | @reconciled _ _ resolution _ _ hget hfind _ =>
      rcases BTreeMap.get_insert_eq_some hr' with ⟨rfl, rfl⟩ | ⟨-, hold⟩
      · have hbefore := awaits_setAttempt hfind (by cases resolution <;> simp [resolveAttempt]) hawaits
        exact (hconcluded.awaiting _ _ hget hbefore).accepts rfl h.2
      · exact (hconcluded.awaiting id r' hold hawaits).accepts rfl h.2

/-- **A completed run has nothing open**, but for what a migration quarantined. -/
theorem Logged.concluded (hs : Logged s) (hcompleted : s.projection.status = .completed) :
    s.Concluded := by
  induction hs with
  | opened ho h =>
    have hopen := (ho.opened h.2).status
    rw [hcompleted] at hopen
    cases hopen
  | @extended s t e hs h ih =>
    by_cases hbefore : s.projection.status = .completed
    · exact (ih hbefore).step hs hbefore h
    · obtain ⟨u, htransition, rfl⟩ := hs.transition h.2
      obtain ⟨hpending, hawaiting, hnone, rfl⟩ :=
        (htransition.completes hcompleted).resolve_left hbefore
      refine ⟨hpending, hnone, fun id r hr hawaits => ?_⟩
      rw [hawaiting id r hr] at hawaits
      cases hawaits

/-- **A finished run stays finished.** An event that it accepts, of any kind and content, leaves
its status, its state, its artifacts and its checkpoints, schedules no activity and starts no
attempt; and a completed run has nothing open, but for what a migration quarantined. -/
theorem Reachable.finished (hs : Reachable s) :
    (s.projection.status.isTerminal = true → ∀ e outcome t,
      (appendEvent e).run s = .ok outcome t → s.Frozen t) ∧
    (s.projection.status = .completed → s.Concluded) := by
  refine ⟨fun hterminal e outcome t h => ?_, hs.logged.concluded⟩
  rcases tryAppend_eq_ok.mp (run_appendEvent_eq_ok.mp h).2 with ⟨_, _, _, _, _, _, rfl⟩ | ⟨haccepts, _⟩
  · exact ⟨rfl, rfl, rfl, rfl, fun _ r hr => ⟨r, hr, .refl⟩⟩
  · obtain ⟨u, htransition, rfl⟩ := hs.logged.transition haccepts
    have hfrozen := (htransition.afterwards hterminal).frozen
    exact ⟨hfrozen.status, hfrozen.state, hfrozen.artifacts, hfrozen.checkpoints, hfrozen.activities⟩

/-- A run that completes an activity, has a call approved, and is completed. -/
def finishedLog : List RunEvent :=
  logOf "r" [("1", .runStarted "s" .sync "b"),
    ("2", .activityScheduled ⟨"a", "step", "key", .null, stableInputHash .null, .pure, none⟩),
    ("3", .activityAttemptStarted "a" 1),
    ("4", .activityAttemptCompleted "a" 1 .null (stableInputHash .null)),
    ("5", .approvalRequested "p" "call" none "Allow tool?" .null),
    ("6", .approvalResolved "p" true none),
    ("7", .runResumed),
    ("8", .runCompleted)]

omit [Digest] in
/-- The log is accepted up to its end. -/
theorem accepts_finishedLog :
    ∃ s, @fromEvents sha256 (@finishedLog sha256) = .ok s ∧ s.projection.status = .completed ∧
      (∃ r, s.projection.activities["a"]? = some r ∧ ∃ a, r.findAttempt 1 = some a ∧ a.status = .completed) ∧
      ∃ p, s.projection.approvals["p"]? = some p ∧ p.status = .approved := by
  rw [sha256_eq_quick]
  decide +kernel

omit [Digest] in
/-- The run has nothing open, and is left as it is by whatever event it accepts. -/
theorem finished_finishedLog :
    ∃ s, @fromEvents sha256 (@finishedLog sha256) = .ok s ∧ s.Concluded ∧
      (∃ r, s.projection.activities["a"]? = some r ∧ ∃ a, r.findAttempt 1 = some a ∧ a.status = .completed) ∧
      (∃ p, s.projection.approvals["p"]? = some p ∧ p.status = .approved) ∧
      ∀ e outcome t, (@appendEvent sha256 e).run s = .ok outcome t → s.Frozen t := by
  obtain ⟨s, hs, hcompleted, hactivity, happroval⟩ := accepts_finishedLog
  let inst : Digest := sha256
  have hfinished := Reachable.finished (.fromEvents hs)
  exact ⟨s, hs, hfinished.2 hcompleted, hactivity, happroval, hfinished.1 (by rw [hcompleted]; rfl)⟩

end RunState

end

end AikitRuntime.Durability
