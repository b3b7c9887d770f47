import AikitRuntime.Durability.Log

/-!
# Activities and their attempts

An event touches at most one activity, and at most one of its attempts. `RecordStep` is
what it can do to the record of that activity; `Reshapes` is what it can do to the
activities of the run: nothing, schedule one, step one, or go back to a checkpoint's.

`Transition.satisfies` turns this into a rule: a property of records that fresh records
have and that every `RecordStep` preserves is a property of every record of the run, and
of every record that a checkpoint can bring back. `Sensible` is the property that holds of
every run, whoever wrote its events.
-/

namespace AikitRuntime.Durability

open Library

namespace ActivityRecord

variable {r : ActivityRecord} {attempt : Nat} {found new : ActivityAttempt}

/-! ### Finding and replacing an attempt -/

/-- The attempt that a search finds stands somewhere, and is replaced there. -/
theorem exists_index_of_find : ∀ {l : List ActivityAttempt},
    l.find? (·.attempt = attempt) = some found →
      ∃ i, l[i]? = some found ∧ found.attempt = attempt ∧
        (∀ j a, j < i → l[j]? = some a → a.attempt ≠ attempt) ∧
          ∀ new, replaceAttempt attempt new l = l.set i new
  | [], h => by cases h
  | a :: rest, h => by
    by_cases ha : a.attempt = attempt
    · rw [List.find?_cons_of_pos (by simpa using ha), Option.some.injEq] at h
      subst h
      exact ⟨0, rfl, ha, fun j _ hj => absurd hj (Nat.not_lt_zero j), fun new => by
        simp [replaceAttempt, ha]⟩
    · rw [List.find?_cons_of_neg (by simpa using ha)] at h
      obtain ⟨i, hi, hfound, hbefore, hset⟩ := exists_index_of_find h
      refine ⟨i + 1, hi, hfound, ?_, fun new => by simp [replaceAttempt, ha, hset]⟩
      intro j b hj hb
      cases j with
      | zero => cases hb; exact ha
      | succ j => exact hbefore j b (by omega) hb

theorem exists_index (h : r.findAttempt attempt = some found) :
    ∃ i, r.attempts[i]? = some found ∧ found.attempt = attempt ∧
      (∀ j a, j < i → r.attempts[j]? = some a → a.attempt ≠ attempt) ∧
        ∀ new, (r.setAttempt attempt new).attempts = r.attempts.set i new :=
  exists_index_of_find h

@[simp] theorem setAttempt_definition : (r.setAttempt attempt new).definition = r.definition := rfl

@[simp] theorem pushAttempt_definition : (r.pushAttempt new).definition = r.definition := rfl

@[simp] theorem pushAttempt_attempts : (r.pushAttempt new).attempts = r.attempts ++ [new] := rfl

@[simp] theorem latestAttempt_pushAttempt : (r.pushAttempt new).latestAttempt = some new := by
  simp [latestAttempt]

theorem latestAttempt_eq_some : r.latestAttempt = some found ↔
    0 < r.attempts.length ∧ r.attempts[r.attempts.length - 1]? = some found := by
  rw [latestAttempt, List.getLast?_eq_getElem?]
  refine ⟨fun h => ⟨?_, h⟩, fun h => h.2⟩
  have hlength := (List.getElem?_eq_some_iff.mp h).1
  omega

theorem attempt_of_find (h : r.findAttempt attempt = some found) : found.attempt = attempt :=
  have ⟨_, _, hfound, _⟩ := exists_index h
  hfound

/-- The attempt that replaced another is found in its place. -/
theorem findAttempt_setAttempt (h : r.findAttempt attempt = some found)
    (hnew : new.attempt = attempt) :
    (r.setAttempt attempt new).findAttempt attempt = some new := by
  unfold findAttempt setAttempt at *
  dsimp only at *
  generalize r.attempts = l at h
  induction l with
  | nil => cases h
  | cons a rest ih =>
    by_cases ha : a.attempt = attempt
    · simp [replaceAttempt, ha, hnew]
    · rw [List.find?_cons_of_neg (by simpa using ha)] at h
      simpa [replaceAttempt, ha] using ih h

/-- What each attempt is, by its place. -/
def EachAttempt (r : ActivityRecord) (P : Nat → ActivityAttempt → Prop) : Prop :=
  ∀ (i : Nat) (a : ActivityAttempt), r.attempts[i]? = some a → P i a

variable {P : Nat → ActivityAttempt → Prop}

theorem EachAttempt.push (h : r.EachAttempt P)
    (hnew : P r.attempts.length new) : (r.pushAttempt new).EachAttempt P := by
  intro i a ha
  rw [pushAttempt_attempts] at ha
  by_cases hi : i < r.attempts.length
  · rw [List.getElem?_append_left hi] at ha
    exact h i a ha
  · rw [List.getElem?_append_right (by omega), List.getElem?_singleton] at ha
    split at ha
    · next hzero =>
      cases ha
      rwa [show i = r.attempts.length by omega]
    · cases ha

theorem EachAttempt.set (h : r.EachAttempt P)
    (hfind : r.findAttempt attempt = some found)
    (hnew : ∀ i, r.attempts[i]? = some found → P i found → P i new) :
    (r.setAttempt attempt new).EachAttempt P := by
  obtain ⟨i, hi, -, -, hset⟩ := exists_index hfind
  intro j a ha
  rw [hset, List.getElem?_set] at ha
  split at ha
  · next hij =>
    subst hij
    split at ha
    · cases ha
      exact hnew i hi (h i found hi)
    · cases ha
  · exact h j a ha

/-- What every attempt but the last one is. -/
def Superseded (r : ActivityRecord) (P : ActivityAttempt → Prop) : Prop :=
  r.EachAttempt fun i a => i + 1 < r.attempts.length → P a

theorem Superseded.push {P : ActivityAttempt → Prop} (h : r.Superseded P)
    (hlatest : ∀ latest, r.latestAttempt = some latest → P latest) :
    (r.pushAttempt new).Superseded P := by
  intro i a ha hi
  rw [pushAttempt_attempts, List.length_append, List.length_singleton] at hi
  rw [pushAttempt_attempts, List.getElem?_append_left (by omega)] at ha
  by_cases hlast : i + 1 < r.attempts.length
  · exact h i a ha hlast
  · refine hlatest a ?_
    rw [latestAttempt, List.getLast?_eq_getElem?, ← ha]
    congr 1
    omega

@[simp] theorem length_setAttempt : (r.setAttempt attempt new).attempts.length = r.attempts.length := by
  unfold setAttempt
  dsimp only
  induction r.attempts with
  | nil => rfl
  | cons a rest ih =>
    unfold replaceAttempt
    split
    · rfl
    · simp [ih]

theorem Superseded.set {P : ActivityAttempt → Prop} (h : r.Superseded P)
    (hfind : r.findAttempt attempt = some found)
    (hnew : ∀ i, r.attempts[i]? = some found → i + 1 < r.attempts.length → P found → P new) :
    (r.setAttempt attempt new).Superseded P := by
  unfold Superseded
  rw [length_setAttempt]
  exact EachAttempt.set h hfind fun i hi hold hlast => hnew i hi hlast (hold hlast)

/-- A replaced attempt is the last one, or the last one stays. -/
theorem latestAttempt_setAttempt {latest : ActivityAttempt} (hfind : r.findAttempt attempt = some found)
    (hlatest : r.latestAttempt = some latest) :
    (found = latest ∧ (r.setAttempt attempt new).latestAttempt = some new) ∨
      (r.setAttempt attempt new).latestAttempt = some latest := by
  obtain ⟨i, hi, -, -, hset⟩ := exists_index hfind
  obtain ⟨hpos, hlast⟩ := latestAttempt_eq_some.mp hlatest
  have hlength := (List.getElem?_eq_some_iff.mp hi).1
  simp only [latestAttempt_eq_some, hset, List.length_set]
  by_cases hlasti : i = r.attempts.length - 1
  · subst hlasti
    rw [hi] at hlast
    cases hlast
    exact .inl ⟨rfl, hpos, List.getElem?_set_self hlength⟩
  · rw [List.getElem?_set_ne hlasti]
    exact .inr ⟨hpos, hlast⟩

/-! ### What an event does to a record -/

section
variable [Digest]

/-- What an event of a kind can do to the record of an activity. -/
inductive RecordStep (version sequence : Nat) (id : String) (r : ActivityRecord) :
    RunEventKind → ActivityRecord → Prop where
  | started (hretry : r.MayRetry) :
      RecordStep version sequence id r (.activityAttemptStarted id r.nextAttempt)
        (r.pushAttempt (RunState.startedAttempt r.nextAttempt sequence))
  | completed {attempt : Nat} {output : Value} {found : ActivityAttempt}
      (hfind : r.findAttempt attempt = some found) (hstatus : found.status = .running) :
      RecordStep version sequence id r
        (.activityAttemptCompleted id attempt output (stableInputHash output))
        (r.setAttempt attempt (completedAttempt found sequence output (stableInputHash output)))
  | failed {attempt : Nat} {error : String} {retryable effectAmbiguous : Bool}
      {found : ActivityAttempt} (hreserved : beforeV2 version = true ∨ isReservedAuditActivity r = false)
      (hfind : r.findAttempt attempt = some found) (hstatus : found.status = .running) :
      RecordStep version sequence id r
        (.activityAttemptFailed id attempt error retryable effectAmbiguous)
        (r.setAttempt attempt (failedAttempt found sequence error retryable effectAmbiguous))
  | cancelled {attempt : Nat} {reason : String} {found : ActivityAttempt}
      (hreserved : isReservedAuditActivity r = false)
      (hfind : r.findAttempt attempt = some found) (hstatus : found.status = .running) :
      RecordStep version sequence id r (.activityAttemptCancelled id attempt reason)
        (r.setAttempt attempt (cancelledAttempt found sequence reason))
  | orphaned {reason : String} (hempty : r.attempts = [])
      (hreserved : isReservedAuditActivity r = true) :
      RecordStep version sequence id r (.activityReconciliationRequired id 1 reason)
        (r.pushAttempt (RunState.orphanAttempt 1 sequence reason))
  | quarantined {attempt : Nat} {reason : String} {found : ActivityAttempt}
      (hfind : r.findAttempt attempt = some found) (hstatus : found.Unsettled) :
      RecordStep version sequence id r (.activityReconciliationRequired id attempt reason)
        (r.setAttempt attempt (quarantinedAttempt found sequence reason))
  | reconciled {attempt : Nat} {resolution : ActivityReconciliation} {found : ActivityAttempt}
      (hfind : r.findAttempt attempt = some found)
      (hstatus : found.status = .reconcileRequired ∨
        ∃ output latest, resolution = .completed output ∧ r.latestAttempt = some latest ∧
          latest.status ≠ .completed) :
      RecordStep version sequence id r (.activityReconciled id attempt resolution)
        (r.setAttempt attempt (RunState.resolveAttempt sequence found resolution))

/-- No event changes an activity's definition. -/
theorem RecordStep.definition {version sequence : Nat} {id : String} {kind : RunEventKind}
    {r' : ActivityRecord} (h : RecordStep version sequence id r kind r') :
    r'.definition = r.definition := by
  cases h <;> rfl

end

end ActivityRecord

open ActivityRecord

/-- The event takes a run back to a checkpoint. -/
def RunEventKind.IsRewind (kind : RunEventKind) : Prop :=
  ∃ checkpointId branchId reconciled, kind = .runRewound checkpointId branchId reconciled

/-- The event starts an attempt of the activity. -/
def RunEventKind.Starts (kind : RunEventKind) (id : String) : Prop :=
  ∃ attempt, kind = .activityAttemptStarted id attempt

variable {r : ActivityRecord}

/-- What a fork keeps is not of a reserved step. -/
theorem step_of_survivesFork {terminalId id : String}
    (h : survivesFork terminalId id r = true) : isReservedStep r.definition.stableStepId = false := by
  simp only [survivesFork, Bool.and_eq_true, Bool.not_eq_true'] at h
  exact h.1

theorem isReservedStep_of_reserved (h : isReservedAuditActivity r = true) :
    isReservedStep r.definition.stableStepId = true := by
  unfold isReservedStep
  rcases step_of_isReservedAuditActivity h with hlegacy | hv2
  · simp [hlegacy]
  · simp [hv2]

section
variable [Digest]

variable {branchId runId : String} {c : Checkpoint}

@[simp] theorem forkProjection_activities :
    (forkProjection c runId branchId).activities =
      BTreeMap.retain (survivesFork (terminalActivityId runId branchId)) c.projection.activities := by
  unfold forkProjection
  dsimp only
  split
  · rfl
  · split <;> rfl

theorem get_forkProjection_activities {id : String}
    {r : ActivityRecord} (h : (forkProjection c runId branchId).activities[id]? = some r) :
    c.projection.activities[id]? = some r ∧ isReservedStep r.definition.stableStepId = false := by
  rw [forkProjection_activities, BTreeMap.get_retain] at h
  exact ⟨h.1, step_of_survivesFork h.2⟩

namespace RunState

variable {s t : RunState} {e : RunEvent} {version sequence : Nat} {kind : RunEventKind}

/-! ### What an event does to the activities of a run -/

/-- What an accepted event does to the activities. -/
inductive Reshapes (s : RunState) (version sequence : Nat) (kind : RunEventKind) (t : RunState) :
    Prop where
  | kept (h : t.projection.activities = s.projection.activities)
  | scheduled {definition : ActivityDefinition} (hkind : kind = .activityScheduled definition)
      (hfresh : s.projection.activities[definition.activityId]? = none)
      (hhash : stableInputHash definition.input = definition.inputHash)
      (hkey : definition.lacksIdempotencyKey = false)
      (hcheck : s.checkSchedule version definition = .ok ())
      (h : t.projection.activities =
        s.projection.activities.insert definition.activityId { definition, attempts := [] })
  | stepped {id : String} {r r' : ActivityRecord} (hget : s.projection.activities[id]? = some r)
      (hstep : RecordStep version sequence id r kind r')
      (h : t.projection.activities = s.projection.activities.insert id r')
  | rewound {checkpointId branchId : String} {reconciled : Bool} {stored checkpoint : Checkpoint}
      (hkind : kind = .runRewound checkpointId branchId reconciled)
      (hstored : s.checkpoints[checkpointId]? = some stored)
      (hcheckpoint : s.checkpointForCurrentRun stored = .ok checkpoint)
      (h : t.projection.activities = (forkProjection checkpoint s.runId branchId).activities)

omit [Digest] in
theorem isTerminalLegacyAttestation_eq_true {record : ActivityRecord}
    {resolution : ActivityReconciliation} (h : s.isTerminalLegacyAttestation record resolution = true) :
    s.projection.status.isTerminal = true ∧
      record.definition.stableStepId = legacyRunStoppedAuditStepId ∧
        ∃ output latest, resolution = .completed output ∧ record.latestAttempt = some latest ∧
          latest.status ≠ .completed := by
  cases resolution with
  | completed output =>
    simp only [isTerminalLegacyAttestation, Bool.and_eq_true, decide_eq_true_eq,
      Option.any_eq_true] at h
    obtain ⟨⟨hterminal, hstep⟩, latest, hlatest, hstatus⟩ := h
    exact ⟨hterminal, hstep, output, latest, rfl, hlatest, hstatus⟩
  | safeToRetry => cases h
  | cancelled => cases h

theorem Transition.reshapes (h : Transition s version sequence kind t) :
    Reshapes s version sequence kind t := by
  cases h with
  | activityScheduled _ hhash hkey hfresh hcheck => exact .scheduled rfl hfresh hhash hkey hcheck rfl
  | activityAttemptStarted _ _ hget hretry => exact .stepped hget (.started hretry) rfl
  | activityAttemptCompleted _ _ hget hfind hstatus =>
    exact .stepped hget (.completed hfind hstatus) rfl
  | activityAttemptFailed _ hcheck hget hfind hstatus =>
    exact .stepped hget (.failed hcheck hfind hstatus) rfl
  | activityAttemptCancelled _ _ hget hreserved hfind hstatus =>
    exact .stepped hget (.cancelled hreserved hfind hstatus) rfl
  | activityOrphaned _ _ hget hempty _ hreserved =>
    exact .stepped hget (.orphaned hempty hreserved) (by split <;> rfl)
  | activityQuarantined _ _ hget hfind hstatus =>
    exact .stepped hget (.quarantined hfind hstatus) (by dsimp only; split <;> rfl)
  | activityReconciled hget _ _ hfind hstatus =>
    refine .stepped hget (.reconciled hfind (hstatus.imp_right fun hattest => ?_))
      (by dsimp only; split <;> rfl)
    exact (isTerminalLegacyAttestation_eq_true hattest).2.2
  | runRewound _ hstored hcheckpoint _ => exact .rewound rfl hstored hcheckpoint rfl
  | _ => exact .kept rfl

variable {id : String} {r : ActivityRecord}

/-- What an event other than a rewind does to one record. -/
theorem Transition.record (h : Transition s version sequence kind t)
    (hkind : ¬ kind.IsRewind) (hget : s.projection.activities[id]? = some r) :
    ∃ r', t.projection.activities[id]? = some r' ∧
      (r' = r ∨ RecordStep version sequence id r kind r') := by
  cases h.reshapes with
  | kept hkept => exact ⟨r, by rwa [hkept], .inl rfl⟩
  | scheduled _ hfresh _ _ _ hinsert =>
    rw [hinsert]
    exact ⟨r, BTreeMap.get_insert_of_get hfresh hget, .inl rfl⟩
  | @stepped id' r₀ r' hget' hstep hinsert =>
    rw [hinsert]
    by_cases hid : id' = id
    · subst hid
      rw [hget] at hget'
      cases hget'
      exact ⟨r', BTreeMap.get_insert_self, .inr hstep⟩
    · exact ⟨r, by rw [BTreeMap.get_insert_of_ne hid, hget], .inl rfl⟩
  | rewound hrewind => exact absurd ⟨_, _, _, hrewind⟩ hkind

/-- What an accepted event does to the checkpoints. -/
theorem Transition.checkpoints (h : Transition s version sequence kind t) :
    t.checkpoints = s.checkpoints ∨
      ∃ checkpointId label, kind = .checkpointCommitted checkpointId label ∧
        s.checkpoints[checkpointId]? = none ∧
          t.checkpoints = s.checkpoints.insert checkpointId ⟨checkpointId, s.runId, sequence,
            s.projection.currentCheckpointId, label, s.projection⟩ := by
  cases h with
  | checkpointCommitted _ hfresh => exact .inr ⟨_, _, rfl, hfresh, rfl⟩
  | activityOrphaned => left; split <;> rfl
  | activityQuarantined => left; dsimp only; split <;> rfl
  | activityReconciled => left; dsimp only; split <;> rfl
  | _ => exact .inl rfl

/-! ### Properties of every record -/

/-- Every record of the run has the property, and every record that a checkpoint can bring
back: all of a checkpoint of the run itself, and what survives a fork of an inherited one. -/
structure Satisfies (s : RunState) (Q : String → ActivityRecord → Prop) : Prop where
  current : ∀ (id : String) (r : ActivityRecord), s.projection.activities[id]? = some r → Q id r
  stored : ∀ (checkpointId : String) (c : Checkpoint), s.checkpoints[checkpointId]? = some c →
    ∀ (id : String) (r : ActivityRecord), c.projection.activities[id]? = some r →
      c.runId = s.runId ∨ isReservedStep r.definition.stableStepId = false → Q id r

variable {checkpoint stored : Checkpoint}

/-- A checkpoint, as the run sees it. -/
theorem checkpointForCurrentRun_eq_ok
    (h : s.checkpointForCurrentRun stored = .ok checkpoint) :
    (stored.runId = s.runId ∧ checkpoint = stored) ∨
      ∃ version runId sequence eventId sessionId sourceRunId durability source branchId rest,
        stored.runId ≠ s.runId ∧
        s.events = ⟨version, runId, sequence, eventId,
          .forkedFrom sessionId sourceRunId durability source branchId⟩ :: rest ∧
        source.checkpointId = stored.checkpointId ∧ source.runId = stored.runId ∧
        checkpoint = { stored with
          projection := forkProjection stored s.runId branchId
          runId := s.runId
          eventSequence := sequence
          parentCheckpointId := none } := by
  unfold checkpointForCurrentRun at h
  split at h
  · next hrun =>
    cases h
    exact .inl ⟨hrun, rfl⟩
  · next hrun =>
    right
    split at h
    · next hhead =>
      simp only [bind_eq_ok, exists_unit, refuseIf_eq_ok, not_or, not_not, pure, Except.pure,
        Except.ok.injEq] at h
      obtain ⟨⟨hid, hsource⟩, rfl⟩ := h
      obtain ⟨rest, hrest⟩ := List.head?_eq_some_iff.mp hhead
      exact ⟨_, _, _, _, _, _, _, _, _, rest, hrun, hrest, hid, hsource, rfl⟩
    · cases h

variable {Q : String → ActivityRecord → Prop}

/-- A record of a checkpoint as the run sees it is one that the checkpoint brings back. -/
theorem Satisfies.of_checkpointForCurrentRun
    (hs : s.Satisfies Q) {checkpointId : String}
    (hstored : s.checkpoints[checkpointId]? = some stored)
    (hcheckpoint : s.checkpointForCurrentRun stored = .ok checkpoint) (hr : checkpoint.projection.activities[id]? = some r) : Q id r := by
  rcases checkpointForCurrentRun_eq_ok hcheckpoint with ⟨hrun, rfl⟩ |
    ⟨_, _, _, _, _, _, _, _, _, _, _, _, _, _, rfl⟩
  · exact hs.stored checkpointId checkpoint hstored id r hr (.inl hrun)
  · have ⟨hget, hstep⟩ := get_forkProjection_activities hr
    exact hs.stored checkpointId stored hstored id r hget (.inr hstep)

/-- **The rule of records, one event.** -/
theorem Transition.satisfies
    (h : Transition s version sequence kind t)
    (hnew : ∀ definition, kind = .activityScheduled definition →
      stableInputHash definition.input = definition.inputHash →
      definition.lacksIdempotencyKey = false → s.checkSchedule version definition = .ok () →
        Q definition.activityId { definition, attempts := [] })
    (hstep : ∀ id r r', s.projection.activities[id]? = some r → Q id r →
      RecordStep version sequence id r kind r' → Q id r')
    (hs : s.Satisfies Q) : t.Satisfies Q := by
  constructor
  · intro id r hr
    cases h.reshapes with
    | kept hkept => exact hs.current id r (hkept ▸ hr)
    | scheduled hkind _ hhash hkey hcheck hinsert =>
      rw [hinsert] at hr
      rcases BTreeMap.get_insert_eq_some hr with ⟨rfl, rfl⟩ | ⟨-, hold⟩
      · exact hnew _ hkind hhash hkey hcheck
      · exact hs.current id r hold
    | stepped hget hrecord hinsert =>
      rw [hinsert] at hr
      rcases BTreeMap.get_insert_eq_some hr with ⟨rfl, rfl⟩ | ⟨-, hold⟩
      · exact hstep _ _ _ hget (hs.current _ _ hget) hrecord
      · exact hs.current id r hold
    | rewound _ hstored hcheckpoint hrewound =>
      rw [hrewound] at hr
      exact hs.of_checkpointForCurrentRun hstored hcheckpoint (get_forkProjection_activities hr).1
  · intro checkpointId c hc id r hr hown
    rw [h.frame.2.1] at hown
    rcases h.checkpoints with hkept | ⟨_, _, _, _, hinsert⟩
    · exact hs.stored checkpointId c (hkept ▸ hc) id r hr hown
    · rw [hinsert] at hc
      rcases BTreeMap.get_insert_eq_some hc with ⟨-, rfl⟩ | ⟨-, hold⟩
      · exact hs.current id r hr
      · exact hs.stored checkpointId c hold id r hr hown

omit [Digest] in
theorem Satisfies.mono {Q' : String → ActivityRecord → Prop} (hs : s.Satisfies Q)
    (h : ∀ id r, Q id r → Q' id r) : s.Satisfies Q' :=
  ⟨fun id r hr => h id r (hs.current id r hr),
    fun checkpointId c hc id r hr hown => h id r (hs.stored checkpointId c hc id r hr hown)⟩

omit [Digest] in
/-- Logging an event is no change of records. -/
theorem Satisfies.pushEvent (hs : s.Satisfies Q) :
    (s.pushEvent e).Satisfies Q := ⟨hs.current, hs.stored⟩

variable {u : Unit}

theorem validateProjectionKeyedIdentities_eq_ok {projection : RunProjection} :
    validateProjectionKeyedIdentities projection = .ok u ↔
      (∀ (id : String) (r : ActivityRecord), projection.activities[id]? = some r →
          validateActivityEntry (id, r) = .ok ()) ∧
        (∀ (id : String) (p : DurableApproval), projection.approvals[id]? = some p →
          validateApprovalEntry (id, p) = .ok ()) ∧
        (∀ (id : String) (v : List ArtifactMetadata), projection.artifacts[id]? = some v →
          validateArtifactEntry (id, v) = .ok ()) := by
  simp only [validateProjectionKeyedIdentities, bind_eq_ok, exists_unit, firstRefusal_eq_ok]
  constructor
  · rintro ⟨hactivities, happrovals, hartifacts⟩
    exact ⟨fun id r hr => hactivities _ (BTreeMap.mem_toList.mpr hr),
      fun id p hp => happrovals _ (BTreeMap.mem_toList.mpr hp),
      fun id v hv => hartifacts _ (BTreeMap.mem_toList.mpr hv)⟩
  · rintro ⟨hactivities, happrovals, hartifacts⟩
    exact ⟨fun x hx => hactivities x.1 x.2 (BTreeMap.mem_toList.mp hx),
      fun x hx => happrovals x.1 x.2 (BTreeMap.mem_toList.mp hx),
      fun x hx => hartifacts x.1 x.2 (BTreeMap.mem_toList.mp hx)⟩

theorem validateSourceCheckpoint_eq_ok {destination source : String} {c : Checkpoint} :
    validateSourceCheckpoint destination source c = .ok u ↔
      ValidIdentifier c.checkpointId ∧ ValidIdentifier c.runId ∧
        ValidIdentifier c.projection.branchId ∧
          validateProjectionKeyedIdentities c.projection = .ok () ∧ source ≠ destination ∧
            c.runId = source ∧ c.eventSequence ≠ 0 := by
  simp only [validateSourceCheckpoint, bind_eq_ok, exists_unit, validateIdentifier_eq_ok,
    refuseIf_eq_ok, not_not]

/-! ### How the records of a run begin -/

/-- The run that a first event opened: a root, or a fork of a checkpoint. -/
inductive Opened (e : RunEvent) (t : RunState) : Prop where
  | root {sessionId branchId : String} {durability : DurabilityMode}
      (hkind : e.kind = .runStarted sessionId durability branchId)
      (ht : t = { blank sessionId e.runId durability { RunProjection.root e.runId with branchId } with
        events := [e] })
  | forked {sessionId sourceRunId branchId : String} {durability : DurabilityMode}
      {source : Checkpoint}
      (hkind : e.kind = .forkedFrom sessionId sourceRunId durability source branchId)
      (hsource : ValidIdentifier sourceRunId) (hbranch : ValidIdentifier branchId)
      (hvalid : validateSourceCheckpoint e.runId sourceRunId source = .ok ())
      (ht : t = { blank sessionId e.runId durability (forkProjection source e.runId branchId) with
        events := [e]
        parentRunId := some sourceRunId
        checkpoints := (∅ : BTreeMap Checkpoint).insert source.checkpointId source })

theorem Opens.opened {o : RunState} (ho : Opens o e) (h : Accepts o e t) : Opened e t := by
  obtain ⟨sessionId, durability, hopening, -, -, rfl⟩ := ho.opening
  obtain ⟨u, hu, rfl⟩ := h.applied
  rw [applyEventInPlace, show (blank sessionId e.runId durability _).events = [] from rfl] at hu
  cases hkind : e.kind with
  | runStarted sessionId' durability' branchId =>
    rw [hkind] at hu hopening
    cases hopening
    simp only [applyFirst, bind_eq_ok, exists_unit, refuseIf_eq_ok, pure, Except.pure,
      Except.ok.injEq] at hu
    obtain ⟨-, rfl⟩ := hu
    exact .root hkind rfl
  | forkedFrom sessionId' sourceRunId durability' source branchId =>
    rw [hkind] at hu hopening
    cases hopening
    simp only [applyFirst, bind_eq_ok, exists_unit, refuseIf_eq_ok, validateIdentifier_eq_ok, pure,
      Except.pure, Except.ok.injEq] at hu
    obtain ⟨-, hsource, hbranch, hvalid, rfl⟩ := hu
    exact .forked hkind hsource hbranch hvalid rfl
  | _ => rw [hkind] at hopening; cases hopening

theorem Opened.satisfies (h : Opened e t)
    (hfork : ∀ id r, validateActivityEntry (id, r) = .ok () →
      isReservedStep r.definition.stableStepId = false → Q id r) : t.Satisfies Q := by
  cases h with
  | root _ ht =>
    subst ht
    refine ⟨fun id r hr => ?_, fun id c hc => ?_⟩
    · rw [show (blank _ _ _ _).projection.activities = (∅ : BTreeMap ActivityRecord) from rfl,
        BTreeMap.get_empty] at hr
      cases hr
    · rw [show (blank _ _ _ _).checkpoints = (∅ : BTreeMap Checkpoint) from rfl,
        BTreeMap.get_empty] at hc
      cases hc
  | @forked _ _ _ _ source _ _ _ hvalid ht =>
    have hsource := validateSourceCheckpoint_eq_ok.mp hvalid
    have hentries := (validateProjectionKeyedIdentities_eq_ok.mp hsource.2.2.2.1).1
    subst ht
    constructor
    · intro id r hr
      have ⟨hget, hstep⟩ := get_forkProjection_activities hr
      exact hfork id r (hentries id r hget) hstep
    · intro checkpointId c hc id r hr hown
      rcases BTreeMap.get_insert_eq_some hc with ⟨-, rfl⟩ | ⟨-, hold⟩
      · rcases hown with hrun | hstep
        · exact absurd (hsource.2.2.2.2.2.1.symm.trans hrun) hsource.2.2.2.2.1
        · exact hfork id r (hentries id r hr) hstep
      · rw [BTreeMap.get_empty] at hold
        cases hold

/-- **The rule of records.** -/
theorem Logged.satisfies (hs : Logged s)
    (hfork : ∀ id r, validateActivityEntry (id, r) = .ok () →
      isReservedStep r.definition.stableStepId = false → Q id r)
    (hnew : ∀ (s : RunState) version definition,
      stableInputHash definition.input = definition.inputHash →
        definition.lacksIdempotencyKey = false → s.checkSchedule version definition = .ok () →
          Q definition.activityId { definition, attempts := [] })
    (hstep : ∀ version sequence kind id r r', 0 < sequence → Q id r →
      RecordStep version sequence id r kind r' → Q id r') : s.Satisfies Q := by
  induction hs with
  | opened ho h => exact (ho.opened h.2).satisfies hfork
  | @extended s t e hs h ih =>
    obtain ⟨u, htransition, rfl⟩ := hs.transition h.2
    have hpos : 0 < e.sequence := by
      rw [h.2.next, hs.nextSequence]
      exact Nat.succ_pos _
    exact (htransition.satisfies (fun definition _ => hnew s _ definition)
      (fun id r r' _ hr hrecord => hstep _ _ _ id r r' hpos hr hrecord) ih).pushEvent

/-! ### What holds of every record -/

/-- A reserved activity is scheduled as one that is never safe to repeat. -/
theorem class_of_checkSchedule {definition : ActivityDefinition} {attempts : List ActivityAttempt}
    (h : s.checkSchedule version definition = .ok ())
    (hreserved : isReservedAuditActivity ⟨definition, attempts⟩ = true) :
    definition.sideEffectClass = .reconcileRequired := by
  have hstep := step_of_isReservedAuditActivity hreserved
  dsimp only at hstep
  unfold checkSchedule at h
  split at h
  · simp only [checkV1Schedule, bind_eq_ok, exists_unit, refuseIf_eq_ok, not_and, not_or,
      not_not] at h
    obtain ⟨hv2, hlegacy⟩ := h
    rcases hstep with hstep | hstep
    · exact (hlegacy hstep).2.2.1
    · exact absurd hstep hv2
  · simp only [checkV2Schedule, validateReservedAuditSchedule, bind_eq_ok, exists_unit,
      refuseIf_eq_ok] at h
    obtain ⟨-, hlegacy, h⟩ := h
    rcases hstep with hstep | hstep
    · exact absurd hstep hlegacy
    · rw [hstep] at h
      simp only [Bool.true_eq_false, if_false, bind_eq_ok, exists_unit, refuseIf_eq_ok, not_or,
        not_not] at h
      exact h.1.2.1

end RunState

namespace ActivityRecord

variable {id : String} {r r' : ActivityRecord} {found : ActivityAttempt} {version sequence : Nat}
  {kind : RunEventKind}

/-- What holds of every record under its identity, whoever wrote the events. -/
structure Sensible (id : String) (r : ActivityRecord) : Prop where
  keyed : r.definition.activityId = id
  numbered : r.EachAttempt fun i a => a.attempt = (i + 1) % 2 ^ 32
  started : r.EachAttempt fun _ a => 0 < a.startedSequence
  payload : r.EachAttempt fun _ a => a.payloadMatchesStatus = true
  superseded : r.Superseded fun a => a.status ≠ .running
  reserved : isReservedAuditActivity r = true → r.definition.sideEffectClass = .reconcileRequired

variable {attempt : Nat} {new : ActivityAttempt}

theorem Sensible.set (h : r.Sensible id)
    (hfind : r.findAttempt attempt = some found) (hnumber : new.attempt = found.attempt)
    (hstarted : new.startedSequence = found.startedSequence)
    (hpayload : found.payloadMatchesStatus = true → new.payloadMatchesStatus = true)
    (hsettled : new.status ≠ .running) : (r.setAttempt attempt new).Sensible id where
  keyed := h.keyed
  numbered := h.numbered.set hfind fun _ _ hnum => hnumber.trans hnum
  started := h.started.set hfind fun _ _ hpos => by rwa [hstarted]
  payload := h.payload.set hfind fun _ _ => hpayload
  superseded := h.superseded.set hfind fun _ _ _ _ => hsettled
  reserved := h.reserved

theorem Sensible.push (h : r.Sensible id)
    (hnumber : new.attempt = r.nextAttempt) (hstarted : 0 < new.startedSequence)
    (hpayload : new.payloadMatchesStatus = true)
    (hlatest : ∀ latest, r.latestAttempt = some latest → latest.status ≠ .running) :
    (r.pushAttempt new).Sensible id where
  keyed := h.keyed
  numbered := h.numbered.push (by rw [hnumber, nextAttempt]; omega)
  started := h.started.push hstarted
  payload := h.payload.push hpayload
  superseded := h.superseded.push hlatest
  reserved := h.reserved

/-- A running attempt is the last one, and so is what it becomes. -/
theorem Sensible.latestAttempt (h : r.Sensible id)
    (hfind : r.findAttempt attempt = some found) (hstatus : found.status = .running) :
    r.latestAttempt = some found ∧
      ∀ new, (r.setAttempt attempt new).latestAttempt = some new := by
  obtain ⟨i, hi, -, -, hset⟩ := exists_index hfind
  have hlength := (List.getElem?_eq_some_iff.mp hi).1
  have hlast : i = r.attempts.length - 1 := by
    by_contra hne
    exact h.superseded i found hi (by omega) hstatus
  subst hlast
  refine ⟨latestAttempt_eq_some.mpr ⟨by omega, hi⟩, fun new => latestAttempt_eq_some.mpr ?_⟩
  rw [length_setAttempt, hset]
  exact ⟨by omega, List.getElem?_set_self hlength⟩

omit [Digest] in
/-- Settling an attempt other than by a completion keeps what is completed. -/
theorem completedOutput_setAttempt
    (hfind : r.findAttempt attempt = some found) (hfound : found.status ≠ .completed)
    (hnew : new.status ≠ .completed) :
    (r.setAttempt attempt new).completedOutput = r.completedOutput := by
  obtain ⟨i, hi, -, -, hset⟩ := exists_index hfind
  unfold completedOutput
  rw [hset, ← List.head?_filter, ← List.head?_filter, List.filter_reverse, List.filter_reverse]
  congr 3
  clear hset
  generalize r.attempts = l at hi
  induction l generalizing i with
  | nil => rfl
  | cons a rest ih =>
    cases i with
    | zero =>
      cases hi
      simp [hfound, hnew]
    | succ i =>
      rw [List.set_cons_succ, List.filter_cons, List.filter_cons, ih i hi]

theorem payload_completedAttempt {output : Value} (h : found.payloadMatchesStatus = true)
    (hstatus : found.status = .running) :
    (completedAttempt found sequence output (stableInputHash output)).payloadMatchesStatus = true := by
  simp only [ActivityAttempt.payloadMatchesStatus, hstatus, Bool.and_eq_true] at h
  simp [ActivityAttempt.payloadMatchesStatus, completedAttempt, h]

/-- A running or failed attempt has no output, nor has one that awaits reconciliation. -/
theorem output_eq_none (h : found.payloadMatchesStatus = true)
    (hstatus : found.Unsettled ∨ found.status = .reconcileRequired) :
    found.output = none ∧ found.outputHash = none := by
  unfold ActivityAttempt.payloadMatchesStatus at h
  rcases hstatus with (hstatus | hstatus) | hstatus <;>
    simp only [hstatus, Bool.and_eq_true, Option.isNone_iff_eq_none] at h <;> simp [h]

theorem payload_resolveAttempt {resolution : ActivityReconciliation}
    (h : found.payloadMatchesStatus = true)
    (hstatus : found.status = .reconcileRequired ∨ ∃ output, resolution = .completed output) :
    (RunState.resolveAttempt sequence found resolution).payloadMatchesStatus = true := by
  cases resolution with
  | completed output => simp [ActivityAttempt.payloadMatchesStatus, RunState.resolveAttempt]
  | safeToRetry =>
    have hnone := output_eq_none h (.inr (by simpa using hstatus))
    simp [ActivityAttempt.payloadMatchesStatus, RunState.resolveAttempt, hnone]
  | cancelled =>
    have hnone := output_eq_none h (.inr (by simpa using hstatus))
    simp [ActivityAttempt.payloadMatchesStatus, RunState.resolveAttempt, hnone]

theorem RecordStep.sensible (h : RecordStep version sequence id r kind r') (hpos : 0 < sequence)
    (hr : r.Sensible id) : r'.Sensible id := by
  cases h with
  | started hretry =>
    refine hr.push rfl hpos rfl fun latest hlatest => ?_
    rw [(hretry latest hlatest).1]
    decide
  | completed hfind hstatus =>
    exact hr.set hfind rfl rfl (fun h => payload_completedAttempt h hstatus)
      (by simp [completedAttempt])
  | failed _ hfind hstatus =>
    refine hr.set hfind rfl rfl (fun h => ?_) (by simp [failedAttempt])
    have hnone := output_eq_none h (.inl (.inl hstatus))
    simp [ActivityAttempt.payloadMatchesStatus, failedAttempt, hnone]
  | cancelled _ hfind hstatus =>
    refine hr.set hfind rfl rfl (fun h => ?_) (by simp [cancelledAttempt])
    have hnone := output_eq_none h (.inl (.inl hstatus))
    simp [ActivityAttempt.payloadMatchesStatus, cancelledAttempt, hnone]
  | orphaned hempty =>
    refine hr.push (by simp [nextAttempt, hempty, RunState.orphanAttempt]) hpos rfl ?_
    intro latest hlatest
    rw [latestAttempt, hempty] at hlatest
    cases hlatest
  | quarantined hfind hstatus =>
    refine hr.set hfind rfl rfl (fun h => ?_) (by simp [quarantinedAttempt])
    have hnone := output_eq_none h (.inl hstatus)
    simp [ActivityAttempt.payloadMatchesStatus, quarantinedAttempt, hnone]
  | @reconciled _ resolution _ hfind hstatus =>
    refine hr.set hfind ?_ ?_ (fun h => payload_resolveAttempt h ?_) ?_
    · cases resolution <;> rfl
    · cases resolution <;> rfl
    · exact hstatus.imp_right fun ⟨output, _, hresolution, _⟩ => ⟨output, hresolution⟩
    · cases resolution <;> simp [RunState.resolveAttempt]

/-- A record that an imported checkpoint may bring is sensible. -/
theorem sensible_of_validateActivityEntry (h : validateActivityEntry (id, r) = .ok ())
    (hstep : isReservedStep r.definition.stableStepId = false) : r.Sensible id := by
  simp only [validateActivityEntry, bind_eq_ok, exists_unit, refuseIf_eq_ok, not_not,
    firstRefusal_eq_ok, Prod.forall] at h
  obtain ⟨hkey, -, -, -, -, -, hattempts⟩ := h
  have hentry : ∀ i a, r.attempts[i]? = some a → validateAttemptEntry r (a, i) = .ok () :=
    fun i a ha => hattempts a i (List.mem_zipIdx_iff_getElem?.mpr ha)
  simp only [validateAttemptEntry, bind_eq_ok, exists_unit, refuseIf_eq_ok, not_or, not_not,
    Bool.not_eq_false, not_and, Nat.not_le] at hentry
  constructor
  · exact hkey.symm
  · intro i a ha
    have hcounter := (hentry i a ha).1
    rw [(hentry i a ha).2.1.1, Nat.mod_eq_of_lt hcounter]
  · exact fun i a ha => Nat.pos_of_ne_zero (hentry i a ha).2.1.2
  · exact fun i a ha => (hentry i a ha).2.2.2.1
  · intro i a ha hi
    rw [((hentry i a ha).2.2.2.2 hi).1]
    decide
  · intro hreserved
    rw [isReservedStep_of_reserved hreserved] at hstep
    cases hstep

end ActivityRecord

/-- **Every record of every run is sensible.** -/
theorem RunState.Logged.sensible {s : RunState} (hs : s.Logged) : s.Satisfies Sensible := by
  refine hs.satisfies (fun id r => sensible_of_validateActivityEntry) ?_
    fun _ _ _ _ _ _ hpos hr hstep => hstep.sensible hpos hr
  intro s version definition _ _ hcheck
  refine ⟨rfl, ?_, ?_, ?_, ?_, fun hreserved => class_of_checkSchedule hcheck hreserved⟩ <;>
    exact fun i a ha => by cases ha

end

end AikitRuntime.Durability
