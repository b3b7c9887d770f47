import AikitRuntime.Durability.Reach
import AikitRuntime.Durability.QuickDigest

/-!
# What an acknowledged completion and start stand for

The events of an attempt have identities made of the activity and the attempt's number, and
`append_validated_event` looks an identity up in the whole log. A rewind brings back an
older projection of the same activity, and leaves the log as it is: the identities of the
abandoned branch stay taken. A call on the new branch that repeats an event of the old one
is then answered as a duplicate, and changes nothing.
-/

namespace AikitRuntime.Durability

open Library Method

section
variable [Digest]

namespace RunState

variable {s t : RunState} {id : String} {attempt : Nat}

/-- The attempt is completed, with an output of that hash. -/
def CompletedWith (s : RunState) (id : String) (attempt : Nat) (hash : String) : Prop :=
  ∃ r a output, s.projection.activities[id]? = some r ∧ r.findAttempt attempt = some a ∧
    a.status = .completed ∧ a.output = some output ∧ stableInputHash output = hash

omit [Digest] in
/-- The attempt is the latest one, and is running. -/
def LatestRunning (s : RunState) (id : String) (attempt : Nat) : Prop :=
  ∃ r a, s.projection.activities[id]? = some r ∧ r.latestAttempt = some a ∧ a.attempt = attempt ∧
    a.status = .running

/-- The log records that the attempt completed with that output. -/
def RecordsCompletion (s : RunState) (id : String) (attempt : Nat) (output : Value) : Prop :=
  s.Records (attemptEventId id attempt "completed")
    (.activityAttemptCompleted id attempt output (stableInputHash output))

/-- The log records that the attempt started. -/
def RecordsStart (s : RunState) (id : String) (attempt : Nat) : Prop :=
  s.Records (attemptEventId id attempt "started") (.activityAttemptStarted id attempt)

/-- The activity that a call to `prepare_activity` is about. -/
def preparedId (s : RunState) (stableStepId logicalKey : String) : String :=
  match s.findActivity stableStepId logicalKey with
  | some record => record.definition.activityId
  | none => stableIdentifier "activity" [s.runId, s.projection.branchId, stableStepId, logicalKey]

omit [Digest] in
/-- The number of the attempt that would be started next. -/
def preparedAttempt (s : RunState) (id : String) : Nat :=
  (s.projection.activities[id]?.map (·.attempts.length)).getD 0 + 1

variable {r : ActivityRecord}

omit [Digest] in
theorem preparedAttempt_of_get (h : s.projection.activities[id]? = some r) :
    s.preparedAttempt id = r.attempts.length + 1 := by
  simp [preparedAttempt, h]

/-! ### Records along an event -/

variable {eventId : String}

variable {e : RunEvent}

/-- An event of another kind records nothing of this one. -/
theorem Accepts.records_iff {kind : RunEventKind}
    (h : Accepts s e t) (hkind : e.kind ≠ kind) : t.Records eventId kind ↔ s.Records eventId kind := by
  unfold Records
  rw [h.events]
  constructor
  · rintro ⟨e', he', hid, hk⟩
    rcases List.mem_append.mp he' with hold | hnew
    · exact ⟨e', hold, hid, hk⟩
    · rw [List.mem_singleton] at hnew
      exact absurd (hnew ▸ hk) hkind
  · rintro ⟨e', he', hid, hk⟩
    exact ⟨e', List.mem_append_left _ he', hid, hk⟩

/-! ### Completions -/

/-- A completed attempt of a logged run carries its output's hash. -/
theorem Logged.completedWith {a : ActivityAttempt} {hash : String}
    (hs : Logged s) (hget : s.projection.activities[id]? = some r)
    (hfind : r.findAttempt attempt = some a) (hstatus : a.status = .completed)
    (hhash : a.outputHash = some hash) : s.CompletedWith id attempt hash := by
  obtain ⟨i, hi, -⟩ := ActivityRecord.exists_index hfind
  have hpayload := (hs.sensible.current id r hget).payload i a hi
  simp only [ActivityAttempt.payloadMatchesStatus, hstatus, Bool.and_eq_true, Option.any_eq_true,
    decide_eq_true_eq] at hpayload
  obtain ⟨⟨⟨-, output, houtput, hequal⟩, -⟩, -⟩ := hpayload
  exact ⟨r, a, output, hget, hfind, hstatus, houtput, Option.some.inj (hequal.symm.trans hhash)⟩

variable {output : Value}

/-- What an accepted completion leaves in the projection. -/
theorem Accepts.completedWith (hs : Logged s)
    (h : Accepts s (s.nextEvent eventId
      (.activityAttemptCompleted id attempt output (stableInputHash output))) t) :
    t.CompletedWith id attempt (stableInputHash output) := by
  obtain ⟨u, htransition, rfl⟩ := hs.transition h
  cases htransition with
  | activityAttemptCompleted _ _ hget hfind _ =>
    have hnumber := ActivityRecord.attempt_of_find hfind
    exact ⟨_, _, output, BTreeMap.get_insert_self,
      ActivityRecord.findAttempt_setAttempt hfind hnumber, rfl, rfl, rfl⟩

theorem completeActivity_acknowledged {outcome : AppendOutcome} (hs : Logged s)
    (h : (completeActivity id attempt output).run s = .ok outcome t) :
    t.CompletedWith id attempt (stableInputHash output) ↔
      s.CompletedWith id attempt (stableInputHash output) ∨
        ¬ s.RecordsCompletion id attempt output := by
  unfold completeActivity at h
  simp only [run_read_bind, run_check_bind_eq_ok, id_eq, exists_unit, activity_eq_ok] at h
  obtain ⟨-, record, hget, h⟩ := h
  split at h
  · next existing hfilter =>
    split at h
    · next hhash =>
      cases h
      rw [Option.filter_eq_some_iff, decide_eq_true_eq] at hfilter
      have hcompleted := hs.completedWith hget hfilter.1 hfilter.2 hhash
      simp only [hcompleted, true_or]
    · cases h
  · rcases of_run_emit h with ⟨hrecords, rfl⟩ | haccepts
    · have hrecorded : t.RecordsCompletion id attempt output := hrecords
      simp only [hrecorded, not_true, or_false]
    · have hnew : ¬ s.RecordsCompletion id attempt output := fun hold => haccepts.fresh hold.hasEvent
      simp only [haccepts.completedWith hs, hnew, not_false_iff, or_true]

/-! ### Starts -/

/-- What an accepted start leaves in the projection. -/
theorem Accepts.latestRunning (hs : Logged s)
    (h : Accepts s (s.nextEvent eventId (.activityAttemptStarted id attempt)) t) :
    t.LatestRunning id attempt := by
  obtain ⟨u, htransition, rfl⟩ := hs.transition h
  cases htransition with
  | activityAttemptStarted _ _ hget _ =>
    exact ⟨_, _, BTreeMap.get_insert_self, ActivityRecord.latestAttempt_pushAttempt, rfl, rfl⟩

/-- The next attempt is not yet the latest one. -/
theorem Logged.not_latestRunning (hs : Logged s)
    (hget : s.projection.activities[id]? = some r) (hcounter : r.attempts.length + 1 < 2 ^ 32) :
    ¬ s.LatestRunning id (r.attempts.length + 1) := by
  rintro ⟨r', a, hget', hlatest, hnumber, -⟩
  rw [hget] at hget'
  cases hget'
  obtain ⟨hpos, hlast⟩ := ActivityRecord.latestAttempt_eq_some.mp hlatest
  have hnumbered : a.attempt = (r.attempts.length - 1 + 1) % 2 ^ 32 :=
    (hs.sensible.current id r hget).numbered _ a hlast
  omega

variable {decision : ActivityDecision}

theorem startNextAttempt_acknowledged (hs : Logged s)
    (h : (startNextAttempt id).run s = .ok decision t) :
    ∃ key, decision = .execute id (s.preparedAttempt id) key ∧
      (t.LatestRunning id (s.preparedAttempt id) ↔ ¬ s.RecordsStart id (s.preparedAttempt id)) := by
  unfold startNextAttempt at h
  simp only [run_read_bind, run_check_bind_eq_ok, id_eq, exists_unit, activity_eq_ok,
    refuseIf_eq_ok, Nat.not_le] at h
  obtain ⟨record, hget, hcounter, h⟩ := h
  rw [preparedAttempt_of_get hget]
  obtain ⟨_, m, hemit, hdone⟩ := run_bind_eq_ok.mp h
  cases hdone
  refine ⟨_, rfl, ?_⟩
  rcases of_run_emit hemit with ⟨hrecords, rfl⟩ | haccepts
  · have hrecorded : t.RecordsStart id (record.attempts.length + 1) := hrecords
    simp only [hrecorded, not_true, hs.not_latestRunning hget hcounter]
  · have hnew : ¬ s.RecordsStart id (record.attempts.length + 1) := fun hold =>
      haccepts.fresh hold.hasEvent
    simp only [hnew, not_false_iff, haccepts.latestRunning hs]

/-- The end of a preparation, after an event that starts nothing. -/
theorem startNextAttempt_acknowledged_after {m : RunState} (hs : Logged s) (he : Emits s e m)
    (hkind : ∀ n, e.kind ≠ .activityAttemptStarted id n)
    (hlength : m.preparedAttempt id = s.preparedAttempt id)
    (h : (startNextAttempt id).run m = .ok decision t) :
    ∃ key, decision = .execute id (s.preparedAttempt id) key ∧
      (t.LatestRunning id (s.preparedAttempt id) ↔ ¬ s.RecordsStart id (s.preparedAttempt id)) := by
  have hstart := startNextAttempt_acknowledged (hs.emits he) h
  rw [hlength] at hstart
  have hrecords : m.RecordsStart id (s.preparedAttempt id) ↔ s.RecordsStart id (s.preparedAttempt id) :=
    he.2.records_iff (hkind _)
  rwa [hrecords] at hstart

variable {id' : String} {key : Option String}

theorem decideActivity_acknowledged (hs : Logged s)
    (h : (decideActivity id).run s = .ok (.execute id' attempt key) t) :
    id' = id ∧ attempt = s.preparedAttempt id ∧
      (t.LatestRunning id attempt ↔ ¬ s.RecordsStart id attempt) := by
  have hexecute : ∀ {decision : ActivityDecision}, decision = .execute id' attempt key →
      (∃ key, decision = .execute id (s.preparedAttempt id) key ∧
        (t.LatestRunning id (s.preparedAttempt id) ↔ ¬ s.RecordsStart id (s.preparedAttempt id))) →
      id' = id ∧ attempt = s.preparedAttempt id ∧
        (t.LatestRunning id attempt ↔ ¬ s.RecordsStart id attempt) := by
    rintro _ rfl ⟨key', heq, hiff⟩
    cases heq
    exact ⟨rfl, rfl, hiff⟩
  unfold decideActivity at h
  simp only [run_read_bind, run_check_bind_eq_ok, id_eq, activity_eq_ok] at h
  obtain ⟨record, hget, h⟩ := h
  split at h
  · cases h
  · exact hexecute rfl (startNextAttempt_acknowledged hs h)
  · next latest _ _ =>
    split at h
    · split at h
      · obtain ⟨_, m, hemit, hstart⟩ := run_bind_eq_ok.mp h
        rcases of_run_emit hemit with ⟨_, rfl⟩ | haccepts
        · exact hexecute rfl (startNextAttempt_acknowledged hs hstart)
        · refine hexecute rfl (startNextAttempt_acknowledged_after hs (.of_nextEvent haccepts)
            (fun n hkind => by cases hkind) ?_ hstart)
          obtain ⟨u, htransition, rfl⟩ := hs.transition haccepts
          cases htransition with
          | activityAttemptFailed _ _ hget' hfind _ =>
            rw [preparedAttempt_of_get hget', preparedAttempt_of_get BTreeMap.get_insert_self,
              ActivityRecord.length_setAttempt]
      · obtain ⟨_, m, -, hdone⟩ := run_bind_eq_ok.mp h
        cases hdone
    · split at h
      · cases h
      · split at h
        · obtain ⟨_, m, -, hdone⟩ := run_bind_eq_ok.mp h
          cases hdone
        · exact hexecute rfl (startNextAttempt_acknowledged hs h)
    · cases h
    · cases h
    · cases h

variable {logicalKey stableStepId : String}

theorem preparedId_of_found {record : ActivityRecord}
    (h : s.findActivity stableStepId logicalKey = some record) :
    s.preparedId stableStepId logicalKey = record.definition.activityId := by
  unfold preparedId
  rw [h]

theorem preparedId_of_not_found
    (h : s.findActivity stableStepId logicalKey = none) :
    s.preparedId stableStepId logicalKey =
      stableIdentifier "activity" [s.runId, s.projection.branchId, stableStepId, logicalKey] := by
  unfold preparedId
  rw [h]

theorem prepareActivity_acknowledged {input : Value}
    {sideEffectClass : SideEffectClass} {idempotencyKey : Option String} (hs : Logged s)
    (h : (prepareActivity stableStepId logicalKey input sideEffectClass idempotencyKey).run s =
      .ok (.execute id' attempt key) t) :
    id' = s.preparedId stableStepId logicalKey ∧
      attempt = s.preparedAttempt (s.preparedId stableStepId logicalKey) ∧
        (t.LatestRunning id' attempt ↔ ¬ s.RecordsStart id' attempt) := by
  unfold prepareActivity at h
  simp only [run_read_bind, run_check_bind_eq_ok, id_eq, exists_unit] at h
  obtain ⟨-, -, -, h⟩ := h
  split at h
  · next record hfind =>
    obtain ⟨-, -, h⟩ := run_check_bind_eq_ok.mp h
    obtain ⟨rfl, hattempt, hiff⟩ := decideActivity_acknowledged hs h
    rw [preparedId_of_found hfind]
    exact ⟨rfl, hattempt, hiff⟩
  · next hfind =>
    obtain ⟨-, -, h⟩ := run_check_bind_eq_ok.mp h
    obtain ⟨_, m, hemit, hdecide⟩ := run_bind_eq_ok.mp h
    rw [preparedId_of_not_found hfind]
    rcases of_run_emit hemit with ⟨_, rfl⟩ | haccepts
    · obtain ⟨rfl, hattempt, hiff⟩ := decideActivity_acknowledged hs hdecide
      exact ⟨rfl, hattempt, hiff⟩
    · obtain ⟨rfl, hattempt, hiff⟩ :=
        decideActivity_acknowledged (hs.emits (.of_nextEvent haccepts)) hdecide
      have hrecords : ∀ id, m.RecordsStart id attempt ↔ s.RecordsStart id attempt := fun id =>
        haccepts.records_iff fun hkind => by cases hkind
      rw [hrecords] at hiff
      refine ⟨rfl, hattempt.trans ?_, hiff⟩
      obtain ⟨u, htransition, rfl⟩ := hs.transition haccepts
      cases htransition with
      | activityScheduled _ _ _ hfresh _ =>
        rw [preparedAttempt_of_get BTreeMap.get_insert_self, preparedAttempt,
          show s.projection.activities[stableIdentifier "activity" _]? = none from hfresh]
        rfl

/-- **What an acknowledgement stands for.** A completion that is acknowledged is in the
projection exactly when it was there before the call, or the log did not record it; a start
that is acknowledged is there exactly when the log did not record it. -/
theorem Reachable.acknowledged_iff (hs : Reachable s) :
    (∀ id attempt output outcome t,
      (completeActivity id attempt output).run s = .ok outcome t →
        (t.CompletedWith id attempt (stableInputHash output) ↔
          s.CompletedWith id attempt (stableInputHash output) ∨
            ¬ s.RecordsCompletion id attempt output)) ∧
    (∀ stableStepId logicalKey input sideEffectClass idempotencyKey id attempt key t,
      (prepareActivity stableStepId logicalKey input sideEffectClass idempotencyKey).run s =
          .ok (.execute id attempt key) t →
        (t.LatestRunning id attempt ↔
          ¬ s.RecordsStart (s.preparedId stableStepId logicalKey)
            (s.preparedAttempt (s.preparedId stableStepId logicalKey)))) := by
  refine ⟨fun id attempt output outcome t h => completeActivity_acknowledged hs.logged h, ?_⟩
  intro stableStepId logicalKey input sideEffectClass idempotencyKey id attempt key t h
  obtain ⟨rfl, rfl, hiff⟩ := prepareActivity_acknowledged hs.logged h
  exact hiff

/-! ### A completion that is lost -/

/-- What an acknowledgement would stand for if no branch were ever abandoned. -/
def KeepsAcknowledgements : Prop :=
  ∀ s, Reachable s →
    (∀ id attempt output outcome t, (completeActivity id attempt output).run s = .ok outcome t →
      t.CompletedWith id attempt (stableInputHash output)) ∧
    (∀ stableStepId logicalKey input sideEffectClass idempotencyKey id attempt key t,
      (prepareActivity stableStepId logicalKey input sideEffectClass idempotencyKey).run s =
        .ok (.execute id attempt key) t → t.LatestRunning id attempt)

/-- An activity completes after a checkpoint, and the run is rewound to it. -/
def rewoundLog : List RunEvent :=
  logOf "r" [("1", .runStarted "s" .sync "b"),
    ("2", .activityScheduled ⟨"a", "step", "key", .null, stableInputHash .null, .pure, none⟩),
    ("3", .activityAttemptStarted "a" 1),
    ("4", .checkpointCommitted "c" none),
    (attemptEventId "a" 1 "completed",
      .activityAttemptCompleted "a" 1 .null (stableInputHash .null)),
    ("6", .runRewound "c" "b2" false)]

end RunState

end

namespace RunState

/-- The attempt is still running after its completion was acknowledged. -/
theorem losesCompletion :
    ∃ s, @fromEvents sha256 (@rewoundLog sha256) = .ok s ∧ ∃ outcome t,
      (@completeActivity sha256 "a" 1 .null).run s = .ok outcome t ∧
        ((t.projection.activities["a"]?.bind fun r => r.findAttempt 1).any (·.status = .running)) = true := by
  rw [sha256_eq_quick]
  decide +kernel

/-- So it has not completed. -/
theorem not_completedWith [Digest] {t : RunState} {hash : String}
    (h : ((t.projection.activities["a"]?.bind fun r => r.findAttempt 1).any (·.status = .running)) = true) :
    ¬ t.CompletedWith "a" 1 hash := by
  rintro ⟨r, a, _, hget, hfind, hstatus, -⟩
  simp [hget, hfind, hstatus] at h

/-- A rewound run acknowledges a completion that it does not make. -/
theorem not_keepsAcknowledgements : ¬ @KeepsAcknowledgements sha256 := by
  intro h
  obtain ⟨s, hs, outcome, t, hrun, hrunning⟩ := losesCompletion
  have hs := @Reachable.fromEvents sha256 _ _ hs
  have hlost := @not_completedWith sha256 t (sha256.stableInputHash .null) hrunning
  exact hlost ((h s hs).1 _ _ _ _ _ hrun)

/-- On that run the log records the completion, and the projection did not have it. -/
theorem acknowledged_iff_rewoundLog :
    ∃ s, @Reachable sha256 s ∧ @RecordsCompletion sha256 s "a" 1 .null ∧
      ¬ @CompletedWith sha256 s "a" 1 (sha256.stableInputHash .null) := by
  obtain ⟨s, hs, outcome, t, hrun, hrunning⟩ := losesCompletion
  have hs := @Reachable.fromEvents sha256 _ _ hs
  have hlost := @not_completedWith sha256 t (sha256.stableInputHash .null) hrunning
  have hiff := (@Reachable.acknowledged_iff sha256 s hs).1 _ _ _ _ _ hrun
  exact ⟨s, hs, by_contra fun hnew => hlost (hiff.mpr (.inr hnew)), fun hold => hlost (hiff.mpr (.inl hold))⟩

end RunState

end AikitRuntime.Durability
