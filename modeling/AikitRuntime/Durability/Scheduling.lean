import AikitRuntime.Durability.Steps

/-!
# What may be scheduled may be started

The checks of a schedule and the checks of a first start are two functions over the
activities, and the second runs on a map with one activity more: the one that was just
scheduled. That activity has no attempt, so no check that looks for a running lifecycle, a
completed receipt or a running activity sees it, and what the first found is still there.
-/

namespace AikitRuntime.Durability

open Library

section
variable [Digest]

variable {activities : BTreeMap ActivityRecord} {definition : ActivityDefinition} {id : String}

/-- A record that was just scheduled. -/
def unstarted (definition : ActivityDefinition) : ActivityRecord := { definition, attempts := [] }

omit [Digest] in
@[simp] theorem isRunning_unstarted : (unstarted definition).isRunning = false := rfl

omit [Digest] in
@[simp] theorem isActiveLifecycle_unstarted {invocationId : String} :
    isActiveLifecycle invocationId (unstarted definition) = false := by
  simp [isActiveLifecycle]

variable {record : ActivityRecord}

theorem validateLegacyResolutionSource_insert {d : ActivityDefinition}
    (hfresh : activities[id]? = none) (h : validateLegacyResolutionSource activities d = .ok ()) :
    validateLegacyResolutionSource (activities.insert id record) d = .ok () := by
  simp only [validateLegacyResolutionSource, bind_eq_ok, exists_unit, okOr_eq_ok,
    refuseIf_eq_ok] at h ⊢
  obtain ⟨input, hinput, value, hvalue, source, hsource, hshape, legacy, hlegacy, hrest⟩ := h
  rw [Option.filter_eq_some_iff] at hlegacy
  refine ⟨input, hinput, value, hvalue, source, hsource, hshape, legacy, ?_, hrest⟩
  rw [Option.filter_eq_some_iff]
  exact ⟨BTreeMap.get_insert_of_get hfresh hlegacy.1, hlegacy.2⟩

theorem validateLegacyTerminalResolution_insert {bridge : ActivityRecord} {output : Value}
    (hfresh : activities[id]? = none)
    (h : validateLegacyTerminalResolution activities bridge output = .ok ()) :
    validateLegacyTerminalResolution (activities.insert id record) bridge output = .ok () := by
  simp only [validateLegacyTerminalResolution, bind_eq_ok, exists_unit] at h ⊢
  exact ⟨h.1, validateLegacyResolutionSource_insert hfresh h.2.1, h.2.2⟩

omit [Digest] in
theorem isOk_eq_true {ε : Type} {x : Except ε Unit} : x.isOk = true ↔ x = .ok () := by
  cases x <;> simp [Except.isOk, Except.toBool]

theorem isRecoverableReceipt_insert {candidate : ActivityRecord} {replay : Value}
    {invocationId : String} (hfresh : activities[id]? = none)
    (h : isRecoverableReceipt activities replay invocationId candidate = true) :
    isRecoverableReceipt (activities.insert id record) replay invocationId candidate = true := by
  unfold isRecoverableReceipt at h ⊢
  simp only [Bool.and_eq_true, decide_eq_true_eq, Option.any_eq_true] at h ⊢
  obtain ⟨hstep, output, houtput, h⟩ := h
  refine ⟨hstep, output, houtput, ?_⟩
  split at h
  · next hbridge =>
    rw [if_pos hbridge]
    simp only [Option.any_eq_true, Bool.and_eq_true, decide_eq_true_eq, isOk_eq_true] at h ⊢
    obtain ⟨resolution, hresolution, hvalid, hreceipt⟩ := h
    exact ⟨resolution, hresolution, validateLegacyTerminalResolution_insert hfresh hvalid, hreceipt⟩
  · next hbridge =>
    rw [if_neg hbridge]
    exact h

variable {runId : String}

theorem validateTerminalAuditScheduleInput_insert {kind : String}
    (hfresh : activities[id]? = none)
    (h : validateTerminalAuditScheduleInput activities definition kind runId = .ok ()) :
    validateTerminalAuditScheduleInput (activities.insert id (unstarted definition)) definition kind
      runId = .ok () := by
  unfold validateTerminalAuditScheduleInput at h ⊢
  simp only [bind_eq_ok, exists_unit, okOr_eq_ok, refuseIf_eq_ok] at h ⊢
  obtain ⟨input, hinput, hlength, replay, hreplay, hvalid, hrun, invocationId, hinvocation, hkey,
    hlifecycle, hrunning, hoffer⟩ := h
  refine ⟨input, hinput, hlength, replay, hreplay, hvalid, hrun, invocationId, hinvocation, hkey,
    ?_, ?_, ?_⟩
  · rwa [BTreeMap.filter_values_insert hfresh (by simp)]
  · rwa [BTreeMap.find?_values_insert hfresh (by simp),
      BTreeMap.any_values_insert hfresh (by simp)]
  · split at hoffer
    · next hrecovery =>
      rw [if_pos hrecovery]
      simp only [ok_bind, bind_eq_ok, exists_unit, refuseIf_eq_ok, hrecovery, true_and,
        Bool.not_eq_false] at hoffer ⊢
      obtain ⟨a, r, hget, hr⟩ := BTreeMap.any_values.mp hoffer.2
      exact ⟨hoffer.1, BTreeMap.any_values.mpr
        ⟨a, r, BTreeMap.get_insert_of_get hfresh hget, isRecoverableReceipt_insert hfresh hr⟩⟩
    · next hcanonical =>
      rw [if_neg hcanonical]
      simp only [bind_eq_ok, exists_unit, okOr_eq_ok, refuseIf_eq_ok, hcanonical, false_and,
        not_false_iff] at hoffer ⊢
      exact hoffer

/-- A terminal audit's input holds its replay envelope. -/
theorem replay_of_validateTerminalAuditScheduleInput {kind : String}
    (h : validateTerminalAuditScheduleInput activities definition kind runId = .ok ()) :
    (definition.input.get "replay").isSome = true := by
  unfold validateTerminalAuditScheduleInput at h
  simp only [bind_eq_ok, exists_unit, okOr_eq_ok] at h
  obtain ⟨input, hinput, -, replay, hreplay, -⟩ := h
  simp [Value.get, hinput, hreplay]

variable {branchId : String}

/-- The three ways in which a reserved step is scheduled. -/
theorem of_validateReservedAuditSchedule
    (hstep : isV2ReservedStep definition.stableStepId = true)
    (h : validateReservedAuditSchedule runId branchId activities definition = .ok ()) :
    (definition.stableStepId = runStoppedAuditStepId ∧ definition.logicalKey = "terminal" ∧
      if (definition.input.get "legacy_resolution").isSome then
        validateLegacyResolutionSource activities definition = .ok ()
      else validateTerminalAuditScheduleInput activities definition "canonical" runId = .ok ()) ∨
    (definition.stableStepId = recoveryRunStoppedAuditStepId ∧
      validateTerminalAuditScheduleInput activities definition "recovery" runId = .ok ()) ∨
    (definition.stableStepId = invocationLifecycleStepId ∧
      definition.input.getU64 "schema_version" = some 1 ∧
        definition.input.getStr "audit_run_id" = some runId ∧
          definition.input.getStr "invocation_id" = some definition.logicalKey) := by
  simp only [validateReservedAuditSchedule, bind_eq_ok, exists_unit, refuseIf_eq_ok] at h
  obtain ⟨-, h⟩ := h
  rw [hstep, if_neg (by decide)] at h
  simp only [bind_eq_ok, exists_unit, refuseIf_eq_ok] at h
  obtain ⟨-, -, h⟩ := h
  split at h
  · next hstopped =>
    simp only [bind_eq_ok, exists_unit, refuseIf_eq_ok, not_not] at h
    obtain ⟨hkey, h⟩ := h
    refine .inl ⟨hstopped, hkey, ?_⟩
    split at h
    · next hlegacy => rwa [if_pos hlegacy]
    · next hlegacy => rwa [if_neg hlegacy]
  · next hstopped =>
    split at h
    · next hrecovery => exact .inr (.inl ⟨hrecovery, h⟩)
    · next hrecovery =>
      simp only [bind_eq_ok, okOr_eq_ok, refuseIf_eq_ok, not_or, not_not] at h
      obtain ⟨input, -, -, hversion, hrun, hinvocation, -⟩ := h
      refine .inr (.inr ⟨?_, hversion, hrun, hinvocation⟩)
      simpa [isV2ReservedStep, hstopped, hrecovery] using hstep

/-- What passes the checks of a reserved schedule is reserved. -/
theorem isReserved_of_validateReservedAuditSchedule
    (hstep : isV2ReservedStep definition.stableStepId = true)
    (h : validateReservedAuditSchedule runId branchId activities definition = .ok ()) :
    isReservedAuditActivity (unstarted definition) = true := by
  unfold isReservedAuditActivity unstarted
  dsimp only
  rcases of_validateReservedAuditSchedule hstep h with ⟨hstep, hkey, h⟩ | ⟨hstep, h⟩ |
    ⟨hstep, hversion, -, hinvocation⟩
  · rw [hstep, if_neg (by decide), if_pos rfl, hkey]
    split at h
    · next hlegacy => simp [hlegacy]
    · simp [replay_of_validateTerminalAuditScheduleInput h]
  · rw [hstep, if_neg (by decide), if_neg (by decide), if_pos rfl]
    exact replay_of_validateTerminalAuditScheduleInput h
  · rw [hstep, if_neg (by decide), if_neg (by decide), if_neg (by decide), if_pos rfl]
    simp [hversion, hinvocation]

theorem validateReservedAuditAttemptStart_insert
    (hfresh : activities[id]? = none)
    (h : validateReservedAuditSchedule runId branchId activities definition = .ok ()) :
    validateReservedAuditAttemptStart runId (activities.insert id (unstarted definition))
      (unstarted definition) = .ok () := by
  unfold validateReservedAuditAttemptStart
  split
  · rfl
  · next hreserved =>
    have hlegacy : definition.stableStepId ≠ legacyRunStoppedAuditStepId := by
      simp only [validateReservedAuditSchedule, bind_eq_ok, exists_unit, refuseIf_eq_ok] at h
      exact h.1
    have hv2 : isV2ReservedStep definition.stableStepId = true :=
      (step_of_isReservedAuditActivity (by simpa using hreserved)).resolve_left hlegacy
    rw [if_neg (show (unstarted definition).definition.stableStepId ≠ _ from hlegacy)]
    rcases of_validateReservedAuditSchedule hv2 h with ⟨hstep, hkey, h⟩ | ⟨hstep, h⟩ |
      ⟨hstep, -, hrun, -⟩
    · rw [if_neg (by rw [unstarted, hstep]; decide)]
      split at h
      · next hbridge =>
        rw [if_pos ⟨hstep, hbridge⟩]
        exact validateLegacyResolutionSource_insert hfresh h
      · next hbridge =>
        rw [if_neg fun hboth => hbridge hboth.2]
        simp only [unstarted, hstep]
        exact validateTerminalAuditScheduleInput_insert hfresh h
    · have hother : ¬ definition.stableStepId = runStoppedAuditStepId := by rw [hstep]; decide
      rw [if_neg (by rw [unstarted, hstep]; decide), if_neg fun hboth => hother hboth.1]
      simp only [unstarted, hstep]
      exact validateTerminalAuditScheduleInput_insert hfresh h
    · rw [if_pos (show (unstarted definition).definition.stableStepId = _ from hstep)]
      exact refuseIf_of_not (not_not.mpr hrun)

namespace RunState

variable {s t : RunState}

/-- **What may be scheduled may be started at once.** -/
theorem checkV2Start_of_checkV2Schedule
    (hfresh : s.projection.activities[definition.activityId]? = none)
    (h : s.checkV2Schedule definition = .ok ()) :
    (s.withActivity definition.activityId (unstarted definition)).checkV2Start
      definition.activityId = .ok () := by
  simp only [checkV2Schedule, bind_eq_ok, exists_unit, refuseIf_eq_ok, not_and,
    Bool.not_eq_true] at h
  obtain ⟨hmarker, hschedule⟩ := h
  simp only [checkV2Start, bind_eq_ok, exists_unit, activity_eq_ok, refuseIf_eq_ok]
  refine ⟨unstarted definition, BTreeMap.get_insert_self, ?_,
    validateReservedAuditAttemptStart_insert hfresh hschedule⟩
  rintro ⟨hordinary, hany⟩
  have hstep : isV2ReservedStep definition.stableStepId = false := by
    by_contra hv2
    rw [isReserved_of_validateReservedAuditSchedule (by simpa using hv2) hschedule] at hordinary
    cases hordinary
  have hnew : isTerminalMarker (unstarted definition) = false := by
    simp [isTerminalMarker, hordinary]
  have hnone := hmarker hstep
  rw [← BTreeMap.any_values_insert (v := unstarted definition) hfresh hnew] at hnone
  exact Bool.false_ne_true (hnone.symm.trans hany)

end RunState

end

end AikitRuntime.Durability
