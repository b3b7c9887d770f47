import AikitRuntime.A2a.Effects

/-!
# The effect of every operation

One lemma for each operation, and `effect_apply` for all of them: on a well-kept mapper, an operation
creates and moves entries as `Effect` allows. So every run keeps the mapper well kept.
-/

namespace AikitRuntime.A2a

open Library Durability Mcp

namespace A2aMapper

variable {m m' : A2aMapper} {acknowledged : Option (String × Nat)}

/-! ### Marks -/

section Marks

variable [Digest]

variable {dispatchId : String}

theorem markDispatchRunning_effect (h : m.markDispatchRunning dispatchId = .ok m') :
    Effect acknowledged m m' := by
  simp only [markDispatchRunning, bind_eq_ok, okOr_eq_ok, refuseIf_eq_ok, exists_unit, not_not,
    Nat.not_lt, pure, Except.pure, Except.ok.injEq] at h
  obtain ⟨current, hget, hstate, _, _, _, hlimit, revision, _, replaced, hreplace, rfl⟩ := h
  obtain ⟨current', hget', hsame, bytes, rfl⟩ := replaceDispatchRecord_spec hreplace
  rw [hget, Option.some.injEq] at hget'
  subst hget'
  exact effect_of_dispatch hget ⟨hsame, .run _ _ hstate hlimit⟩

theorem markDispatchReconcilePending_effect
    (h : m.markDispatchReconcilePending dispatchId = .ok m') : Effect acknowledged m m' := by
  simp only [markDispatchReconcilePending, bind_eq_ok, okOr_eq_ok, refuseIf_eq_ok, exists_unit, not_not,
    pure, Except.pure, Except.ok.injEq] at h
  obtain ⟨current, hget, hstate, revision, _, replaced, hreplace, rfl⟩ := h
  obtain ⟨current', hget', hsame, bytes, rfl⟩ := replaceDispatchRecord_spec hreplace
  rw [hget, Option.some.injEq] at hget'
  subst hget'
  exact effect_of_dispatch hget ⟨hsame, .reconcile _ _ hstate⟩

theorem markDispatchSettled_effect (h : m.markDispatchSettled dispatchId = .ok m') :
    Effect acknowledged m m' := by
  simp only [markDispatchSettled, bind_eq_ok, okOr_eq_ok] at h
  obtain ⟨current, hget, h⟩ := h
  split at h
  · rw [← Except.ok.inj h]
    exact .refl m
  · next hopen =>
    simp only [bind_eq_ok, pure, Except.pure, Except.ok.injEq] at h
    obtain ⟨revision, _, replaced, hreplace, rfl⟩ := h
    obtain ⟨current', hget', hsame, bytes, rfl⟩ := replaceDispatchRecord_spec hreplace
    rw [hget, Option.some.injEq] at hget'
    subst hget'
    exact effect_of_dispatch hget ⟨hsame, .settle _ _ hopen⟩

variable {cancellationId : String}

theorem markCancellationRunning_effect
    (h : m.markCancellationRunning cancellationId = .ok m') : Effect acknowledged m m' := by
  simp only [markCancellationRunning, bind_eq_ok, okOr_eq_ok, refuseIf_eq_ok, exists_unit, not_not,
    Nat.not_lt, pure, Except.pure, Except.ok.injEq] at h
  obtain ⟨current, hget, hstate, _, _, _, hlimit, revision, _, replaced, hreplace, rfl⟩ := h
  obtain ⟨current', hget', hsame, bytes, rfl⟩ := replaceCancellationRecord_spec hreplace
  rw [hget, Option.some.injEq] at hget'
  subst hget'
  exact effect_of_cancellation hget ⟨hsame, .run _ _ hstate hlimit⟩

theorem markCancellationReconcilePending_effect
    (h : m.markCancellationReconcilePending cancellationId = .ok m') : Effect acknowledged m m' := by
  simp only [markCancellationReconcilePending, bind_eq_ok, okOr_eq_ok, refuseIf_eq_ok, exists_unit,
    not_not, pure, Except.pure, Except.ok.injEq] at h
  obtain ⟨current, hget, hstate, revision, _, replaced, hreplace, rfl⟩ := h
  obtain ⟨current', hget', hsame, bytes, rfl⟩ := replaceCancellationRecord_spec hreplace
  rw [hget, Option.some.injEq] at hget'
  subst hget'
  exact effect_of_cancellation hget ⟨hsame, .reconcile _ _ hstate⟩

theorem markCancellationSettled_effect
    (h : m.markCancellationSettled cancellationId = .ok m') : Effect acknowledged m m' := by
  simp only [markCancellationSettled, bind_eq_ok, okOr_eq_ok] at h
  obtain ⟨current, hget, h⟩ := h
  split at h
  · rw [← Except.ok.inj h]
    exact .refl m
  · next hopen =>
    simp only [bind_eq_ok, pure, Except.pure, Except.ok.injEq] at h
    obtain ⟨revision, _, replaced, hreplace, rfl⟩ := h
    obtain ⟨current', hget', hsame, bytes, rfl⟩ := replaceCancellationRecord_spec hreplace
    rw [hget, Option.some.injEq] at hget'
    subst hget'
    exact effect_of_cancellation hget ⟨hsame, .settle _ _ hopen⟩

variable {eventId : String}

/-- Replacing an event changes events only. -/
theorem replacePendingEvent_effect {replacement : A2aPendingEventIntent}
    {revision : Nat} {replaced : A2aMapper} (h : m.replacePendingEvent eventId replacement = .ok replaced) :
    Effect acknowledged m { replaced with revision } := by
  obtain ⟨_, _, _, _, _, _, _, rfl⟩ := replacePendingEvent_spec h
  exact effect_of_eq rfl rfl rfl (Nat.le_refl _)

theorem markEventReconcilePending_effect {failedAtUnixMs : Nat}
    (h : m.markEventReconcilePending eventId failedAtUnixMs = .ok m') : Effect acknowledged m m' := by
  simp only [markEventReconcilePending, bind_eq_ok, okOr_eq_ok, refuseIf_eq_ok, exists_unit, pure,
    Except.pure, Except.ok.injEq] at h
  obtain ⟨_, _, _, revision, _, replaced, hreplace, rfl⟩ := h
  exact replacePendingEvent_effect hreplace

theorem markEventQuarantined_effect {reason : A2aEventQuarantineReason}
    (h : m.markEventQuarantined eventId reason = .ok m') : Effect acknowledged m m' := by
  simp only [markEventQuarantined, bind_eq_ok, okOr_eq_ok, refuseIf_eq_ok, exists_unit] at h
  obtain ⟨_, _, _, h⟩ := h
  split at h
  · simp only [bind_eq_ok, refuseIf_eq_ok, exists_unit, pure, Except.pure, Except.ok.injEq] at h
    rw [← h.2]
    exact .refl m
  · simp only [bind_eq_ok, refuseIf_eq_ok, exists_unit, pure, Except.pure, Except.ok.injEq] at h
    obtain ⟨_, revision, _, replaced, hreplace, rfl⟩ := h
    exact replacePendingEvent_effect hreplace

theorem markEventSettled_effect (h : m.markEventSettled eventId = .ok m') :
    Effect acknowledged m m' := by
  simp only [markEventSettled, bind_eq_ok, okOr_eq_ok] at h
  obtain ⟨_, _, h⟩ := h
  split at h
  · rw [← Except.ok.inj h]
    exact .refl m
  · simp only [bind_eq_ok, refuseIf_eq_ok, exists_unit, pure, Except.pure, Except.ok.injEq] at h
    obtain ⟨_, revision, _, replaced, hreplace, rfl⟩ := h
    exact replacePendingEvent_effect hreplace

omit [Digest] in
/-- The loop over the deadlines changes events only. -/
theorem clampEvents_spec {latestAllowed revision : Nat} {eventIds : List String}
    (h : clampEvents latestAllowed revision m eventIds = .ok m') :
    m'.tasks = m.tasks ∧ m'.dispatchOutbox = m.dispatchOutbox ∧
      m'.cancellationOutbox = m.cancellationOutbox ∧ m'.nextSequence = m.nextSequence := by
  induction eventIds generalizing m with
  | nil =>
    rw [← Except.ok.inj h]
    exact ⟨rfl, rfl, rfl, rfl⟩
  | cons eventId rest ih =>
    simp only [clampEvents, bind_eq_ok, okOr_eq_ok] at h
    obtain ⟨_, _, replaced, hreplace, h⟩ := h
    obtain ⟨_, _, _, _, _, _, _, rfl⟩ := replacePendingEvent_spec hreplace
    obtain ⟨htasks, hdispatches, hcancellations, hsequence⟩ := ih h
    exact ⟨htasks, hdispatches, hcancellations, hsequence⟩

theorem clampRestoredEventRetryDeadlines_effect {nowUnixMs : Nat}
    (h : m.clampRestoredEventRetryDeadlines nowUnixMs = .ok m') : Effect acknowledged m m' := by
  unfold clampRestoredEventRetryDeadlines at h
  dsimp only at h
  split at h
  · rw [← Except.ok.inj h]
    exact .refl m
  · simp only [bind_eq_ok, pure, Except.pure, Except.ok.injEq] at h
    obtain ⟨revision, _, clamped, hclamp, rfl⟩ := h
    obtain ⟨htasks, hdispatches, hcancellations, hsequence⟩ := clampEvents_spec hclamp
    exact effect_of_eq htasks hdispatches hcancellations (Nat.le_of_eq hsequence.symm)

end Marks

/-! ### Transitions -/

section Transitions

variable [Digest] {taskId : String} {next : A2aTaskState} {statusMessage : Option String}
  {dispatchAck cancellationAck : Option (String × Nat)} {nowUnixMs : Nat}

/-- What a transition checks, and the updates that it makes in order. -/
theorem transitionTaskCandidate_spec
    (h : m.transitionTaskCandidate taskId next statusMessage dispatchAck cancellationAck nowUnixMs = .ok m') :
    ∃ existing settled cancelled, m.tasks[taskId]? = some existing ∧
      checkCancellationFence (m.pendingCancellation taskId) next cancellationAck = .ok () ∧
      validTransition existing.state next = true ∧ (m.unsettledDispatches taskId).length ≤ 1 ∧
      (cancellationAck = none →
        checkDispatchFence (m.unsettledDispatches taskId).head? dispatchAck = .ok ()) ∧
      m.revision + 1 ≤ maxSafeInteger ∧
      m.settleStoppedDispatch (m.unsettledDispatches taskId).head? next (m.revision + 1) = .ok settled ∧
      settled.settleStoppedCancellation taskId next (m.revision + 1) = .ok cancelled ∧
      ∃ events bytes schedule byOwner readiness,
        m' = { cancelled with
          pendingEvents := events
          pendingEventBytes := bytes
          pendingEventSchedule := schedule
          pendingEventScheduleByOwner := byOwner
          dispatchEventReadiness := readiness
          revision := m.revision + 1
          tasks := cancelled.tasks.insert taskId { existing with
            state := next, statusMessage, updatedRevision := m.revision + 1
            statusTimestampUnixMs := some nowUnixMs } } := by
  simp only [transitionTaskCandidate, bind_eq_ok, okOr_eq_ok, refuseIf_eq_ok, skipIf_eq_ok, exists_unit,
    nextRevision_eq_ok, Bool.not_eq_false, Nat.not_lt, pure, Except.pure, Except.ok.injEq] at h
  obtain ⟨existing, hget, hfence, hvalid, hlength, hdispatch, _, ⟨hrevision, rfl⟩, _, _, settled, hsettled,
    cancelled, hcancelled, inserted, hinsert, rfl⟩ := h
  refine ⟨existing, settled, cancelled, hget, hfence, hvalid, hlength, ?_, hrevision, hsettled, hcancelled, ?_⟩
  · intro hnone
    rcases hdispatch with hsome | hdispatch
    · rw [hnone] at hsome
      cases hsome
    · exact hdispatch
  · obtain ⟨_, _, _, _, _, rfl⟩ := insertNewPendingEvent_spec hinsert
    exact ⟨_, _, _, _, _, rfl⟩

/-- A fence that is passed leaves no control but the acknowledged one. -/
theorem unfenced_of_checkCancellationFence (hkept : WellKept m)
    (h : checkCancellationFence (m.pendingCancellation taskId) next cancellationAck = .ok ()) :
    Unfenced m cancellationAck taskId := by
  intro id control hget htask hopen
  have hfinds (record : A2aCancellationOutboxRecord) (hfind : m.pendingCancellation taskId = some record) :
      record = control := by
    obtain ⟨id', hget'⟩ := BTreeMap.mem_values.mp (List.mem_of_find?_eq_some hfind)
    have hmatch := List.find?_some hfind
    simp only [Bool.and_eq_true, decide_eq_true_eq] at hmatch
    exact (hkept.one_control hget' hget (hmatch.1.trans htask.symm)).2
  cases hpending : m.pendingCancellation taskId with
  | none =>
    have hnone := List.find?_eq_none.mp hpending control (BTreeMap.mem_values.mpr ⟨id, hget⟩)
    simp [htask, hopen] at hnone
  | some record =>
    obtain rfl := hfinds record hpending
    rw [hpending] at h
    cases cancellationAck with
    | none => cases h
    | some ack =>
      simp only [checkCancellationFence, refuseIf_eq_ok, not_not] at h
      rw [h.2.1, h.2.2.2]

variable {dispatchId : String} {revision : Nat}

omit [Digest] in
/-- Settling a dispatch moves it, or leaves it. -/
theorem settleDispatchAtRevision_step
    (h : m.settleDispatchAtRevision dispatchId revision = .ok m') :
    ∃ bytes outbox, m' = { m with dispatchBytes := bytes, dispatchOutbox := outbox } ∧
      ∀ id, EntryStep (fun _ => False) (DispatchMove id) m.dispatchOutbox[id]? outbox[id]? := by
  obtain ⟨current, hget, ⟨_, rfl⟩ | ⟨hopen, hsame, bytes, rfl⟩⟩ := settleDispatchAtRevision_spec h
  · exact ⟨_, _, rfl, fun _ => .same _⟩
  · exact ⟨_, _, rfl, fun _ => entryStep_insert_moved (C := fun _ _ => False)
      (M := DispatchMove) hget ⟨hsame, .settle _ _ hopen⟩⟩

omit [Digest] in
theorem settleStoppedDispatch_step {unsettled : Option A2aDispatchOutboxRecord}
    (h : m.settleStoppedDispatch unsettled next revision = .ok m') :
    ∃ bytes outbox, m' = { m with dispatchBytes := bytes, dispatchOutbox := outbox } ∧
      ∀ id, EntryStep (fun _ => False) (DispatchMove id) m.dispatchOutbox[id]? outbox[id]? := by
  unfold settleStoppedDispatch at h
  split at h
  · rw [← Except.ok.inj h]
    exact ⟨_, _, rfl, fun _ => .same _⟩
  · split at h
    · exact settleDispatchAtRevision_step h
    · rw [← Except.ok.inj h]
      exact ⟨_, _, rfl, fun _ => .same _⟩

omit [Digest] in
/-- Settling the control of a task moves it, or leaves it. -/
theorem settleTaskCancellationAtRevision_step
    (h : m.settleTaskCancellationAtRevision taskId revision = .ok m') :
    ∃ bytes outbox, m' = { m with cancellationBytes := bytes, cancellationOutbox := outbox } ∧
      ∀ id, EntryStep (fun _ => False) (CancellationMove id) m.cancellationOutbox[id]? outbox[id]? := by
  obtain rfl | ⟨id, current, hget, _, hopen, hsame, bytes, rfl⟩ := settleTaskCancellationAtRevision_spec h
  · exact ⟨_, _, rfl, fun _ => .same _⟩
  · exact ⟨_, _, rfl, fun _ => entryStep_insert_moved (C := fun _ _ => False)
      (M := CancellationMove) hget ⟨hsame, .settle _ _ hopen⟩⟩

omit [Digest] in
theorem settleStoppedCancellation_step
    (h : m.settleStoppedCancellation taskId next revision = .ok m') :
    ∃ bytes outbox, m' = { m with cancellationBytes := bytes, cancellationOutbox := outbox } ∧
      ∀ id, EntryStep (fun _ => False) (CancellationMove id) m.cancellationOutbox[id]? outbox[id]? := by
  unfold settleStoppedCancellation at h
  split at h
  · exact settleTaskCancellationAtRevision_step h
  · rw [← Except.ok.inj h]
    exact ⟨_, _, rfl, fun _ => .same _⟩

theorem transitionTaskCandidate_effect (hkept : WellKept m)
    (h : m.transitionTaskCandidate taskId next statusMessage dispatchAck cancellationAck nowUnixMs = .ok m') :
    Effect cancellationAck m m' := by
  obtain ⟨existing, settled, cancelled, hget, hfence, hvalid, _, _, _, hsettled, hcancelled, _, _, _, _, _,
    rfl⟩ := transitionTaskCandidate_spec h
  obtain ⟨_, _, rfl, hdispatches⟩ := settleStoppedDispatch_step hsettled
  obtain ⟨_, _, rfl, hcancellations⟩ := settleStoppedCancellation_step hcancelled
  refine ⟨fun _ => entryStep_insert_moved (M := TaskMove m cancellationAck) hget ⟨rfl, rfl, ?_, ?_⟩,
    fun id => (hdispatches id).mono (fun _ h => h.elim) fun _ _ h => h,
    fun id => (hcancellations id).mono (fun _ h => h.elim) fun _ _ h => h, Nat.le_refl _⟩
  · exact live_of_validTransition hvalid
  · exact unfenced_of_checkCancellationFence hkept hfence

variable {expectedAttempt : Nat}

theorem transitionDispatchTask_effect (hkept : WellKept m)
    (h : m.transitionDispatchTask dispatchId expectedAttempt next statusMessage nowUnixMs = .ok m') :
    Effect none m m' := by
  simp only [transitionDispatchTask, bind_eq_ok, okOr_eq_ok, refuseIf_eq_ok, exists_unit] at h
  obtain ⟨dispatch, _, _, task, _, h⟩ := h
  split at h
  · simp only [bind_eq_ok, refuseIf_eq_ok, exists_unit, pure, Except.pure, Except.ok.injEq] at h
    rw [← h.2]
    exact .refl m
  · exact transitionTaskCandidate_effect hkept h

/-! ### Completions -/

/-- The task is completed. -/
def completed (existing : A2aTaskRecord) (revision nowUnixMs : Nat) : A2aTaskRecord :=
  { existing with
    state := .completed, statusMessage := none, updatedRevision := revision
    statusTimestampUnixMs := some nowUnixMs }

/-- A dispatch is settled with an output. -/
structure SettledWith (before after : A2aDispatchOutboxRecord) (output : A2aDispatchCompletionOutput)
    (revision : Nat) : Prop where
  state : after.state = .settled
  attempts : after.attempts = before.attempts
  taskId : after.taskId = before.taskId
  output : exactExistingOutput after.response output = true
  revision : after.updatedRevision = revision

variable {output : A2aDispatchCompletionOutput}

omit [Digest] in
theorem exactExistingOutput_responseOf {dispatch : A2aDispatchOutboxRecord} {response : A2aDispatchResponse}
    (h : responseOf dispatch output = .ok response) : exactExistingOutput response output = true := by
  cases output with
  | task artifacts =>
    simp only [responseOf, bind_eq_ok, exists_unit, pure, Except.pure, Except.ok.injEq] at h
    rw [← h.2]
    exact decide_eq_true rfl
  | message message =>
    simp only [responseOf, bind_eq_ok, exists_unit, pure, Except.pure, Except.ok.injEq] at h
    rw [← h.2.2]
    exact decide_eq_true rfl

/-- A completion returns the outcome that is there, or makes one from the running attempt. -/
theorem completeDispatchOutput_spec {task : A2aTaskRecord}
    (h : m.completeDispatchOutput dispatchId expectedAttempt output nowUnixMs = .ok (task, m')) :
    ∃ dispatch existing, m.dispatchOutbox[dispatchId]? = some dispatch ∧
      dispatch.attempts = expectedAttempt ∧ m.tasks[dispatch.taskId]? = some existing ∧
      ((dispatch.state = .settled ∧ exactExistingOutput dispatch.response output = true ∧
          existing.state = .completed ∧ existing.updatedRevision = dispatch.updatedRevision ∧
          task = existing ∧ m' = m) ∨
        (dispatch.state = .running ∧
          (∀ (id : String) (control : A2aCancellationOutboxRecord), m.cancellationOutbox[id]? = some control →
            control.taskId = dispatch.taskId → control.state = .settled) ∧
          validTransition existing.state .completed = true ∧
          task = completed existing (m.revision + 1) nowUnixMs ∧
          ∃ bytes outbox bytes' outbox', (∀ id, EntryStep (fun _ => False) (DispatchMove id)
              m.dispatchOutbox[id]? outbox[id]?) ∧
            (∀ id, EntryStep (fun _ => False) (CancellationMove id) m.cancellationOutbox[id]? outbox'[id]?) ∧
            (∃ after, outbox[dispatchId]? = some after ∧ SettledWith dispatch after output (m.revision + 1)) ∧
            ∃ events bytes'' schedule byOwner readiness,
            m' = { m with
              dispatchBytes := bytes
              dispatchOutbox := outbox
              cancellationBytes := bytes'
              cancellationOutbox := outbox'
              pendingEvents := events
              pendingEventBytes := bytes''
              pendingEventSchedule := schedule
              pendingEventScheduleByOwner := byOwner
              dispatchEventReadiness := readiness
              revision := m.revision + 1
              tasks := m.tasks.insert existing.mapping.taskId
                (completed existing (m.revision + 1) nowUnixMs) })) := by
  simp only [completeDispatchOutput, bind_eq_ok, okOr_eq_ok, refuseIf_eq_ok, exists_unit, not_not] at h
  obtain ⟨dispatch, hget, hattempts, existing, htask, h⟩ := h
  refine ⟨dispatch, existing, hget, hattempts, htask, ?_⟩
  split at h
  · next hsettled =>
    simp only [bind_eq_ok, refuseIf_eq_ok, exists_unit, not_not, pure, Except.pure, Except.ok.injEq,
      Prod.mk.injEq] at h
    obtain ⟨⟨hexact, hstate, hrevision⟩, rfl, rfl⟩ := h
    exact .inl ⟨hsettled, hexact, hstate, hrevision, rfl, rfl⟩
  · next hopen =>
    simp only [bind_eq_ok, refuseIf_eq_ok, exists_unit, not_not, Bool.not_eq_true, Bool.not_eq_false,
      nextRevision_eq_ok, pure, Except.pure, Except.ok.injEq, Prod.mk.injEq] at h
    obtain ⟨hrunning, hcontrols, _, hvalid, _, ⟨_, rfl⟩, response, hresponse, _, _, replaced, hreplace, settled,
      hsettle, cancelled, hcancel, artifacts, hartifacts, inserted, hinsert, rfl, rfl⟩ := h
    obtain ⟨_, hget', hsame, _, rfl⟩ := replaceDispatchRecord_spec hreplace
    rw [hget, Option.some.injEq] at hget'
    subst hget'
    obtain ⟨current, hcurrent, hsettle⟩ := settleDispatchAtRevision_spec hsettle
    replace hcurrent : (m.dispatchOutbox.insert dispatchId _)[dispatchId]? = some current := hcurrent
    rw [BTreeMap.get_insert_self, Option.some.injEq] at hcurrent
    subst hcurrent
    rcases hsettle with ⟨hstate, _⟩ | ⟨_, _, _, rfl⟩
    · exact absurd hstate hopen
    · obtain ⟨_, outbox', rfl, hcancellations⟩ := settleTaskCancellationAtRevision_step hcancel
      obtain ⟨_, _, _, _, _, rfl⟩ := insertEvents_spec hartifacts
      obtain ⟨_, _, _, _, _, rfl⟩ := insertNewPendingEvent_spec hinsert
      refine .inr ⟨hrunning, ?_, hvalid, rfl, _, _, _, _, fun id => ?_, hcancellations, ?_, _, _, _,
        _, _, rfl⟩
      · intro id control hcontrol hsametask
        have hnone := hcontrols
        rw [← Bool.not_eq_true, BTreeMap.any_values] at hnone
        by_contra hunsettled
        exact hnone ⟨id, control, hcontrol, by simp [hsametask, hunsettled]⟩
      · -- what is there in between is replaced again
        have hinsert (r r' : A2aDispatchOutboxRecord) :
            ((m.dispatchOutbox.insert dispatchId r).insert dispatchId r')[id]? =
              (m.dispatchOutbox.insert dispatchId r')[id]? := by
          simp only [BTreeMap.get_insert]
          split <;> rfl
        rw [hinsert]
        exact entryStep_insert_moved (C := fun _ _ => False) (M := DispatchMove) hget
          ⟨hsame, .settle _ _ hopen⟩
      · exact ⟨_, BTreeMap.get_insert_self, rfl, rfl, rfl, exactExistingOutput_responseOf hresponse, rfl⟩

theorem completeDispatchOutput_effect {task : A2aTaskRecord} (hkept : WellKept m)
    (h : m.completeDispatchOutput dispatchId expectedAttempt output nowUnixMs = .ok (task, m')) :
    Effect acknowledged m m' := by
  obtain ⟨dispatch, existing, _, _, htask, ⟨_, _, _, _, _, rfl⟩ | ⟨_, hcontrols, hvalid, _, _, _, _, _,
    hdispatches, hcancellations, _, _, _, _, _, _, rfl⟩⟩ := completeDispatchOutput_spec h
  · exact .refl m'
  · have hmapping := (hkept.tasks _ _ htask).mapping
    have hthere : m.tasks[existing.mapping.taskId]? = some existing := by rw [hmapping, htask]
    refine ⟨fun _ => entryStep_insert_moved (M := TaskMove m acknowledged) hthere
        ⟨rfl, rfl, live_of_validTransition hvalid, ?_⟩,
      fun id => (hdispatches id).mono (fun _ h => h.elim) fun _ _ h => h,
      fun id => (hcancellations id).mono (fun _ h => h.elim) fun _ _ h => h, Nat.le_refl _⟩
    intro id control hget hsame hopen
    exact absurd (hcontrols id control hget (hsame.trans hmapping)) hopen

end Transitions

end A2aMapper

end AikitRuntime.A2a
