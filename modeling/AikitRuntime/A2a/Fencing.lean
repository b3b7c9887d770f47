import AikitRuntime.A2a.Atomicity

/-!
# Attempts and fences

A host works on one attempt of a dispatch, and what it reports counts only while that attempt runs: a
completion or a transition for another attempt is refused, and one that repeats the outcome of a settled
dispatch is answered again and changes nothing, however much later it comes. A task with an open
cancellation control waits for the acknowledgement of that control. `Fenced` says all of this of one
operation, and `fenced_in_every_run` that it holds in every run.
-/

namespace AikitRuntime.A2a

open Library Durability Mcp

/-- The dispatch whose attempt runs, or one that is settled with the outcome that is reported again. -/
def Answers (m m' : A2aMapper) (dispatchId : String) (attempt : Nat)
    (Repeats : A2aDispatchOutboxRecord → A2aTaskRecord → Prop) : Prop :=
  ∃ dispatch task, m.dispatchOutbox[dispatchId]? = some dispatch ∧ dispatch.attempts = attempt ∧
    m.tasks[dispatch.taskId]? = some task ∧
    (dispatch.state = .running ∨ (dispatch.state = .settled ∧ Repeats dispatch task ∧ m' = m))

/-- The mapper after more operations. -/
def A2aMapper.applyAll [Digest] (m : A2aMapper) (operations : List A2aOperation) : A2aMapper :=
  operations.foldl A2aMapper.apply m

/-- What holds of an operation on a mapper. -/
structure Fenced [Digest] (m : A2aMapper) (operation : A2aOperation) : Prop where
  /-- A dispatch stays, or moves along its states. -/
  dispatches : ∀ (id : String) (before : A2aDispatchOutboxRecord), m.dispatchOutbox[id]? = some before →
    ∃ after, (m.apply operation).dispatchOutbox[id]? = some after ∧ (after = before ∨ DispatchMove id before after)
  /-- A settled dispatch stays. -/
  settled : ∀ (id : String) (record : A2aDispatchOutboxRecord), m.dispatchOutbox[id]? = some record →
    record.state = .settled → (m.apply operation).dispatchOutbox[id]? = some record
  /-- A new dispatch is queued, and was not attempted. -/
  created : ∀ (id : String) (record : A2aDispatchOutboxRecord), m.dispatchOutbox[id]? = none →
    (m.apply operation).dispatchOutbox[id]? = some record → record.state = .queued ∧ record.attempts = 0
  cancellations : ∀ (id : String) (before : A2aCancellationOutboxRecord),
    m.cancellationOutbox[id]? = some before →
    ∃ after, (m.apply operation).cancellationOutbox[id]? = some after ∧
      (after = before ∨ CancellationMove id before after)
  dispatchAttempts : ∀ (id : String) (record : A2aDispatchOutboxRecord),
    (m.apply operation).dispatchOutbox[id]? = some record → record.attempts ≤ maxDispatchAttempts
  cancellationAttempts : ∀ (id : String) (record : A2aCancellationOutboxRecord),
    (m.apply operation).cancellationOutbox[id]? = some record → record.attempts ≤ maxCancellationAttempts
  /-- A completion for an attempt. -/
  completions : ∀ (dispatchId : String) (attempt : Nat) (output : A2aDispatchCompletionOutput)
    (nowUnixMs : Nat) (task : A2aTaskRecord) (m' : A2aMapper),
    m.completeDispatchOutput dispatchId attempt output nowUnixMs = .ok (task, m') →
    Answers m m' dispatchId attempt fun dispatch existing =>
      exactExistingOutput dispatch.response output = true ∧ existing.state = .completed ∧ task = existing
  /-- A transition for an attempt. -/
  transitions : ∀ (dispatchId : String) (attempt : Nat) (next : A2aTaskState)
    (statusMessage : Option String) (nowUnixMs : Nat) (m' : A2aMapper),
    m.transitionDispatchTask dispatchId attempt next statusMessage nowUnixMs = .ok m' →
    Answers m m' dispatchId attempt fun _ existing =>
      existing.state = next ∧ existing.statusMessage = statusMessage
  /-- What a completion settled is answered again after any more operations. -/
  repeatedCompletions : ∀ (dispatchId : String) (attempt : Nat) (output : A2aDispatchCompletionOutput)
    (nowUnixMs : Nat) (task : A2aTaskRecord) (m' : A2aMapper),
    m.completeDispatchOutput dispatchId attempt output nowUnixMs = .ok (task, m') →
    ∀ (later : List A2aOperation) (nowUnixMs' : Nat),
      (m'.applyAll later).completeDispatchOutput dispatchId attempt output nowUnixMs' =
        .ok (task, m'.applyAll later)
  /-- So is what a transition settled, while the task is as it left it; one that is over stays so. -/
  repeatedTransitions : ∀ (dispatchId : String) (attempt : Nat) (next : A2aTaskState)
    (statusMessage : Option String) (nowUnixMs : Nat) (m' : A2aMapper),
    m.transitionDispatchTask dispatchId attempt next statusMessage nowUnixMs = .ok m' →
    ∃ dispatch task, m'.dispatchOutbox[dispatchId]? = some dispatch ∧
      m'.tasks[dispatch.taskId]? = some task ∧
      ((next.isTerminal || next.isWaiting) = true → dispatch.state = .settled) ∧
      (dispatch.state = .settled → ∀ (later : List A2aOperation) (nowUnixMs' : Nat),
        next.isTerminal = true ∨ (m'.applyAll later).tasks[dispatch.taskId]? = some task →
        (m'.applyAll later).transitionDispatchTask dispatchId attempt next statusMessage nowUnixMs' =
          .ok (m'.applyAll later))
  /-- A task whose control is open waits for the acknowledgement of the control. -/
  controls : ∀ (id : String) (control : A2aCancellationOutboxRecord),
    m.cancellationOutbox[id]? = some control → control.state ≠ .settled →
    ∃ before after, m.tasks[control.taskId]? = some before ∧
      (m.apply operation).tasks[control.taskId]? = some after ∧
      ((after.state = before.state ∧ after.statusMessage = before.statusMessage) ∨
        ∃ statusMessage nowUnixMs, operation =
          .acknowledgeCancellation control.cancellationId control.attempts statusMessage nowUnixMs)
  /-- A task that is over stays as it is. -/
  terminal : ∀ (taskId : String) (task : A2aTaskRecord), m.tasks[taskId]? = some task →
    task.state.isTerminal = true → (m.apply operation).tasks[taskId]? = some task

section

variable [Digest] {m m' : A2aMapper}

omit [Digest] in
/-- A settled record does not move. -/
theorem AttemptMove.not_settled {S : Type} {queued running reconcilePending settled state state' : S}
    {limit attempts attempts' : Nat} (hqueued : queued ≠ settled) (hrunning : running ≠ settled)
    (hreconcile : reconcilePending ≠ settled)
    (h : AttemptMove queued running reconcilePending settled limit state attempts state' attempts') :
    state ≠ settled := by
  cases h with
  | run hstate =>
    rcases hstate with rfl | rfl
    · exact hqueued
    · exact hreconcile
  | reconcile hstate =>
    rcases hstate with rfl | rfl
    · exact hqueued
    · exact hrunning
  | settle hstate => exact hstate

omit [Digest] in
theorem A2aOperation.acknowledged_eq_some {operation : A2aOperation} {id : String} {attempt : Nat}
    (h : operation.acknowledged = some (id, attempt)) :
    ∃ statusMessage nowUnixMs, operation = .acknowledgeCancellation id attempt statusMessage nowUnixMs := by
  cases operation with
  | acknowledgeCancellation cancellationId expectedAttempt statusMessage nowUnixMs =>
    simp only [acknowledged, Option.some.injEq, Prod.mk.injEq] at h
    obtain ⟨rfl, rfl⟩ := h
    exact ⟨statusMessage, nowUnixMs, rfl⟩
  | _ => cases h

variable {next : A2aTaskState} {nowUnixMs : Nat} {statusMessage : Option String}

/-- A transition that names a dispatch names its running attempt, which it settles if the task stops. -/
theorem fence_of_transition (hkept : WellKept m) {taskId dispatchId : String} {attempt : Nat}
    (h : m.transitionTaskCandidate taskId next statusMessage (some (dispatchId, attempt)) none nowUnixMs
      = .ok m') :
    ∃ dispatch after task, m.dispatchOutbox[dispatchId]? = some dispatch ∧ dispatch.state = .running ∧
      m'.dispatchOutbox[dispatchId]? = some after ∧ after.taskId = taskId ∧ after.attempts = attempt ∧
      m'.tasks[taskId]? = some task ∧ task.state = next ∧ task.statusMessage = statusMessage ∧
      (after.state = .settled ∧ task.updatedRevision = after.updatedRevision ∨
        (next.isTerminal || next.isWaiting) = false ∧ after.state = .running) := by
  obtain ⟨existing, settled, cancelled, _, _, _, _, hfence, _, hsettled, hcancelled, _, _, _, _, _, rfl⟩ :=
    A2aMapper.transitionTaskCandidate_spec h
  replace hfence := hfence rfl
  obtain ⟨_, _, rfl, _⟩ := A2aMapper.settleStoppedCancellation_step hcancelled
  cases hhead : (m.unsettledDispatches taskId).head? with
  | none =>
    rw [hhead] at hfence
    cases hfence
  | some dispatch =>
    rw [hhead] at hfence hsettled
    simp only [A2aMapper.checkDispatchFence, refuseIf_eq_ok, not_not] at hfence
    obtain ⟨rfl, hrunning, hattempts⟩ := hfence
    obtain ⟨hmem, hunsettled⟩ := List.mem_filter.mp (List.mem_of_mem_head? hhead)
    obtain ⟨key, hget⟩ := BTreeMap.mem_values.mp hmem
    obtain rfl : key = dispatch.dispatchId := (hkept.dispatches key dispatch hget).1.symm
    obtain ⟨htask, _⟩ := Bool.and_eq_true_iff.mp hunsettled
    have htask : dispatch.taskId = taskId := of_decide_eq_true htask
    unfold A2aMapper.settleStoppedDispatch at hsettled
    dsimp only at hsettled
    split at hsettled
    · obtain ⟨current, hcurrent, ⟨hover, _⟩ | ⟨_, _, _, rfl⟩⟩ :=
        A2aMapper.settleDispatchAtRevision_spec hsettled
      · cases hget.symm.trans hcurrent
        rw [hrunning] at hover
        cases hover
      · cases hget.symm.trans hcurrent
        exact ⟨_, _, _, hget, hrunning, BTreeMap.get_insert_self, htask, hattempts, BTreeMap.get_insert_self,
          rfl, rfl, .inl ⟨rfl, rfl⟩⟩
    · next hgoes =>
      cases hsettled
      exact ⟨_, _, _, hget, hrunning, hget, htask, hattempts, BTreeMap.get_insert_self, rfl, rfl,
        .inr ⟨Bool.not_eq_true _ ▸ hgoes, hrunning⟩⟩

variable {output : A2aDispatchCompletionOutput}

theorem answers_completion {dispatchId : String} {attempt : Nat} {task : A2aTaskRecord}
    (h : m.completeDispatchOutput dispatchId attempt output nowUnixMs = .ok (task, m')) :
    Answers m m' dispatchId attempt fun dispatch existing =>
      exactExistingOutput dispatch.response output = true ∧ existing.state = .completed ∧
        task = existing := by
  obtain ⟨dispatch, existing, hget, hattempts, htask, ⟨hsettled, hexact, hstate, _, heq, hsame⟩ |
    ⟨hrunning, _⟩⟩ := A2aMapper.completeDispatchOutput_spec h
  · exact ⟨dispatch, existing, hget, hattempts, htask, .inr ⟨hsettled, ⟨hexact, hstate, heq⟩, hsame⟩⟩
  · exact ⟨dispatch, existing, hget, hattempts, htask, .inl hrunning⟩

theorem answers_transition (hkept : WellKept m) {dispatchId : String} {attempt : Nat}
    (h : m.transitionDispatchTask dispatchId attempt next statusMessage nowUnixMs = .ok m') :
    Answers m m' dispatchId attempt fun _ existing =>
      existing.state = next ∧ existing.statusMessage = statusMessage := by
  simp only [A2aMapper.transitionDispatchTask, bind_eq_ok, okOr_eq_ok, refuseIf_eq_ok, exists_unit,
    not_not] at h
  obtain ⟨dispatch, hget, hattempts, task, htask, h⟩ := h
  refine ⟨dispatch, task, hget, hattempts, htask, ?_⟩
  split at h
  · next hsettled =>
    simp only [bind_eq_ok, refuseIf_eq_ok, exists_unit, not_not, pure, Except.pure, Except.ok.injEq] at h
    obtain ⟨⟨hstate, hmessage, _⟩, rfl⟩ := h
    exact .inr ⟨hsettled, ⟨hstate, hmessage⟩, rfl⟩
  · obtain ⟨dispatch', _, _, hget', hrunning, _⟩ := fence_of_transition hkept h
    rw [hget, Option.some.injEq] at hget'
    exact .inl (hget' ▸ hrunning)

/-! ### Repeats -/

/-- A settled dispatch, and the task that it left. -/
structure Outcome (m : A2aMapper) (dispatchId : String) (attempt : Nat) (dispatch : A2aDispatchOutboxRecord)
    (task : A2aTaskRecord) : Prop where
  found : m.dispatchOutbox[dispatchId]? = some dispatch
  settled : dispatch.state = .settled
  attempts : dispatch.attempts = attempt
  left : m.tasks[dispatch.taskId]? = some task
  revision : task.updatedRevision = dispatch.updatedRevision

variable {dispatchId : String} {attempt : Nat} {dispatch : A2aDispatchOutboxRecord} {task : A2aTaskRecord}

theorem Outcome.completeDispatchOutput (h : Outcome m dispatchId attempt dispatch task) (hexact : exactExistingOutput dispatch.response output = true)
    (hstate : task.state = .completed) (nowUnixMs : Nat) :
    m.completeDispatchOutput dispatchId attempt output nowUnixMs = .ok (task, m) := by
  unfold A2aMapper.completeDispatchOutput
  rw [h.found, okOr_some, ok_bind, refuseIf_of_not (not_not.mpr h.attempts), ok_bind, h.left,
    okOr_some, ok_bind, if_pos h.settled, refuseIf_of_not (not_not.mpr ⟨hexact, hstate, h.revision⟩)]
  rfl

theorem Outcome.transitionDispatchTask (h : Outcome m dispatchId attempt dispatch task) (nowUnixMs : Nat) :
    m.transitionDispatchTask dispatchId attempt task.state task.statusMessage nowUnixMs = .ok m := by
  unfold A2aMapper.transitionDispatchTask
  rw [h.found, okOr_some, ok_bind, refuseIf_of_not (not_not.mpr h.attempts), ok_bind, h.left,
    okOr_some, ok_bind, if_pos h.settled, refuseIf_of_not (not_not.mpr ⟨rfl, rfl, h.revision⟩)]
  rfl

theorem WellKept.dispatch_stays (hkept : WellKept m) (operation : A2aOperation)
    (h : m.dispatchOutbox[dispatchId]? = some dispatch) (hsettled : dispatch.state = .settled) :
    (m.apply operation).dispatchOutbox[dispatchId]? = some dispatch := by
  have hstep := (effect_apply hkept operation).dispatches dispatchId
  rw [h] at hstep
  obtain ⟨after, hafter, rfl | hmove⟩ := hstep.of_some
  · exact hafter
  · exact absurd hsettled (hmove.attempt.not_settled (by decide) (by decide) (by decide))

theorem WellKept.task_stays (hkept : WellKept m) (operation : A2aOperation) {taskId : String}
    (h : m.tasks[taskId]? = some task) (hterminal : task.state.isTerminal = true) :
    (m.apply operation).tasks[taskId]? = some task := by
  have hstep := (effect_apply hkept operation).tasks taskId
  rw [h] at hstep
  obtain ⟨after, hafter, rfl | hmove⟩ := hstep.of_some
  · exact hafter
  · rw [hmove.live] at hterminal
    cases hterminal

/-- What every operation keeps, more operations keep. -/
theorem WellKept.applyAll {P : A2aMapper → Prop} (hkept : WellKept m) (hm : P m)
    (hstep : ∀ m operation, WellKept m → P m → P (m.apply operation)) (later : List A2aOperation) :
    P (m.applyAll later) := by
  unfold A2aMapper.applyAll
  induction later generalizing m with
  | nil => exact hm
  | cons operation rest ih =>
    exact ih ((effect_apply hkept operation).wellKept hkept) (hstep m operation hkept hm)

/-- **An outcome stands**, while the task is as it was left. -/
theorem Outcome.applyAll (hkept : WellKept m) (h : Outcome m dispatchId attempt dispatch task)
    (later : List A2aOperation)
    (hstands : task.state.isTerminal = true ∨ (m.applyAll later).tasks[dispatch.taskId]? = some task) :
    Outcome (m.applyAll later) dispatchId attempt dispatch task := by
  refine ⟨?_, h.settled, h.attempts, hstands.elim (fun hterminal => ?_) id, h.revision⟩
  · exact hkept.applyAll (P := fun m => m.dispatchOutbox[dispatchId]? = some dispatch) h.found
      (fun m operation hkept hm => hkept.dispatch_stays operation hm h.settled) later
  · exact hkept.applyAll (P := fun m => m.tasks[dispatch.taskId]? = some task) h.left
      (fun m operation hkept hm => hkept.task_stays operation hm hterminal) later

/-- A completion leaves an outcome. -/
theorem outcome_completion (hkept : WellKept m)
    (h : m.completeDispatchOutput dispatchId attempt output nowUnixMs = .ok (task, m')) :
    ∃ dispatch, Outcome m' dispatchId attempt dispatch task ∧
      exactExistingOutput dispatch.response output = true ∧ task.state = .completed := by
  obtain ⟨dispatch, existing, hget, hattempts, htask, ⟨hsettled, hexact, hstate, hrevision, rfl, rfl⟩ |
    ⟨_, _, _, rfl, _, _, _, _, _, _, ⟨after, hafter, hwith⟩, _, _, _, _, _, rfl⟩⟩ :=
      A2aMapper.completeDispatchOutput_spec h
  · exact ⟨dispatch, ⟨hget, hsettled, hattempts, htask, hrevision⟩, hexact, hstate⟩
  · refine ⟨after, ⟨hafter, hwith.state, hwith.attempts.trans hattempts, ?_, hwith.revision.symm⟩,
      hwith.output, rfl⟩
    have hmapping := (hkept.tasks _ _ htask).mapping
    rw [hwith.taskId, ← hmapping]
    exact BTreeMap.get_insert_self

/-- A transition leaves an outcome, if its dispatch is settled. -/
theorem outcome_transition
    (hkept : WellKept m)
    (h : m.transitionDispatchTask dispatchId attempt next statusMessage nowUnixMs = .ok m') :
    ∃ dispatch task, m'.dispatchOutbox[dispatchId]? = some dispatch ∧
      m'.tasks[dispatch.taskId]? = some task ∧ task.state = next ∧ task.statusMessage = statusMessage ∧
      ((next.isTerminal || next.isWaiting) = true → dispatch.state = .settled) ∧
      (dispatch.state = .settled → Outcome m' dispatchId attempt dispatch task) := by
  simp only [A2aMapper.transitionDispatchTask, bind_eq_ok, okOr_eq_ok, refuseIf_eq_ok, exists_unit,
    not_not] at h
  obtain ⟨dispatch, hget, hattempts, task, htask, h⟩ := h
  split at h
  · next hsettled =>
    simp only [bind_eq_ok, refuseIf_eq_ok, exists_unit, not_not, pure, Except.pure, Except.ok.injEq] at h
    obtain ⟨⟨hstate, hmessage, hrevision⟩, rfl⟩ := h
    exact ⟨dispatch, task, hget, htask, hstate, hmessage, fun _ => hsettled,
      fun _ => ⟨hget, hsettled, hattempts, htask, hrevision⟩⟩
  · obtain ⟨_, after, task, _, _, hafter, htask, hattempt, hleft, hstate, hmessage, hsettles⟩ :=
      fence_of_transition hkept h
    rw [← htask] at hleft
    refine ⟨after, task, hafter, hleft, hstate, hmessage, fun hstops => ?_, fun hsettled => ?_⟩
    · rcases hsettles with ⟨hsettled, _⟩ | ⟨hgoes, _⟩
      · exact hsettled
      · rw [hgoes] at hstops
        cases hstops
    · rcases hsettles with ⟨_, hrevision⟩ | ⟨_, hrunning⟩
      · exact ⟨hafter, hsettled, hattempt, hleft, hrevision⟩
      · rw [hrunning] at hsettled
        cases hsettled

/-- An operation on a well-kept mapper respects the fences. -/
theorem WellKept.respects (hkept : WellKept m) (operation : A2aOperation) : Fenced m operation := by
  have heffect := effect_apply hkept operation
  have hkept' := heffect.wellKept hkept
  refine ⟨fun id before h => ?_, fun id record h hsettled => ?_, fun id record hnone h => ?_,
    fun id before h => ?_, fun id record h => (hkept'.dispatches id record h).2.1,
    fun id record h => (hkept'.cancellations id record h).2.1, fun _ _ _ _ _ _ h => answers_completion h,
    fun _ _ _ _ _ _ h => answers_transition hkept h, fun _ _ _ _ _ _ h later nowUnixMs' => ?_,
    fun _ _ _ _ _ _ h => ?_, fun id control h hopen => ?_, fun taskId task h hterminal => ?_⟩
  · have hstep := heffect.dispatches id
    rw [h] at hstep
    exact hstep.of_some
  · exact hkept.dispatch_stays operation h hsettled
  · have hstep := heffect.dispatches id
    rw [hnone, h] at hstep
    cases hstep with
    | created _ hnew => exact ⟨hnew.state, hnew.attempts⟩
  · have hstep := heffect.cancellations id
    rw [h] at hstep
    exact hstep.of_some
  · obtain ⟨dispatch, houtcome, hexact, hstate⟩ := outcome_completion hkept h
    have heffect : Effect none m _ := A2aMapper.completeDispatchOutput_effect hkept h
    have hlater := houtcome.applyAll (heffect.wellKept hkept) later (.inl (by rw [hstate]; rfl))
    exact hlater.completeDispatchOutput hexact hstate nowUnixMs'
  · obtain ⟨dispatch, task, hget, htask, rfl, rfl, hstops, houtcome⟩ := outcome_transition hkept h
    refine ⟨dispatch, task, hget, htask, hstops, fun hsettled later nowUnixMs' hstands => ?_⟩
    have hkept' := (A2aMapper.transitionDispatchTask_effect hkept h).wellKept hkept
    exact ((houtcome hsettled).applyAll hkept' later hstands).transitionDispatchTask nowUnixMs'
  · obtain ⟨_, _, before, hbefore, _⟩ := hkept.cancellations id control h
    have hstep := heffect.tasks control.taskId
    rw [hbefore] at hstep
    obtain ⟨after, hafter, rfl | hmove⟩ := hstep.of_some
    · exact ⟨after, after, hbefore, hafter, .inl ⟨rfl, rfl⟩⟩
    · exact ⟨before, after, hbefore, hafter,
        .inr (A2aOperation.acknowledged_eq_some (hmove.unfenced id control h rfl hopen))⟩
  · exact hkept.task_stays operation h hterminal

end

/-- **Fences**: they hold for every operation after every run. -/
theorem fenced_in_every_run [Digest] (operations : List A2aOperation) (operation : A2aOperation) :
    Fenced (.afterRun operations) operation :=
  (wellKept_afterRun operations).respects operation

/-! ### An answer -/

/-- A completion that changes the mapper succeeds. -/
theorem completes_of_changed [Digest] {m : A2aMapper} {dispatchId : String} {attempt nowUnixMs : Nat}
    {artifacts : List A2aArtifact}
    (h : (m.apply (.completeDispatchWithArtifacts dispatchId attempt artifacts nowUnixMs)).revision ≠ m.revision) :
    ∃ task m', m.completeDispatchOutput dispatchId attempt (.task artifacts) nowUnixMs = .ok (task, m') := by
  simp only [A2aMapper.apply, A2aMapper.completeDispatchWithArtifacts] at h
  rcases hresult : m.completeDispatchOutput dispatchId attempt (.task artifacts) nowUnixMs with error | ⟨task, m'⟩
  · rw [hresult] at h
    exact absurd rfl h
  · exact ⟨task, m', rfl⟩

/-- An answer to the first word is given again after any more operations. -/
theorem fenced_hello :
    let _ : Digest := sha256
    let m : A2aMapper := .afterRun attempted
    ∃ task m', m.completeDispatchOutput helloDispatch 1 (.task []) 5 = .ok (task, m') ∧
      ∀ (later : List A2aOperation) (nowUnixMs' : Nat),
        (m'.applyAll later).completeDispatchOutput helloDispatch 1 (.task []) nowUnixMs' =
          .ok (task, m'.applyAll later) := by
  intro _ m
  have hchanged := afterRun_hellos.2
  rw [@A2aMapper.afterRun_append sha256 attempted answered] at hchanged
  obtain ⟨task, m', hcompleted⟩ := @completes_of_changed sha256 _ _ _ _ _ hchanged
  have hfenced := fenced_in_every_run attempted answered
  exact ⟨task, m', hcompleted, hfenced.repeatedCompletions _ _ _ _ _ _ hcompleted⟩

end AikitRuntime.A2a
