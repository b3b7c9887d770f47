import AikitRuntime.A2a.Steps

/-!
# The effect of requests

A message that is accepted finds its place, a task of its principal or a new one, and is recorded: a
receipt, a dispatch, an event. What it changes belongs to its principal (`Placed`, `recordMessage_spec`),
and so does what a cancellation changes. With these, every operation has an effect (`effect_apply`) and
every run leaves a well-kept mapper.
-/

namespace AikitRuntime.A2a

open Library Durability Mcp

/-- Nothing is created, or nothing moves. -/
abbrev Never {V : Type} (_ : V) : Prop := False

namespace A2aMapper

variable {m : A2aMapper} {message : A2aMessage} {principal : ProtocolPrincipal} {nowUnixMs : Nat}

/-! ### Placement -/

/-- Where a message goes: to a task of its principal, and only that principal's context changes. -/
structure Placed (m : A2aMapper) (message : A2aMessage) (principal : ProtocolPrincipal)
    (placement : Placement) : Prop where
  receipts : placement.mapper.receipts = m.receipts
  dispatches : placement.mapper.dispatchOutbox = m.dispatchOutbox
  cancellations : placement.mapper.cancellationOutbox = m.cancellationOutbox
  events : placement.mapper.pendingEvents = m.pendingEvents
  sequence : m.nextSequence ≤ placement.mapper.nextSequence
  contexts : ∀ key, placement.mapper.contexts[key]? = m.contexts[key]? ∧
      placement.mapper.contextOwners[key]? = m.contextOwners[key]? ∨
    ∃ contextId, key = scopedContextKey (.fromPrincipal principal) contextId ∧ m.contexts[key]? = none
  tasks : ∀ taskId, EntryStep
    (fun task => NewTask placement.mapper.nextSequence taskId task ∧ task.owner = .fromPrincipal principal)
    (fun before after => TaskMove m none taskId before after ∧ after.owner = .fromPrincipal principal)
    m.tasks[taskId]? placement.mapper.tasks[taskId]?
  task : ∃ task, placement.mapper.tasks[placement.mapping.taskId]? = some task ∧
    task.owner = .fromPrincipal principal
  message_id : placement.mapping.messageId = message.messageId

/-- A message to a task that may go on. -/
theorem placed_of_placeInTask [Digest] (hkept : WellKept m) {taskId : String} {placement : Placement}
    (hpreflight : m.preflightTask message principal taskId = .ok ())
    (h : m.placeInTask message principal taskId nowUnixMs = .ok placement) :
    Placed m message principal placement := by
  simp only [placeInTask, bind_eq_ok, okOr_eq_ok, refuseIf_eq_ok, exists_unit, Bool.not_eq_true,
    Bool.not_eq_false, A2aContextOwner.admits_iff] at h
  obtain ⟨existing, hget, howner, _, hlive, h⟩ := h
  have hmapping := (hkept.tasks taskId existing hget).mapping
  split at h
  · simp only [bind_eq_ok, refuseIf_eq_ok, exists_unit, pure, Except.pure, Except.ok.injEq] at h
    obtain ⟨_, rfl⟩ := h
    refine ⟨rfl, rfl, rfl, rfl, Nat.le_refl _, fun _ => .inl ⟨rfl, rfl⟩, fun _ => ?_, ?_, rfl⟩
    · refine entryStep_insert_moved (C := fun id task => NewTask m.nextSequence id task ∧
          task.owner = .fromPrincipal principal) (M := fun id before after =>
        TaskMove m none id before after ∧ after.owner = .fromPrincipal principal) hget
        ⟨⟨rfl, rfl, hlive, ?_⟩, howner⟩
      intro id control hcontrol htask hopen
      simp only [preflightTask, bind_eq_ok, refuseIf_eq_ok, exists_unit] at hpreflight
      obtain ⟨_, _, _, hnone, _⟩ := hpreflight
      rw [BTreeMap.any_values] at hnone
      exact absurd ⟨id, control, hcontrol, by simp [htask, hopen]⟩ hnone
    · refine ⟨resumed existing (m.revision + 1) nowUnixMs, ?_, howner⟩
      show (m.tasks.insert taskId _)[existing.mapping.taskId]? = some _
      rw [hmapping]
      exact BTreeMap.get_insert_self
  · simp only [bind_eq_ok, refuseIf_eq_ok, exists_unit, pure, Except.pure, Except.ok.injEq] at h
    obtain ⟨_, rfl⟩ := h
    exact ⟨rfl, rfl, rfl, rfl, Nat.le_refl _, fun _ => .inl ⟨rfl, rfl⟩, fun _ => .same _,
      ⟨existing, by rw [← hget]; exact congrArg (m.tasks[·]?) hmapping, howner⟩, rfl⟩

/-- The session of a context changes that context only. -/
theorem sessionFor_spec {contextId sessionId : String} {m' : A2aMapper}
    (h : m.sessionFor principal contextId = .ok (sessionId, m')) :
    ∃ contexts contextOwners nextSequence, m.nextSequence ≤ nextSequence ∧
      m' = { m with contexts, contextOwners, nextSequence } ∧
      ∀ key : String, contexts[key]? = m.contexts[key]? ∧ contextOwners[key]? = m.contextOwners[key]? ∨
        key = scopedContextKey (.fromPrincipal principal) contextId ∧ m.contexts[key]? = none := by
  unfold sessionFor at h
  dsimp only at h
  split at h
  · simp only [bind_eq_ok, refuseIf_eq_ok, exists_unit, pure, Except.pure, Except.ok.injEq,
      Prod.mk.injEq] at h
    obtain ⟨_, _, rfl⟩ := h
    exact ⟨_, _, _, Nat.le_refl _, rfl, fun _ => .inl ⟨rfl, rfl⟩⟩
  · next hnone =>
    simp only [Except.ok.injEq, Prod.mk.injEq] at h
    obtain ⟨_, rfl⟩ := h
    refine ⟨_, _, _, Nat.le_succ _, rfl, fun key => ?_⟩
    by_cases hkey : scopedContextKey (.fromPrincipal principal) contextId = key
    · exact .inr ⟨hkey.symm, hkey ▸ hnone⟩
    · exact .inl ⟨BTreeMap.get_insert_of_ne hkey, BTreeMap.get_insert_of_ne hkey⟩

/-- A message that starts a task. -/
theorem placed_of_placeInNewTask [Digest] (hkept : WellKept m) {draws : Draws} {placement : Placement}
    (h : m.placeInNewTask draws message principal nowUnixMs = .ok placement) :
    Placed m message principal placement := by
  simp only [placeInNewTask, bind_eq_ok, refuseIf_eq_ok, exists_unit, pure, Except.pure,
    Except.ok.injEq] at h
  obtain ⟨_, contextId, _, ⟨sessionId, m'⟩, hsession, rfl⟩ := h
  obtain ⟨contexts, contextOwners, nextSequence, hsequence, rfl, hcontexts⟩ := sessionFor_spec hsession
  have hfresh : m.tasks[generatedId "a2a-task" nextSequence]? = none := by
    cases hget : m.tasks[generatedId "a2a-task" nextSequence]? with
    | none => rfl
    | some task =>
      obtain ⟨n, hn, heq⟩ := (hkept.tasks _ task hget).generated
      have := generatedId_inj heq
      omega
  refine ⟨rfl, rfl, rfl, rfl, Nat.le_trans hsequence (Nat.le_add_right _ 2), fun key => ?_, fun _ => ?_,
    ⟨_, BTreeMap.get_insert_self, rfl⟩, rfl⟩
  · rcases hcontexts key with hsame | ⟨hkey, hnone⟩
    · exact .inl hsame
    · exact .inr ⟨contextId, hkey, hnone⟩
  · refine entryStep_insert_new (C := fun id task => NewTask (nextSequence + 2) id task ∧
      task.owner = .fromPrincipal principal) (M := fun id before after =>
        TaskMove m none id before after ∧ after.owner = .fromPrincipal principal) hfresh
      ⟨⟨rfl, nextSequence, ?_, rfl⟩, rfl⟩
    exact Nat.lt_add_of_pos_right (by decide)

/-! ### Records -/

/-- What recording a message leaves: a receipt, and at most one dispatch and one event, all of the
principal. -/
theorem recordMessage_spec [Digest] {policy : A2aSendResponsePolicy} {envelope : GovernanceEnvelope}
    {mapping : A2aRunMapping} {resumedFrom : Option A2aTaskState}
    (htask : ∀ task, m.tasks[mapping.taskId]? = some task → task.owner = .fromPrincipal principal) :
    ∃ receipt bytes outbox bytes' events bytes'' schedule byOwner readiness,
      (m.recordMessage message principal policy envelope mapping resumedFrom).2 =
        { m with
          revision := m.revision + 1
          receipts := m.receipts.insert (scopedReceiptKey (.fromPrincipal principal) message.messageId) receipt
          receiptBytes := bytes
          dispatchOutbox := outbox
          dispatchBytes := bytes'
          pendingEvents := events
          pendingEventBytes := bytes''
          pendingEventSchedule := schedule
          pendingEventScheduleByOwner := byOwner
          dispatchEventReadiness := readiness } ∧
      receipt.owner = .fromPrincipal principal ∧ receipt.message = message ∧ receipt.mapping = mapping ∧
      (∀ id : String, EntryStep (fun new : A2aDispatchOutboxRecord => new.dispatchId = id ∧ new.state = .queued ∧ new.attempts = 0 ∧
          new.taskId = mapping.taskId ∧ new.owner = .fromPrincipal principal) (fun _ => Never)
        m.dispatchOutbox[id]? outbox[id]?) ∧
      ∀ id : String, EntryStep (fun new : A2aPendingEventIntent => new.owner = .fromPrincipal principal) (fun _ => Never)
        m.pendingEvents[id]? events[id]? := by
  unfold recordMessage
  dsimp only
  split
  · exact ⟨_, _, _, _, _, _, _, _, _, rfl, rfl, rfl, rfl, fun _ => .same _, fun _ => .same _⟩
  · next task hget =>
    split
    · exact ⟨_, _, _, _, _, _, _, _, _, rfl, rfl, rfl, rfl, fun _ => .same _, fun _ => .same _⟩
    · next dispatched hdispatch =>
      obtain ⟨hnew, _, rfl⟩ := insertNewDispatch_spec hdispatch
      have hdispatches (id : String) := entryStep_insert_new (a := id)
        (C := fun id (new : A2aDispatchOutboxRecord) => new.dispatchId = id ∧ new.state = .queued ∧
          new.attempts = 0 ∧ new.taskId = mapping.taskId ∧ new.owner = .fromPrincipal principal)
        (M := fun _ _ => Never) hnew ⟨rfl, rfl, rfl, rfl, rfl⟩
      split
      · exact ⟨_, _, _, _, _, _, _, _, _, rfl, rfl, rfl, rfl, hdispatches, fun _ => .same _⟩
      · next accepted hevent =>
        obtain ⟨hnew, _, _, _, _, rfl⟩ := insertNewPendingEvent_spec hevent
        exact ⟨_, _, _, _, _, _, _, _, _, rfl, rfl, rfl, rfl, hdispatches,
          fun id => entryStep_insert_new (C := fun _ (new : A2aPendingEventIntent) =>
            new.owner = .fromPrincipal principal) (M := fun _ _ => Never) hnew (htask task hget)⟩

/-! ### Messages -/

section Messages

variable [Digest] {draws : Draws} {correlation : CorrelationIdentity} {policy : A2aSendResponsePolicy}

/-- A message leaves the mapper as it was, or it has a place and is recorded. -/
theorem prepareSendMessageCandidate_cases (hkept : WellKept m) (owner : Option ProtocolPrincipal) :
    (m.prepareSendMessageCandidateWithResponsePolicy draws message correlation owner policy nowUnixMs).2 = m ∨
      ∃ principal placement, owner = some principal ∧
        m.receipts[scopedReceiptKey (.fromPrincipal principal) message.messageId]? = none ∧
        Placed m message principal placement ∧
        m.prepareSendMessageCandidateWithResponsePolicy draws message correlation owner policy nowUnixMs =
          placement.mapper.recordMessage message principal policy (sendEnvelope message correlation owner)
            placement.mapping placement.resumedFrom := by
  unfold prepareSendMessageCandidateWithResponsePolicy
  dsimp only
  split
  · exact .inl rfl
  · next principal =>
    split
    · split
      · exact .inl rfl
      · split
        · exact .inl rfl
        · next hnone =>
          split
          · exact .inl rfl
          · next hpreflight =>
            split
            · exact .inl rfl
            · next mapper mapping resumedFrom hplaced =>
              refine .inr ⟨principal, ⟨mapper, mapping, resumedFrom⟩, rfl, hnone, ?_, rfl⟩
              simp only [preflightSendMessage, hnone, bind_eq_ok, exists_unit, firstRefusal_eq_ok] at hpreflight
              cases htask : message.taskId with
              | none =>
                rw [htask] at hplaced
                exact placed_of_placeInNewTask hkept hplaced
              | some taskId =>
                rw [htask] at hplaced
                exact placed_of_placeInTask hkept
                  (hpreflight.2.1 taskId (by rw [htask]; exact List.mem_singleton_self taskId)) hplaced
    · exact .inl rfl

/-- A message that is recorded where it was placed. -/
theorem recordMessage_effect {placement : Placement} {envelope : GovernanceEnvelope}
    {resumedFrom : Option A2aTaskState} (hplaced : Placed m message principal placement) :
    Effect none m (placement.mapper.recordMessage message principal policy envelope placement.mapping
      resumedFrom).2 := by
  obtain ⟨task, htask, howner⟩ := hplaced.task
  obtain ⟨_, _, outbox, _, _, _, _, _, _, heq, _, _, _, hdispatches, _⟩ :=
    @recordMessage_spec placement.mapper message principal _ policy envelope placement.mapping resumedFrom
      (fun t ht => by
        rw [htask, Option.some.injEq] at ht
        rw [← ht, howner])
  rw [heq]
  refine ⟨fun taskId => (hplaced.tasks taskId).mono (fun _ h => h.1) fun _ _ h => h.1, fun id => ?_,
    fun id => ?_, hplaced.sequence⟩
  · have hstep := hdispatches id
    rw [hplaced.dispatches] at hstep
    refine hstep.mono (fun new hnew => ?_) fun _ _ h => h.elim
    obtain ⟨hid, hstate, hattempts, htaskId, hnewOwner⟩ := hnew
    exact ⟨hid, hstate, hattempts, task, by rw [htaskId]; exact htask, by rw [howner, hnewOwner]⟩
  · have hsame : placement.mapper.cancellationOutbox[id]? = m.cancellationOutbox[id]? := by
      rw [hplaced.cancellations]
    exact hsame ▸ .same _

theorem prepareSendMessageCandidate_effect (hkept : WellKept m) (owner : Option ProtocolPrincipal) :
    Effect none m (m.prepareSendMessageCandidateWithResponsePolicy draws message correlation owner policy
      nowUnixMs).2 := by
  rcases prepareSendMessageCandidate_cases hkept owner with heq | ⟨principal, placement, _, _, hplaced, heq⟩
  · rw [heq]
    exact .refl m
  · rw [heq]
    exact recordMessage_effect hplaced

/-- What is installed is the candidate or the mapper itself. -/
theorem installed_effect {result : GovernedAction A2aAction × A2aMapper} (h : Effect none m result.2) :
    Effect none m (m.installed result).2 := by
  unfold installed
  dsimp only
  split
  · exact h
  · exact .refl m

end Messages

/-! ### Cancellations -/

section Cancellations

variable [Digest] {taskId : String} {correlation : CorrelationIdentity}

omit [Digest] in
/-- A task is disclosed to its owner only. -/
theorem isAllowed_taskEnvelope {task : A2aTaskRecord} {owner : Option ProtocolPrincipal}
    {operation scope : String}
    (h : (taskEnvelope task correlation owner operation scope).authorization.isAllowed = true) :
    ∃ principal, owner = some principal ∧ task.owner = .fromPrincipal principal := by
  unfold taskEnvelope at h
  dsimp only at h
  split at h
  · next hallowed =>
    obtain ⟨principal, rfl, _⟩ := GovernanceEnvelope.isAllowed_evaluate hallowed
    split at h
    · cases h
    · next hadmits =>
      exact ⟨principal, rfl, A2aContextOwner.admits_iff.mp (by simpa using hadmits)⟩
  · next hdenied => exact absurd h hdenied

/-- The task whose cancellation was requested. -/
def cancelling (existing : A2aTaskRecord) (revision : Nat) : A2aTaskRecord :=
  { existing with statusMessage := some "cancellation requested", updatedRevision := revision }

/-- A cancellation leaves the mapper as it was, or it makes a control for a task of its principal that has
none. -/
theorem prepareCancelTaskCandidate_cases (owner : Option ProtocolPrincipal) :
    (m.prepareCancelTaskCandidate taskId correlation owner).2 = m ∨
      ∃ principal existing envelope, owner = some principal ∧ m.tasks[taskId]? = some existing ∧
        existing.owner = .fromPrincipal principal ∧ existing.state.isTerminal = false ∧
        m.cancellationOutbox[cancellationIdForTask existing]? = none ∧
        (let event := makePendingEvent (cancelling existing (m.revision + 1)) (m.revision + 1)
          .cancellationRequested none .pending (m.revision + 1)
        m.pendingEvents[event.eventId]? = none ∧ ∃ bytes bytes' schedule byOwner readiness,
          (m.prepareCancelTaskCandidate taskId correlation owner).2 = { m with
            cancellationBytes := bytes
            cancellationOutbox := m.cancellationOutbox.insert (cancellationIdForTask existing)
              (makeCancellationRecord (cancelling existing (m.revision + 1)) envelope .queued
                (m.revision + 1))
            pendingEvents := m.pendingEvents.insert event.eventId event
            pendingEventBytes := bytes'
            pendingEventSchedule := schedule
            pendingEventScheduleByOwner := byOwner
            dispatchEventReadiness := readiness
            revision := m.revision + 1
            tasks := m.tasks.insert taskId (cancelling existing (m.revision + 1)) }) := by
  unfold prepareCancelTaskCandidate
  split
  · exact .inl rfl
  · next existing hget =>
    dsimp only
    split
    · next hallowed =>
      obtain ⟨principal, rfl, howner⟩ := isAllowed_taskEnvelope hallowed
      split
      · exact .inl rfl
      · next hlive =>
        split
        · exact .inl rfl
        · next hnone =>
          split
          · split
            · exact .inl rfl
            · next projected changed hrequest =>
              simp only [requestCancellation, bind_eq_ok, pure, Except.pure, Except.ok.injEq,
                Prod.mk.injEq] at hrequest
              obtain ⟨_, hevent, _, hcontrol, rfl, rfl⟩ := hrequest
              obtain ⟨hnew, _, _, _, _, rfl⟩ := insertNewPendingEvent_spec hevent
              obtain ⟨_, _, rfl⟩ := insertNewCancellation_spec hcontrol
              exact .inr ⟨principal, existing, _, rfl, hget, howner, by simpa using hlive, hnone, hnew, _, _,
                _, _, _, rfl⟩
          · exact .inl rfl
    · exact .inl rfl

theorem prepareCancelTaskCandidate_effect (hkept : WellKept m) (owner : Option ProtocolPrincipal) :
    Effect none m (m.prepareCancelTaskCandidate taskId correlation owner).2 := by
  rcases @prepareCancelTaskCandidate_cases m _ taskId correlation owner
    with heq | ⟨principal, existing, envelope, rfl, hget, howner, hlive, hnone, _, _, _, _, _, _, heq⟩
  · rw [heq]
    exact .refl m
  · rw [heq]
    have hmapping := (hkept.tasks taskId existing hget).mapping
    refine ⟨fun _ => ?_, fun _ => .same _, fun _ => ?_, Nat.le_refl _⟩
    · refine entryStep_insert_moved (M := TaskMove m none) hget ⟨rfl, rfl, hlive, ?_⟩
      intro id control hcontrol htask _
      obtain ⟨_, _, task, htaskGet, _, hid⟩ := hkept.cancellations id control hcontrol
      rw [htask, hget, Option.some.injEq] at htaskGet
      subst htaskGet
      rw [hid, hcontrol] at hnone
      cases hnone
    · refine entryStep_insert_new (C := NewCancellation _) (M := CancellationMove) hnone
        ⟨rfl, rfl, rfl, cancelling existing (m.revision + 1), ?_, rfl, rfl⟩
      show (m.tasks.insert taskId _)[existing.mapping.taskId]? = some _
      rw [hmapping]
      exact BTreeMap.get_insert_self

end Cancellations

end A2aMapper

/-! ### Every operation -/

/-- The control that an operation acknowledges, and its attempt. -/
def A2aOperation.acknowledged : A2aOperation → Option (String × Nat)
  | .acknowledgeCancellation cancellationId expectedAttempt _ _ => some (cancellationId, expectedAttempt)
  | _ => none

section

variable [Digest] {m : A2aMapper}

/-- What is installed has the effect of a call that succeeds. -/
theorem effect_installedOr {acknowledged : Option (String × Nat)} {result : ProtocolResult A2aMapper}
    (h : ∀ m', result = .ok m' → Effect acknowledged m m') : Effect acknowledged m (installedOr m result) := by
  cases result with
  | ok m' => exact h m' rfl
  | error => exact .refl m

open A2aMapper in
/-- What every operation does. -/
theorem effect_apply (hkept : WellKept m) (operation : A2aOperation) :
    Effect operation.acknowledged m (m.apply operation) := by
  cases operation with
  | prepareSendMessage draws message correlation principal nowUnixMs =>
    exact installed_effect (prepareSendMessageCandidate_effect hkept principal)
  | prepareSendMessageCandidateWithResponsePolicy draws message correlation principal policy nowUnixMs =>
    exact prepareSendMessageCandidate_effect hkept principal
  | prepareCancelTask taskId correlation principal =>
    exact installed_effect (prepareCancelTaskCandidate_effect hkept principal)
  | prepareCancelTaskCandidate taskId correlation principal =>
    exact prepareCancelTaskCandidate_effect hkept principal
  | markDispatchRunning => exact effect_installedOr fun _ => markDispatchRunning_effect
  | markDispatchReconcilePending => exact effect_installedOr fun _ => markDispatchReconcilePending_effect
  | markDispatchSettled => exact effect_installedOr fun _ => markDispatchSettled_effect
  | markCancellationRunning => exact effect_installedOr fun _ => markCancellationRunning_effect
  | markCancellationReconcilePending =>
    exact effect_installedOr fun _ => markCancellationReconcilePending_effect
  | markCancellationSettled => exact effect_installedOr fun _ => markCancellationSettled_effect
  | markEventReconcilePending => exact effect_installedOr fun _ => markEventReconcilePending_effect
  | markEventQuarantined => exact effect_installedOr fun _ => markEventQuarantined_effect
  | markEventSettled => exact effect_installedOr fun _ => markEventSettled_effect
  | clampRestoredEventRetryDeadlines =>
    exact effect_installedOr fun _ => clampRestoredEventRetryDeadlines_effect
  | requireInput => exact effect_installedOr fun _ => transitionTaskCandidate_effect hkept
  | transitionTask => exact effect_installedOr fun _ => transitionTaskCandidate_effect hkept
  | transitionDispatchTask => exact effect_installedOr fun _ => transitionDispatchTask_effect hkept
  | acknowledgeCancellation cancellationId expectedAttempt statusMessage nowUnixMs =>
    refine effect_installedOr fun m' h => ?_
    simp only [acknowledgeCancellation, bind_eq_ok, okOr_eq_ok] at h
    obtain ⟨record, _, h⟩ := h
    exact transitionTaskCandidate_effect hkept h
  | completeDispatchWithArtifacts dispatchId expectedAttempt artifacts nowUnixMs =>
    refine effect_installedOr fun m' h => ?_
    obtain ⟨⟨task, m''⟩, hcomplete, rfl⟩ := map_eq_ok.mp h
    exact completeDispatchOutput_effect hkept hcomplete
  | completeDispatchWithMessage dispatchId expectedAttempt message nowUnixMs =>
    refine effect_installedOr fun m' h => ?_
    obtain ⟨⟨task, m''⟩, hcomplete, rfl⟩ := map_eq_ok.mp h
    exact completeDispatchOutput_effect hkept hcomplete

/-- Every run leaves a well-kept mapper. -/
theorem wellKept_afterRun (operations : List A2aOperation) : WellKept (.afterRun operations) :=
  A2aMapper.run_invariant wellKept_new (fun _ operation hkept => (effect_apply hkept operation).wellKept hkept)
    operations

end

end AikitRuntime.A2a
