import AikitRuntime.A2a.Accounts
import Mathlib.Algebra.Order.BigOperators.Group.List
import Mathlib.Algebra.Order.Group.Nat
import Mathlib.Data.List.Nodup
import Mathlib.Data.Option.Basic

/-!
# What a refusal leaves

An operation that returns an error or a denied action leaves the mapper as it was, with one exception. The
candidate of a `SendMessage` keeps the receipt, and a new task with its context, before it tries to insert the
dispatch and the acceptance event; if one of these has no room in its outbox, the action is denied and the
rest stays. `preflight_send_message` says that it validates all capacity fences, but it does not ask about
these two outboxes, as the candidate of a `CancelTask` does about its own.

`Plan` says where a message would go, and `HasRoom` what the two outboxes need for it.
-/

namespace AikitRuntime.A2a

open Library Durability Mcp

/-! ### Where a message would go -/

/-- Where a message would go: its mapping, its task, the state that the task is resumed from, and the revision
at which the message is accepted. -/
structure Plan where
  mapping : A2aRunMapping
  task : A2aTaskRecord
  resumedFrom : Option A2aTaskState
  revision : Nat

namespace Plan

variable (plan : Plan)

/-- The dispatch of the message. -/
def dispatch (message : A2aMessage) (principal : ProtocolPrincipal) (policy : A2aSendResponsePolicy)
    (envelope : GovernanceEnvelope) : A2aDispatchOutboxRecord :=
  makeDispatchRecord principal
    { message with contextId := some plan.mapping.contextId, taskId := some plan.mapping.taskId } plan.mapping
    plan.resumedFrom
    { envelope with
      correlation := { envelope.correlation with
        sessionId := some plan.mapping.sessionId, runId := some plan.mapping.runId } }
    plan.revision policy (if policy = .immediate then some plan.task else none)

/-- The kind of the acceptance event. -/
def eventKind : A2aPendingEventKind :=
  if plan.task.createdRevision = plan.task.updatedRevision ∧
      plan.mapping.messageId = plan.task.mapping.messageId then .taskCreated
  else if plan.resumedFrom.isSome then .statusChanged
  else .messageAccepted

/-- The acceptance event of the message. -/
def event [Digest] (message : A2aMessage) : A2aPendingEventIntent :=
  makePendingEvent plan.task plan.revision plan.eventKind (some message.messageId) .pending plan.revision

/-- The outboxes have room for the dispatch and for the event. -/
structure Fits [Digest] (m : A2aMapper) (message : A2aMessage) (principal : ProtocolPrincipal)
    (policy : A2aSendResponsePolicy) (envelope : GovernanceEnvelope) : Prop where
  dispatch : dispatches.Room m.dispatchOutbox m.dispatchBytes
    (plan.dispatch message principal policy envelope).dispatchId (plan.dispatch message principal policy envelope)
  event : events.Room m.pendingEvents m.pendingEventBytes (plan.event message).eventId (plan.event message)

end Plan

namespace A2aMapper

variable (m : A2aMapper) (draws : Draws) (message : A2aMessage) (principal : ProtocolPrincipal) (nowUnixMs : Nat)

/-- A message that goes on with a task, which takes one revision more if the task waits. -/
def planInTask (taskId : String) : Option Plan := do
  let task ← m.tasks[taskId]?
  let waiting := task.state.isWaiting
  guard (m.hasCounterCapacity 0 (if waiting then 2 else 1))
  pure {
    mapping := { task.mapping with messageId := message.messageId }
    task := if waiting then resumed task (m.revision + 1) nowUnixMs else task
    resumedFrom := if waiting then some task.state else none
    revision := m.revision + if waiting then 2 else 1 }

/-- A message that starts a task in its context, or in a new one. -/
def planNewTask : Option Plan := do
  let contextId ← (m.contextFor draws message (.fromPrincipal principal)).toOption
  let key := scopedContextKey (.fromPrincipal principal) contextId
  let sessions := if m.contexts.contains key then 0 else 1
  guard (m.hasCounterCapacity (sessions + 2) 2)
  guard (m.contexts.contains key → m.contextOwners[key]?.any fun owner => owner.admits principal)
  let mapping : A2aRunMapping :=
    ⟨contextId, m.contexts[key]?.getD (generatedId "a2a-session" m.nextSequence),
      generatedId "a2a-task" (m.nextSequence + sessions), generatedId "a2a-run" (m.nextSequence + sessions + 1),
      message.messageId⟩
  pure {
    mapping
    task := ⟨mapping, .working, principal.subject, principal.tenantId, m.revision + 1, m.revision + 1, none,
      some nowUnixMs⟩
    resumedFrom := none
    revision := m.revision + 2 }

/-- Where a message would go, if it can. -/
def plan : Option Plan :=
  match message.taskId with
  | some taskId => m.planInTask message nowUnixMs taskId
  | none => m.planNewTask draws message principal nowUnixMs

/-- Where a message that is not refused goes. -/
def place : Except Denial Placement :=
  match message.taskId with
  | some taskId => m.placeInTask message principal taskId nowUnixMs
  | none => m.placeInNewTask draws message principal nowUnixMs

variable {m draws message principal nowUnixMs} {m' : A2aMapper}

/-- A guard that is passed. -/
theorem of_guard {p : Prop} [Decidable p] {u : Unit} (h : (guard p : Option Unit) = some u) : p := by
  by_contra hnot
  rw [guard, if_neg hnot] at h
  cases h

/-- A message is placed where it was planned, and the outboxes are not touched. -/
structure Follows (m : A2aMapper) (plan : Plan) (placement : Placement) : Prop where
  mapping : placement.mapping = plan.mapping
  resumedFrom : placement.resumedFrom = plan.resumedFrom
  task : placement.mapper.tasks[plan.mapping.taskId]? = some plan.task
  revision : placement.mapper.revision + 1 = plan.revision
  later : m.revision < plan.revision
  dispatches : placement.mapper.dispatchOutbox = m.dispatchOutbox
  dispatchBytes : placement.mapper.dispatchBytes = m.dispatchBytes
  events : placement.mapper.pendingEvents = m.pendingEvents
  eventBytes : placement.mapper.pendingEventBytes = m.pendingEventBytes

variable {placement : Placement} {taskId : String}

theorem follows_placeInTask [Digest] (hwell : WellKept m)
    (h : m.placeInTask message principal taskId nowUnixMs = .ok placement) :
    ∃ plan, m.planInTask message nowUnixMs taskId = some plan ∧ Follows m plan placement := by
  simp only [placeInTask, bind_eq_ok, okOr_eq_ok, refuseIf_eq_ok, exists_unit, Bool.not_eq_false] at h
  obtain ⟨task, hget, _, _, _, h⟩ := h
  have hmapping := (hwell.tasks taskId task hget).mapping
  unfold planInTask
  split at h
  · next hwaiting =>
    simp only [bind_eq_ok, refuseIf_eq_ok, exists_unit, Bool.not_eq_false, pure, Except.pure, Except.ok.injEq] at h
    obtain ⟨hcapacity, rfl⟩ := h
    refine ⟨_, by simp [hget, hwaiting, hcapacity, guard]; rfl, rfl, rfl, ?_, rfl, by simp, rfl, rfl, rfl, rfl⟩
    show (m.tasks.insert taskId _)[task.mapping.taskId]? = some _
    rw [hmapping]
    exact BTreeMap.get_insert_self
  · next hgoing =>
    simp only [bind_eq_ok, refuseIf_eq_ok, exists_unit, Bool.not_eq_false, pure, Except.pure, Except.ok.injEq] at h
    obtain ⟨hcapacity, rfl⟩ := h
    refine ⟨_, by simp [hget, hgoing, hcapacity, guard]; rfl, rfl, rfl, ?_, rfl, by simp, rfl, rfl, rfl, rfl⟩
    show m.tasks[task.mapping.taskId]? = some _
    rw [hmapping, hget]

variable {plan : Plan}

/-- A plan for a message that the checks let through is carried out. -/
theorem placeInTask_of_plan
    (hpreflight : m.preflightTask message principal taskId = .ok ())
    (h : m.planInTask message nowUnixMs taskId = some plan) :
    ∃ placement, m.placeInTask message principal taskId nowUnixMs = .ok placement := by
  simp only [preflightTask, bind_eq_ok, okOr_eq_ok, Option.filter_eq_some_iff, refuseIf_eq_ok, exists_unit] at hpreflight
  obtain ⟨task, ⟨hget, howner⟩, hcontext, _, _, _, hlive⟩ := hpreflight
  unfold planInTask at h
  simp only [hget, Option.bind_eq_bind, Option.bind_some, Option.bind_eq_some_iff] at h
  obtain ⟨_, hcapacity, _⟩ := h
  have hcounters := of_guard hcapacity
  unfold placeInTask
  rw [hget, okOr_some, ok_bind, howner, refuseIf_of_not (by simp), ok_bind, refuseIf_of_not hcontext, ok_bind,
    refuseIf_of_not hlive, ok_bind]
  dsimp only
  split
  · next hwaiting =>
    rw [if_pos hwaiting] at hcounters
    rw [refuseIf_of_not (by simp [hcounters])]
    exact ⟨_, rfl⟩
  · next hgoing =>
    rw [if_neg hgoing] at hcounters
    rw [refuseIf_of_not (by simp [hcounters])]
    exact ⟨_, rfl⟩

/-- How many ids a message takes that starts a task in this context. -/
theorem generatedIds_eq {contextId : String}
    (h : m.contextFor draws message (.fromPrincipal principal) = .ok contextId) :
    (if (message.contextId.any fun contextId =>
        m.contexts.contains (scopedContextKey (.fromPrincipal principal) contextId)) = true then 2 else 3) =
      (if m.contexts.contains (scopedContextKey (.fromPrincipal principal) contextId) = true then 0 else 1) + 2 := by
  rcases contextFor_spec h with hsome | ⟨hmissing, hnone, _⟩
  · rw [hsome, Option.any_some]
    split <;> rfl
  · rw [hmissing, BTreeMap.contains_eq_false.mpr hnone]
    rfl

theorem follows_placeInNewTask
    (h : m.placeInNewTask draws message principal nowUnixMs = .ok placement) :
    ∃ plan, m.planNewTask draws message principal nowUnixMs = some plan ∧ Follows m plan placement := by
  simp only [placeInNewTask, bind_eq_ok, refuseIf_eq_ok, exists_unit, Bool.not_eq_false, pure, Except.pure,
    Except.ok.injEq] at h
  obtain ⟨hcapacity, contextId, hcontext, ⟨sessionId, opened⟩, hopened, rfl⟩ := h
  rw [generatedIds_eq hcontext] at hcapacity
  unfold planNewTask
  rw [hcontext]
  simp only [Except.toOption, Option.bind_eq_bind, Option.bind_some, guard, hcapacity, if_true]
  unfold sessionFor at hopened
  dsimp only at hopened
  split at hopened
  · next stored hget =>
    simp only [bind_eq_ok, refuseIf_eq_ok, exists_unit, pure, Except.pure, Except.ok.injEq, Prod.mk.injEq] at hopened
    obtain ⟨howner, rfl, rfl⟩ := hopened
    have hcontains : m.contexts.contains (scopedContextKey (.fromPrincipal principal) contextId) = true := by
      rw [Std.ExtTreeMap.contains_eq_isSome_getElem?, hget]
      rfl
    have hadmits : (m.contextOwners[scopedContextKey (.fromPrincipal principal) contextId]?.any fun owner =>
        owner.admits principal) = true := by
      cases howners : m.contextOwners[scopedContextKey (.fromPrincipal principal) contextId]? with
      | none => simp [howners] at howner
      | some owner => simpa [howners] using howner
    rw [hcontains, hadmits, hget]
    refine ⟨_, rfl, rfl, rfl, BTreeMap.get_insert_self, rfl, ?_, rfl, rfl, rfl, rfl⟩
    exact Nat.lt_add_of_pos_right (by decide)
  · next hnone =>
    rw [Except.ok.injEq, Prod.mk.injEq] at hopened
    obtain ⟨rfl, rfl⟩ := hopened
    have hcontains := BTreeMap.contains_eq_false.mpr hnone
    rw [hcontains, hnone]
    refine ⟨_, rfl, rfl, rfl, BTreeMap.get_insert_self, rfl, ?_, rfl, rfl, rfl, rfl⟩
    exact Nat.lt_add_of_pos_right (by decide)

theorem placeInNewTask_of_plan (h : m.planNewTask draws message principal nowUnixMs = some plan) :
    ∃ placement, m.placeInNewTask draws message principal nowUnixMs = .ok placement := by
  unfold planNewTask at h
  cases hcontext : m.contextFor draws message (.fromPrincipal principal) with
  | error denial => simp [hcontext, Except.toOption] at h
  | ok contextId =>
    simp only [hcontext, Except.toOption, Option.bind_eq_bind, Option.bind_some, Option.bind_eq_some_iff] at h
    obtain ⟨_, hfirst, _, hsecond, _⟩ := h
    have hcapacity := of_guard hfirst
    have hadmits := of_guard hsecond
    rw [← generatedIds_eq hcontext] at hcapacity
    unfold placeInNewTask
    dsimp only
    rw [hcapacity, refuseIf_of_not (by simp), ok_bind, hcontext, ok_bind]
    have hsession : ∃ opened, m.sessionFor principal contextId = .ok opened := by
      unfold sessionFor
      dsimp only
      split
      · next stored hget =>
        have hcontains : m.contexts.contains (scopedContextKey (.fromPrincipal principal) contextId) = true := by
          rw [Std.ExtTreeMap.contains_eq_isSome_getElem?, hget]
          rfl
        have hany := hadmits hcontains
        have howner : ¬ (m.contextOwners[scopedContextKey (.fromPrincipal principal) contextId]?.all fun owner =>
            !owner.admits principal) = true := by
          cases howners : m.contextOwners[scopedContextKey (.fromPrincipal principal) contextId]? with
          | none => simp [howners] at hany
          | some owner => simpa [howners] using hany
        rw [refuseIf_of_not howner]
        exact ⟨_, rfl⟩
      · exact ⟨_, rfl⟩
    obtain ⟨⟨sessionId, opened⟩, hopened⟩ := hsession
    rw [hopened]
    exact ⟨_, rfl⟩

/-! ### What recording a message needs -/

section Recording

variable [Digest] {policy : A2aSendResponsePolicy} {correlation : CorrelationIdentity} {envelope : GovernanceEnvelope}

variable {placement : Placement} {plan : Plan}

/-- A message that has its place is accepted where the outboxes have room, and it leaves something behind in
either case. -/
theorem recordMessage_accepts (message : A2aMessage) (principal : ProtocolPrincipal)
    (policy : A2aSendResponsePolicy) (hfollows : Follows m plan placement)
    (hallowed : envelope.authorization.isAllowed = true) :
    ((placement.mapper.recordMessage message principal policy envelope placement.mapping
        placement.resumedFrom).1.isAuthorized = true ↔ plan.Fits m message principal policy envelope) ∧
      (placement.mapper.recordMessage message principal policy envelope placement.mapping
        placement.resumedFrom).2 ≠ m := by
  have hlater : ∀ changed : A2aMapper, changed.revision = plan.revision → changed ≠ m := by
    rintro changed hrevision rfl
    exact absurd hfollows.later (by omega)
  unfold recordMessage
  rw [hfollows.mapping, hfollows.resumedFrom, hfollows.revision]
  dsimp only
  rw [hfollows.task]
  dsimp only
  split
  · next error hrefused =>
    refine ⟨⟨fun h => (by cases h), fun hfits => ?_⟩, hlater _ rfl⟩
    have hroom := hfits.dispatch
    rw [← hfollows.dispatches, ← hfollows.dispatchBytes] at hroom
    have hboth := hrefused.symm.trans (insertNewDispatch_eq_ok.mpr ⟨hroom, rfl⟩)
    cases hboth
  · next dispatched haccepted =>
    obtain ⟨hdispatch, rfl⟩ := insertNewDispatch_eq_ok.mp haccepted
    dsimp only at hdispatch
    rw [hfollows.dispatches, hfollows.dispatchBytes] at hdispatch
    split
    · next error hrefused =>
      refine ⟨⟨fun h => (by cases h), fun hfits => ?_⟩, hlater _ rfl⟩
      have hroom := hfits.event
      rw [← hfollows.events, ← hfollows.eventBytes] at hroom
      have hboth := hrefused.symm.trans (insertNewPendingEvent_eq_ok.mpr ⟨hroom, rfl⟩)
      cases hboth
    · next accepted hinserted =>
      have hevent := (insertNewPendingEvent_eq_ok.mp hinserted).1
      dsimp only at hevent
      rw [hfollows.events, hfollows.eventBytes] at hevent
      refine ⟨⟨fun _ => ⟨hdispatch, hevent⟩, fun _ => ?_⟩, hlater _ ?_⟩
      · rw [GovernedAction.isAuthorized_fromEnvelope]
        exact hallowed
      · obtain ⟨_, _, _, _, _, rfl⟩ := insertNewPendingEvent_spec hinserted
        rfl

end Recording

/-! ### Refusals -/

section Refusals

variable [Digest]

/-- The operation returns an error, or an action that is denied. -/
def refuses (m : A2aMapper) : A2aOperation → Bool
  | .prepareSendMessage draws message correlation principal nowUnixMs =>
    !(m.prepareSendMessage draws message correlation principal nowUnixMs).1.isAuthorized
  | .prepareSendMessageCandidateWithResponsePolicy draws message correlation principal policy nowUnixMs =>
    !(m.prepareSendMessageCandidateWithResponsePolicy draws message correlation principal policy
      nowUnixMs).1.isAuthorized
  | .prepareCancelTask taskId correlation principal =>
    !(m.prepareCancelTask taskId correlation principal).1.isAuthorized
  | .prepareCancelTaskCandidate taskId correlation principal =>
    !(m.prepareCancelTaskCandidate taskId correlation principal).1.isAuthorized
  | .markDispatchRunning dispatchId => !(m.markDispatchRunning dispatchId).isOk
  | .markDispatchReconcilePending dispatchId => !(m.markDispatchReconcilePending dispatchId).isOk
  | .markDispatchSettled dispatchId => !(m.markDispatchSettled dispatchId).isOk
  | .markCancellationRunning cancellationId => !(m.markCancellationRunning cancellationId).isOk
  | .markCancellationReconcilePending cancellationId => !(m.markCancellationReconcilePending cancellationId).isOk
  | .markCancellationSettled cancellationId => !(m.markCancellationSettled cancellationId).isOk
  | .markEventReconcilePending eventId failedAtUnixMs => !(m.markEventReconcilePending eventId failedAtUnixMs).isOk
  | .markEventQuarantined eventId reason => !(m.markEventQuarantined eventId reason).isOk
  | .markEventSettled eventId => !(m.markEventSettled eventId).isOk
  | .clampRestoredEventRetryDeadlines nowUnixMs => !(m.clampRestoredEventRetryDeadlines nowUnixMs).isOk
  | .requireInput taskId statusMessage nowUnixMs => !(m.requireInput taskId statusMessage nowUnixMs).isOk
  | .transitionTask taskId next statusMessage nowUnixMs =>
    !(m.transitionTask taskId next statusMessage nowUnixMs).isOk
  | .transitionDispatchTask dispatchId expectedAttempt next statusMessage nowUnixMs =>
    !(m.transitionDispatchTask dispatchId expectedAttempt next statusMessage nowUnixMs).isOk
  | .acknowledgeCancellation cancellationId expectedAttempt statusMessage nowUnixMs =>
    !(m.acknowledgeCancellation cancellationId expectedAttempt statusMessage nowUnixMs).isOk
  | .completeDispatchWithArtifacts dispatchId expectedAttempt artifacts nowUnixMs =>
    !(m.completeDispatchWithArtifacts dispatchId expectedAttempt artifacts nowUnixMs).isOk
  | .completeDispatchWithMessage dispatchId expectedAttempt message nowUnixMs =>
    !(m.completeDispatchWithMessage dispatchId expectedAttempt message nowUnixMs).isOk

/-- What the candidate of a `SendMessage` does not ask for: a message that the checks let through has room for
its dispatch and its acceptance event. -/
def HasRoom (m : A2aMapper) : A2aOperation → Prop
  | .prepareSendMessageCandidateWithResponsePolicy draws message correlation (some principal) policy nowUnixMs =>
    (sendEnvelope message correlation (some principal)).authorization.isAllowed = true →
    m.preflightSendMessage message principal = .ok () →
    m.receipts[scopedReceiptKey (.fromPrincipal principal) message.messageId]? = none →
    ∀ plan, m.plan draws message principal nowUnixMs = some plan →
      plan.Fits m message principal policy (sendEnvelope message correlation (some principal))
  | _ => True

omit [Digest] in
theorem installedOr_of_refused {result : ProtocolResult A2aMapper} (h : (!result.isOk) = true) :
    installedOr m result = m := by
  cases result with
  | ok => cases h
  | error => rfl

omit [Digest] in
theorem not_isOk_map {α β : Type} {result : ProtocolResult α} {f : α → β} (h : (!result.isOk) = true) :
    (!(result.map f).isOk) = true := by
  cases result with
  | ok => cases h
  | error => rfl

omit [Digest] in
theorem installed_of_refused {result : GovernedAction A2aAction × A2aMapper}
    (h : (!(m.installed result).1.isAuthorized) = true) : (m.installed result).2 = m := by
  rw [Bool.not_eq_true'] at h
  have hresult : result.1.isAuthorized = false := h
  unfold installed
  dsimp only
  rw [if_neg]
  simp [hresult]

variable {correlation : CorrelationIdentity}

theorem prepareCancelTaskCandidate_of_refused {taskId : String}
    {owner : Option ProtocolPrincipal}
    (h : (!(m.prepareCancelTaskCandidate taskId correlation owner).1.isAuthorized) = true) :
    (m.prepareCancelTaskCandidate taskId correlation owner).2 = m := by
  generalize hresult : m.prepareCancelTaskCandidate taskId correlation owner = result at h ⊢
  unfold prepareCancelTaskCandidate at hresult
  split at hresult
  · rw [← hresult]
  · dsimp only at hresult
    split at hresult
    · next hallowed =>
      split at hresult
      · rw [← hresult]
      · split at hresult
        · rw [← hresult]
        · split at hresult
          · split at hresult
            · rw [← hresult]
            · rw [← hresult, GovernedAction.isAuthorized_fromEnvelope, hallowed] at h
              cases h
          · rw [← hresult]
    · rw [← hresult]

variable {plan : Plan}

omit [Digest] in
/-- A message has a place where there is a plan for it. -/
theorem place_of_plan (hpreflight : m.preflightSendMessage message principal = .ok ())
    (hnone : m.receipts[scopedReceiptKey (.fromPrincipal principal) message.messageId]? = none)
    (h : m.plan draws message principal nowUnixMs = some plan) :
    ∃ placement, m.place draws message principal nowUnixMs = .ok placement := by
  unfold A2aMapper.plan at h
  unfold place
  simp only [preflightSendMessage, hnone, bind_eq_ok, exists_unit, firstRefusal_eq_ok] at hpreflight
  split at h
  · next taskId htask =>
    exact placeInTask_of_plan (hpreflight.2.1 taskId (by rw [htask]; exact List.mem_singleton_self taskId)) h
  · exact placeInNewTask_of_plan h

variable {placement : Placement}

theorem follows_place (hwell : WellKept m)
    (h : m.place draws message principal nowUnixMs = .ok placement) :
    ∃ plan, m.plan draws message principal nowUnixMs = some plan ∧ Follows m plan placement := by
  unfold place at h
  unfold A2aMapper.plan
  split at h
  · exact follows_placeInTask hwell h
  · exact follows_placeInNewTask h

/-- The candidate of a `SendMessage` that is denied is as it was exactly where the outboxes have room for a
message that the checks let through. -/
theorem prepareSendMessageCandidate_atomic (hwell : WellKept m) (correlation : CorrelationIdentity)
    (owner : Option ProtocolPrincipal) (policy : A2aSendResponsePolicy) :
    ((!(m.prepareSendMessageCandidateWithResponsePolicy draws message correlation owner policy
        nowUnixMs).1.isAuthorized) = true →
      (m.prepareSendMessageCandidateWithResponsePolicy draws message correlation owner policy nowUnixMs).2 = m) ↔
    m.HasRoom (.prepareSendMessageCandidateWithResponsePolicy draws message correlation owner policy nowUnixMs) := by
  cases owner with
  | none => exact ⟨fun _ => trivial, fun _ _ => rfl⟩
  | some principal =>
    generalize hresult : m.prepareSendMessageCandidateWithResponsePolicy draws message correlation (some principal)
      policy nowUnixMs = result
    unfold prepareSendMessageCandidateWithResponsePolicy at hresult
    dsimp only at hresult
    unfold HasRoom
    split at hresult
    · next hallowed =>
      split at hresult
      · next error hinvalid =>
        rw [← hresult]
        refine ⟨fun _ _ hpreflight => ?_, fun _ _ => rfl⟩
        simp only [preflightSendMessage, hinvalid, error_bind, reduceCtorEq] at hpreflight
      · split at hresult
        · next receipt hthere =>
          rw [← hresult]
          refine ⟨fun _ _ _ hnone => ?_, fun _ _ => rfl⟩
          rw [hthere] at hnone
          cases hnone
        · next hnone =>
          split at hresult
          · next error hrefused =>
            rw [← hresult]
            refine ⟨fun _ _ hpreflight => ?_, fun _ _ => rfl⟩
            rw [hrefused] at hpreflight
            cases hpreflight
          · next u hpreflight =>
            split at hresult
            · next code reason hdenied =>
              rw [← hresult]
              refine ⟨fun _ _ _ _ plan hplan => ?_, fun _ _ => rfl⟩
              obtain ⟨placement, hplaced⟩ := place_of_plan hpreflight hnone hplan
              cases hdenied.symm.trans hplaced
            · next mapper mapping resumedFrom hplaced =>
              obtain ⟨plan, hplan, hfollows⟩ := follows_place hwell hplaced
              obtain ⟨haccepts, hchanged⟩ := recordMessage_accepts message principal policy hfollows hallowed
              rw [hresult] at haccepts hchanged
              constructor
              · intro hsame _ _ _ plan' hplan'
                rw [hplan, Option.some.injEq] at hplan'
                subst hplan'
                refine haccepts.mp ?_
                by_contra hdenied
                rw [Bool.not_eq_true] at hdenied
                exact hchanged (hsame (by rw [hdenied]; rfl))
              · intro hroom hdenied
                have hauthorized := haccepts.mpr (hroom hallowed hpreflight hnone plan hplan)
                rw [hauthorized] at hdenied
                cases hdenied
    · next hdenied =>
      rw [← hresult]
      exact ⟨fun _ hallowed => absurd hallowed hdenied, fun _ _ => rfl⟩

/-- An operation that is refused leaves the mapper as it was exactly where it has room. -/
theorem refused_unchanged_iff (hwell : WellKept m) (operation : A2aOperation) :
    (m.refuses operation = true → m.apply operation = m) ↔ m.HasRoom operation := by
  cases operation with
  | prepareSendMessageCandidateWithResponsePolicy draws message correlation principal policy nowUnixMs =>
    exact prepareSendMessageCandidate_atomic hwell correlation principal policy
  | prepareSendMessage => exact ⟨fun _ => trivial, fun _ => installed_of_refused⟩
  | prepareCancelTask => exact ⟨fun _ => trivial, fun _ => installed_of_refused⟩
  | prepareCancelTaskCandidate => exact ⟨fun _ => trivial, fun _ => prepareCancelTaskCandidate_of_refused⟩
  | completeDispatchWithArtifacts dispatchId expectedAttempt artifacts nowUnixMs =>
    refine ⟨fun _ => trivial, fun _ hrefused => installedOr_of_refused ?_⟩
    exact not_isOk_map hrefused
  | completeDispatchWithMessage dispatchId expectedAttempt message nowUnixMs =>
    refine ⟨fun _ => trivial, fun _ hrefused => installedOr_of_refused ?_⟩
    exact not_isOk_map hrefused
  | _ => exact ⟨fun _ => trivial, fun _ => installedOr_of_refused⟩

end Refusals

end A2aMapper

/-! ### Every reachable mapper -/

/-- The accounts of a mapper: the bytes that it tells are those of what it stores, its indexes are those that
would be rebuilt, and no capacity is exceeded. -/
structure Accounted (m : A2aMapper) : Prop where
  receiptBytes : messageReceipts.storageBytes m.receipts = .ok m.receiptBytes
  dispatchBytes : dispatches.storageBytes m.dispatchOutbox = .ok m.dispatchBytes
  cancellationBytes : cancellations.storageBytes m.cancellationOutbox = .ok m.cancellationBytes
  pendingEventBytes : events.storageBytes m.pendingEvents = .ok m.pendingEventBytes
  schedule : m.pendingEventSchedule = rebuildPendingEventSchedule m.pendingEvents
  scheduleByOwner : m.pendingEventScheduleByOwner = rebuildPendingEventScheduleByOwner m.pendingEvents
  readiness : m.dispatchEventReadiness = rebuildDispatchEventReadiness m.pendingEvents
  capacities : m.WithinCapacities
  validated : m.validateCapacitySnapshot = .ok ()

theorem Kept.accounting {m : A2aMapper} (h : Kept m) : Accounted m := by
  have hcount : m.pendingEvents.size < u64Max := by
    have hmax : events.maxCount < u64Max := by decide
    exact Nat.lt_of_le_of_lt h.capacities.events.count hmax
  obtain ⟨hschedule, hschedules, hreadiness⟩ := h.indexed.rebuilt hcount
  exact ⟨(h.capacities.receipts.checkBytes (by decide)).1, (h.capacities.dispatches.checkBytes (by decide)).1,
    (h.capacities.cancellations.checkBytes (by decide)).1, (h.capacities.events.checkBytes (by decide)).1, hschedule,
    hschedules, hreadiness, h.capacities, h.capacities.validate⟩

/-- **After every run, the accounts are right, and the next operation, if it is refused, leaves every field of
the mapper as it was exactly where the outboxes have room** for what it inserts last. -/
theorem accounted_afterRun [Digest] (operations : List A2aOperation) (operation : A2aOperation) :
    Accounted (.afterRun operations) ∧
      (((A2aMapper.afterRun operations).refuses operation = true →
          (A2aMapper.afterRun operations).apply operation = .afterRun operations) ↔
        (A2aMapper.afterRun operations).HasRoom operation) :=
  ⟨(kept_afterRun operations).accounting, A2aMapper.refused_unchanged_iff (wellKept_afterRun operations) operation⟩

/-! ### A principal with many scopes -/

/-- A scope with a number. -/
def manyScope (i : Nat) : String := String.ofList (List.replicate 200 's') ++ toString i

/-- A principal with that many scopes beside the one that it needs. -/
def crowded (n : Nat) : ProtocolPrincipal :=
  ⟨"alice", none, (scopes [sendMessageScope]).extend ((List.range n).map manyScope)⟩

/-- A message of one word. -/
def oneWord : A2aMessage := ⟨"m-1", some "chat", none, .user, [.text "hello"], ∅⟩

/-- The identity of its request. -/
def crowdedRequest : CorrelationIdentity := ⟨"c-1", "r-1", none, none⟩

theorem toList_manyScope (i : Nat) : (manyScope i).toList = List.replicate 200 's' ++ Nat.toDigits 10 i := by
  unfold manyScope
  rw [String.toList_append, String.toList_ofList, toString_toList]

variable {i : Nat}

theorem mem_manyScope {c : Char} (h : c ∈ (manyScope i).toList) : c = 's' ∨ c.isDigit = true := by
  rw [toList_manyScope, List.mem_append] at h
  exact h.imp List.eq_of_mem_replicate (Nat.isDigit_of_mem_toDigits (by decide) (by decide))

theorem isPlain_manyScope (i : Nat) : (manyScope i).toList.all isPlain = true := by
  refine List.all_eq_true.mpr fun c hc => ?_
  rcases mem_manyScope hc with rfl | hdigit
  · decide
  · exact isPlain_of_isDigit hdigit

theorem length_manyScope (h : i < 100000) :
    201 ≤ (manyScope i).toList.length ∧ (manyScope i).toList.length ≤ 205 := by
  have hpos : 0 < (Nat.toDigits 10 i).length := Nat.length_toDigits_pos
  have hle : (Nat.toDigits 10 i).length ≤ 5 := (Nat.length_toDigits_le_iff (by decide) (by decide)).mpr h
  rw [toList_manyScope, List.length_append, List.length_replicate]
  omega

theorem isIdentifier_manyScope (h : i < 100000) : IsIdentifier (manyScope i) := by
  refine ⟨?_, ?_, ?_⟩
  · rw [isBlank_eq, toList_manyScope]
    rfl
  · have hsize : (manyScope i).utf8ByteSize = charBytes (manyScope i).toList := by
      unfold charBytes
      rw [String.ofList_toList]
    rw [hsize, charBytes_plain (isPlain_manyScope i)]
    exact Nat.le_trans (length_manyScope h).2 (by decide)
  · rw [hasControl_eq]
    refine List.any_eq_false.mpr fun c hc => ?_
    have hcases : ∀ n, n < 58 → 48 ≤ n → isControl (Char.ofNat n) = false := by decide
    rcases mem_manyScope hc with rfl | hdigit
    · decide
    · rw [Char.isDigit, Bool.and_eq_true, decide_eq_true_eq, decide_eq_true_eq] at hdigit
      rw [← Char.ofNat_toNat c, hcases c.toNat (Nat.lt_succ_of_le hdigit.2) hdigit.1]
      exact Bool.false_ne_true

theorem manyScope_injective {k : Nat} (h : manyScope i = manyScope k) : i = k := by
  have hlist := congrArg String.toList h
  rw [toList_manyScope, toList_manyScope] at hlist
  have hdigits := List.append_cancel_left hlist
  rw [← Nat.ofDigitChars_toDigits (b := 10) (n := i) (by decide) (by decide), hdigits,
    Nat.ofDigitChars_toDigits (by decide) (by decide)]

section Crowded

variable {n : Nat}

theorem contains_crowded {k : String} :
    (crowded n).scopes.contains k = true ↔ k ∈ (List.range n).map manyScope ∨
      (scopes [sendMessageScope]).contains k = true :=
  BTreeSet.contains_extend _

theorem isAllowed_crowded (hn : n ≤ 100000) :
    (A2aMapper.sendEnvelope oneWord crowdedRequest (some (crowded n))).authorization.isAllowed = true := by
  have hrequest : crowdedRequest.validate = .ok () := by decide +kernel
  have hscopes : firstRefusal (Mcp.validateIdentifier "scope") (crowded n).scopes.elements = .ok () := by
    refine firstRefusal_eq_ok.mpr fun scope hmem => Mcp.validateIdentifier_eq_ok.mpr ?_
    rcases contains_crowded.mp (BTreeSet.mem_elements.mp hmem) with hmany | hsend
    · obtain ⟨i, hi, rfl⟩ := List.mem_map.mp hmany
      exact isIdentifier_manyScope (Nat.lt_of_lt_of_le (List.mem_range.mp hi) hn)
    · have hone : scope = sendMessageScope := by
        rcases (BTreeSet.contains_extend [sendMessageScope]).mp hsend with hitem | hempty
        · exact List.mem_singleton.mp hitem
        · simp at hempty
      rw [hone]
      decide +kernel
  have hvalid : (crowded n).validate = .ok () := by
    have hsubject : Mcp.validateIdentifier "principal subject" "alice" = .ok () := by decide +kernel
    unfold ProtocolPrincipal.validate
    rw [show (crowded n).subject = "alice" from rfl, hsubject, ok_bind, hscopes]
    rfl
  have hallows : (crowded n).allows (scopes [sendMessageScope]) = true :=
    ProtocolPrincipal.allows_iff.mpr (.inr (BTreeSet.isSubset_iff.mpr fun k hk => contains_crowded.mpr (.inr hk)))
  unfold A2aMapper.sendEnvelope GovernanceEnvelope.evaluate GovernanceEnvelope.authorize
  dsimp only
  rw [hrequest]
  dsimp only
  rw [hvalid]
  dsimp only
  rw [if_pos hallows]
  rfl

/-- A sum of terms of some size. -/
theorem length_mul_le_sum {α : Type} (size : α → Nat) (bound : Nat) (xs : List α) (h : ∀ x ∈ xs, bound ≤ size x) :
    xs.length * bound ≤ (xs.map size).sum := by
  induction xs with
  | nil => simp
  | cons x rest ih =>
    rw [List.forall_mem_cons] at h
    have hrest := ih h.2
    rw [List.length_cons, Nat.succ_mul, List.map_cons, List.sum_cons]
    omega

/-- Every scope takes more than two hundred bytes. -/
theorem crowded_scopes_size (hn : n ≤ 100000) : n * 203 < serializedBytes (setJson (crowded n).scopes) := by
  have hnodup : ((List.range n).map manyScope).Nodup :=
    List.Nodup.map (fun _ _ h => manyScope_injective h) List.nodup_range
  have hsub : List.Subperm ((List.range n).map manyScope) (crowded n).scopes.elements :=
    List.subperm_of_subset hnodup fun k hk => BTreeSet.mem_elements.mpr (contains_crowded.mpr (.inl hk))
  obtain ⟨chosen, hperm, hsublist⟩ := hsub
  have hmany : n * 203 ≤ (((List.range n).map manyScope).map fun scope =>
      serializedBytes (.string scope) + 1).sum := by
    have hle := length_mul_le_sum (fun scope => serializedBytes (.string scope) + 1) 203
      ((List.range n).map manyScope) fun scope hmem => by
        obtain ⟨i, hi, rfl⟩ := List.mem_map.mp hmem
        have hlength := (length_manyScope (Nat.lt_of_lt_of_le (List.mem_range.mp hi) hn)).1
        rw [serializedBytes_plain (isPlain_manyScope i)]
        omega
    rwa [List.length_map, List.length_range] at hle
  have hall : (chosen.map fun scope => serializedBytes (.string scope) + 1).sum ≤
      ((crowded n).scopes.elements.map fun scope => serializedBytes (.string scope) + 1).sum :=
    (hsublist.map _).sum_le_sum fun _ _ => Nat.zero_le _
  rw [(hperm.map fun scope => serializedBytes (.string scope) + 1).sum_eq] at hall
  have hsame : ((crowded n).scopes.elements.map ((fun item => serializedBytes item + 1) ∘ Value.string)) =
      (crowded n).scopes.elements.map fun scope => serializedBytes (.string scope) + 1 := rfl
  unfold setJson
  rw [serializedBytes_array, List.map_map, hsame]
  omega

/-- A dispatch takes at least what the scopes of its principal do. -/
theorem scopes_le_dispatch (record : A2aDispatchOutboxRecord) (principal : ProtocolPrincipal)
    (h : record.envelope.principal = some principal) :
    serializedBytes (setJson principal.scopes) ≤ serializedBytes record.json := by
  have hscopes : serializedBytes (setJson principal.scopes) ≤ serializedBytes (ProtocolPrincipal.json principal) :=
    serializedBytes_le_ofFields "scopes" (by simp [optionalField]) fun other hmem => by
      simpa [optionalField] using hmem
  have hprincipal : serializedBytes (ProtocolPrincipal.json principal) ≤
      serializedBytes (GovernanceEnvelope.json record.envelope) :=
    serializedBytes_le_ofFields "principal" (by simp [optionalField, h]) fun other hmem => by
      simpa [optionalField, h] using hmem
  have henvelope : serializedBytes (GovernanceEnvelope.json record.envelope) ≤ serializedBytes record.json :=
    serializedBytes_le_ofFields "envelope" (by simp [optionalField]) fun other hmem => by
      simpa [optionalField] using hmem
  exact Nat.le_trans hscopes (Nat.le_trans hprincipal henvelope)

end Crowded

theorem preflight_oneWord : A2aMapper.new.preflightSendMessage oneWord (crowded 100000) = .ok () := by
  unfold A2aMapper.preflightSendMessage A2aMapper.preflightReceipt A2aMessage.validate receiptEntryStorageBytes
    serializedEntryStorageBytes
  simp only [serializedBytes_eq_quick]
  decide +kernel

/-- The `SendMessage` of a principal with a hundred thousand scopes. -/
def crowdedSend : A2aOperation :=
  .prepareSendMessageCandidateWithResponsePolicy (fun _ => none) oneWord crowdedRequest (some (crowded 100000))
    .blocking 0

/-- Its dispatch does not fit. The action is denied, and the receipt and the task stay. -/
theorem refuses_crowdedSend [Digest] :
    A2aMapper.new.refuses crowdedSend = true ∧ A2aMapper.new.apply crowdedSend ≠ .new := by
  have hroom : ¬ A2aMapper.new.HasRoom crowdedSend := by
    intro hroom
    have hplan : (A2aMapper.new.plan (fun _ => none) oneWord (crowded 100000) 0).isSome = true := by decide +kernel
    obtain ⟨plan, hplan⟩ := Option.isSome_iff_exists.mp hplan
    have hfits := (hroom (isAllowed_crowded (Nat.le_refl _)) preflight_oneWord (by simp [A2aMapper.new]) plan hplan)
    have hbytes := hfits.dispatch.owner_bytes
    have hsize := scopes_le_dispatch (plan.dispatch oneWord (crowded 100000) .blocking
      (A2aMapper.sendEnvelope oneWord crowdedRequest (some (crowded 100000)))) (crowded 100000) rfl
    have hcrowded := crowded_scopes_size (Nat.le_refl 100000)
    have hmax : dispatches.maxBytesPerOwner < 100000 * 203 := by decide
    unfold Outbox.entryBytes at hbytes
    have hjson : dispatches.json = A2aDispatchOutboxRecord.json := rfl
    rw [hjson] at hbytes
    omega
  have hchanged := mt (A2aMapper.refused_unchanged_iff wellKept_new crowdedSend).mp hroom
  rw [Classical.not_imp] at hchanged
  exact hchanged

/-- A refused operation that changes the mapper. -/
theorem denied_send_leaves_receipt :
    @A2aMapper.refuses sha256 .new crowdedSend = true ∧ @A2aMapper.apply sha256 .new crowdedSend ≠ .new :=
  @refuses_crowdedSend sha256

/-! ### Two messages -/

/-- Someone who may send messages and list tasks. -/
def writer : ProtocolPrincipal := ⟨"alice", none, scopes [sendMessageScope, taskReadScope]⟩

/-- A message of one word. -/
def hello (messageId : String) : A2aMessage := ⟨messageId, some "chat", none, .user, [.text "hello"], ∅⟩

/-- The word is sent. -/
def sendHello (messageId : String) : A2aOperation :=
  .prepareSendMessage (fun _ => none) (hello messageId) crowdedRequest (some writer) 0

/-- The dispatch of the first word. -/
def helloDispatch : String := scopedDispatchKey (.fromPrincipal writer) "m-1"

/-- The first word is sent, and an attempt at it runs. -/
def attempted : List A2aOperation := [sendHello "m-1", .markDispatchRunning helloDispatch]

/-- The attempt ends with no artifacts. -/
def answered : A2aOperation := .completeDispatchWithArtifacts helloDispatch 1 [] 5

/-- Two words start two tasks, and the first of them can be answered. -/
theorem afterRun_hellos :
    ((@A2aMapper.afterRun sha256 [sendHello "m-1", sendHello "m-2"]).tasks.values.filter fun task =>
        task.owner.admits writer).length = 2 ∧
      (@A2aMapper.afterRun sha256 (attempted ++ [answered])).revision ≠ (@A2aMapper.afterRun sha256 attempted).revision := by
  unfold A2aMapper.afterRun
  -- the sizes and the hashes are replaced by quick ones before the runs are evaluated
  apply Eq.substr (p := fun apply : Digest → A2aMapper → A2aOperation → A2aMapper =>
    (([sendHello "m-1", sendHello "m-2"].foldl (apply sha256) .new).tasks.values.filter fun task =>
        task.owner.admits writer).length = 2 ∧
      ((attempted ++ [answered]).foldl (apply sha256) .new).revision ≠ (attempted.foldl (apply sha256) .new).revision)
  · funext digest m operation
    unfold A2aMapper.apply A2aMapper.prepareSendMessage A2aMapper.prepareSendMessageCandidateWithResponsePolicy
      A2aMapper.preflightSendMessage A2aMapper.preflightReceipt A2aMessage.validate receiptEntryStorageBytes
      A2aMapper.recordMessage A2aMapper.insertNewDispatch A2aMapper.markDispatchRunning
      A2aMapper.completeDispatchWithArtifacts A2aMapper.completeDispatchOutput A2aMapper.settleDispatchAtRevision
      A2aMapper.insertNewPendingEvent A2aMapper.replaceDispatchRecord Outbox.replacedBytes Outbox.preflightNew
      Outbox.bytesForOwner Outbox.entryStorageBytes serializedEntryStorageBytes
    simp only [serializedBytes_eq_quick]
    rfl
  · rw [sha256_eq_quick]
    constructor <;> decide +kernel

end AikitRuntime.A2a
