import AikitRuntime.A2a.Mapper

/-!
# What hosts and workers do to the mapper

Workers claim a dispatch or a cancellation (`mark…Running`), give up on it (`mark…ReconcilePending`) or
settle it, and do the same with events. A host moves a task: `transitionTask` without a fence,
`transitionDispatchTask` for one attempt of a dispatch, `acknowledgeCancellation` for one attempt of a
cancellation, and `completeDispatchOutput` with what an attempt produced.

Every operation here works on a clone, or checks before it changes anything: it either returns the changed
mapper or refuses and leaves it as it was.
-/

namespace AikitRuntime.A2a

open Library Durability Mcp

/-- `A2A_MAX_DISPATCH_ATTEMPTS`. -/
def maxDispatchAttempts : Nat := 8

/-- `A2A_MAX_CANCELLATION_ATTEMPTS`. -/
def maxCancellationAttempts : Nat := 8

/-- `A2A_MAX_EVENT_ATTEMPTS`. -/
def maxEventAttempts : Nat := 16

/-- `A2A_EVENT_RETRY_BASE_MS`. -/
def eventRetryBaseMs : Nat := 250

/-- `A2A_EVENT_RETRY_MAX_MS`. -/
def eventRetryMaxMs : Nat := 30000

/-- `A2aDispatchCompletionOutput`. -/
inductive A2aDispatchCompletionOutput where
  | task (artifacts : List A2aArtifact)
  | message (message : A2aMessage)
  deriving DecidableEq

/-- The response of a dispatch is the one that an output makes (`exact_existing_output`). -/
def exactExistingOutput : A2aDispatchResponse → A2aDispatchCompletionOutput → Bool
  | .task true current, .task artifacts => current = artifacts
  | .message current, .message content => current = content
  | _, _ => false

namespace A2aMapper

variable (m : A2aMapper)

/-! ### Dispatches -/

/-- `mark_dispatch_running`. -/
def markDispatchRunning (dispatchId : String) : ProtocolResult A2aMapper := do
  let current ← okOr m.dispatchOutbox[dispatchId]? (.notFound "A2A dispatch is not registered")
  refuseIf (¬ (current.state = .queued ∨ current.state = .reconcilePending))
    (.invalidTransition "A2A dispatch can only run from queued or reconcile-pending state")
  let task ← okOr m.tasks[current.taskId]? (.conflict "A2A dispatch task is not registered")
  refuseIf (task.state.isTerminal || task.state.isWaiting)
    (.invalidTransition "A2A dispatch task is not runnable")
  refuseIf (maxDispatchAttempts < current.attempts + 1)
    (.conflict "A2A dispatch attempt limit is exhausted")
  let revision ← m.nextRevision
  let replaced ← m.replaceDispatchRecord dispatchId
    { current with
      state := .running, attempts := current.attempts + 1, lastError := none, updatedRevision := revision }
  pure { replaced with revision }

/-- `mark_dispatch_reconcile_pending`. -/
def markDispatchReconcilePending (dispatchId : String) : ProtocolResult A2aMapper := do
  let current ← okOr m.dispatchOutbox[dispatchId]? (.notFound "A2A dispatch is not registered")
  refuseIf (¬ (current.state = .queued ∨ current.state = .running))
    (.invalidTransition "A2A dispatch cannot enter reconcile-pending from its current state")
  let revision ← m.nextRevision
  let replaced ← m.replaceDispatchRecord dispatchId
    { current with
      state := .reconcilePending, lastError := some "dispatch requires reconciliation"
      updatedRevision := revision }
  pure { replaced with revision }

/-- `mark_dispatch_settled`. -/
def markDispatchSettled (dispatchId : String) : ProtocolResult A2aMapper := do
  let current ← okOr m.dispatchOutbox[dispatchId]? (.notFound "A2A dispatch is not registered")
  if current.state = .settled then pure m else do
    let revision ← m.nextRevision
    let replaced ← m.replaceDispatchRecord dispatchId
      { current with state := .settled, lastError := none, updatedRevision := revision }
    pure { replaced with revision }

/-! ### Cancellations -/

/-- `mark_cancellation_running`. -/
def markCancellationRunning (cancellationId : String) : ProtocolResult A2aMapper := do
  let current ← okOr m.cancellationOutbox[cancellationId]?
    (.notFound "A2A cancellation is not registered")
  refuseIf (¬ (current.state = .queued ∨ current.state = .reconcilePending))
    (.invalidTransition "A2A cancellation can only run from queued or reconcile-pending state")
  let task ← okOr m.tasks[current.taskId]? (.conflict "A2A cancellation task is not registered")
  refuseIf task.state.isTerminal (.invalidTransition "A2A cancellation task is already terminal")
  refuseIf (maxCancellationAttempts < current.attempts + 1)
    (.conflict "A2A cancellation attempt limit is exhausted")
  let revision ← m.nextRevision
  let replaced ← m.replaceCancellationRecord cancellationId
    { current with
      state := .running, attempts := current.attempts + 1, lastError := none, updatedRevision := revision }
  pure { replaced with revision }

/-- `mark_cancellation_reconcile_pending`. -/
def markCancellationReconcilePending (cancellationId : String) : ProtocolResult A2aMapper := do
  let current ← okOr m.cancellationOutbox[cancellationId]?
    (.notFound "A2A cancellation is not registered")
  refuseIf (¬ (current.state = .queued ∨ current.state = .running))
    (.invalidTransition "A2A cancellation cannot enter reconcile-pending from its current state")
  let revision ← m.nextRevision
  let replaced ← m.replaceCancellationRecord cancellationId
    { current with
      state := .reconcilePending, lastError := some "cancellation requires reconciliation"
      updatedRevision := revision }
  pure { replaced with revision }

/-- `mark_cancellation_settled`. -/
def markCancellationSettled (cancellationId : String) : ProtocolResult A2aMapper := do
  let current ← okOr m.cancellationOutbox[cancellationId]?
    (.notFound "A2A cancellation is not registered")
  if current.state = .settled then pure m else do
    let revision ← m.nextRevision
    let replaced ← m.replaceCancellationRecord cancellationId
      { current with state := .settled, lastError := none, updatedRevision := revision }
    pure { replaced with revision }

/-! ### Events -/

/-- The delay of a retry: doubled with each failure, up to a maximum. -/
def retryDelayMs (transientFailures : Nat) : Nat :=
  min (eventRetryBaseMs * 2 ^ min (transientFailures - 1) 31) eventRetryMaxMs

/-- `mark_event_reconcile_pending`. -/
def markEventReconcilePending (eventId : String) (failedAtUnixMs : Nat) : ProtocolResult A2aMapper := do
  let current ← okOr m.pendingEvents[eventId]? (.notFound "A2A event intent is not registered")
  refuseIf (current.state = .settled ∨ current.state = .quarantined)
    (.invalidTransition "terminal A2A event intent cannot be reconciled")
  let transientFailures := saturatingAdd32 current.transientFailures 1
  let revision ← m.nextRevision
  let replaced ← m.replacePendingEvent eventId
    { current with
      state := .reconcilePending
      transientFailures
      nextAttemptAtUnixMs := some (saturatingAdd failedAtUnixMs (retryDelayMs transientFailures))
      lastError := some "event publication requires reconciliation"
      quarantineReason := none
      updatedRevision := revision }
  pure { replaced with revision }

/-- `mark_event_quarantined`. -/
def markEventQuarantined (eventId : String) (reason : A2aEventQuarantineReason) :
    ProtocolResult A2aMapper := do
  let current ← okOr m.pendingEvents[eventId]? (.notFound "A2A event intent is not registered")
  refuseIf (current.state = .settled)
    (.invalidTransition "settled A2A event intent cannot be quarantined")
  if current.state = .quarantined then do
    refuseIf (current.quarantineReason ≠ some reason)
      (.invalidTransition "quarantined A2A event reason cannot be replaced")
    pure m
  else do
    refuseIf (reason = .attemptsExhausted ∧ current.attempts ≠ maxEventAttempts)
      (.invalidTransition "A2A event attempts are not exhausted")
    let revision ← m.nextRevision
    let replaced ← m.replacePendingEvent eventId
      { current with
        state := .quarantined, transientFailures := 0, nextAttemptAtUnixMs := none
        lastError := some reason.diagnostic, quarantineReason := some reason, updatedRevision := revision }
    pure { replaced with revision }

/-- `mark_event_settled`. -/
def markEventSettled (eventId : String) : ProtocolResult A2aMapper := do
  let current ← okOr m.pendingEvents[eventId]? (.notFound "A2A event intent is not registered")
  if current.state = .settled then pure m else do
    refuseIf (current.state = .quarantined)
      (.invalidTransition "quarantined A2A event intent cannot be falsely settled")
    let revision ← m.nextRevision
    let replaced ← m.replacePendingEvent eventId
      { current with
        state := .settled, transientFailures := 0, nextAttemptAtUnixMs := none, lastError := none
        quarantineReason := none, updatedRevision := revision }
    pure { replaced with revision }

/-- The loop of `clamp_restored_event_retry_deadlines`. -/
def clampEvents (latestAllowed revision : Nat) (m : A2aMapper) : List String → ProtocolResult A2aMapper
  | [] => .ok m
  | eventId :: rest => do
    let event ← okOr m.pendingEvents[eventId]? (.conflict "A2A retry event disappeared")
    let replaced ← m.replacePendingEvent eventId
      { event with nextAttemptAtUnixMs := some latestAllowed, updatedRevision := revision }
    clampEvents latestAllowed revision replaced rest

/-- `clamp_restored_event_retry_deadlines`. -/
def clampRestoredEventRetryDeadlines (nowUnixMs : Nat) : ProtocolResult A2aMapper :=
  let latestAllowed := saturatingAdd nowUnixMs eventRetryMaxMs
  let eventIds := (m.pendingEvents.toList.filter fun entry =>
    entry.2.state = .reconcilePending && entry.2.nextAttemptAtUnixMs.any (latestAllowed < ·)).map Prod.fst
  if eventIds = [] then .ok m else do
    let revision ← m.nextRevision
    let clamped ← clampEvents latestAllowed revision m eventIds
    pure { clamped with revision }

/-! ### Tasks -/

/-- The control of a task that is not settled. -/
def pendingCancellation (taskId : String) : Option A2aCancellationOutboxRecord :=
  m.cancellationOutbox.values.find? fun record => record.taskId = taskId && record.state ≠ .settled

/-- The dispatches of a task that are not settled. -/
def unsettledDispatches (taskId : String) : List A2aDispatchOutboxRecord :=
  m.dispatchOutbox.values.filter fun record => record.taskId = taskId && record.state ≠ .settled

/-- Why a task under a cancellation does not move. -/
def nonSettledControl : String :=
  "A2A task has a non-settled cancellation control; only its exact stopped acknowledgement may " ++
    "terminalize the task"

/-- What `transition_task_candidate` checks of the cancellation fence. -/
def checkCancellationFence (pending : Option A2aCancellationOutboxRecord) (next : A2aTaskState)
    (cancellationAck : Option (String × Nat)) : ProtocolResult Unit :=
  match pending, cancellationAck with
  | some record, some (cancellationId, expectedAttempt) =>
    refuseIf (¬ (next = .cancelled ∧ record.cancellationId = cancellationId ∧
        (record.state = .running ∨ record.state = .reconcilePending) ∧
        record.attempts = expectedAttempt))
      (.invalidTransition nonSettledControl)
  | some _, none =>
    .error (.invalidTransition nonSettledControl)
  | none, some _ => .error (.invalidTransition "A2A cancellation acknowledgement is stale")
  | none, none => .ok ()

/-- What `transition_task_candidate` checks of the dispatch fence. -/
def checkDispatchFence (unsettled : Option A2aDispatchOutboxRecord)
    (dispatchAck : Option (String × Nat)) : ProtocolResult Unit :=
  match unsettled, dispatchAck with
  | some dispatch, some (dispatchId, expectedAttempt) =>
    refuseIf (¬ (dispatch.dispatchId = dispatchId ∧ dispatch.state = .running ∧
        dispatch.attempts = expectedAttempt))
      (.invalidTransition "A2A dispatch transition generation is stale")
  | some _, none =>
    .error (.invalidTransition
      "A2A task transition cannot mutate a task with an open dispatch without its exact fence")
  | none, some _ => .error (.invalidTransition "A2A dispatch transition is stale")
  | none, none => .ok ()

/-- A task that stops takes its open dispatch along. -/
def settleStoppedDispatch (unsettled : Option A2aDispatchOutboxRecord) (next : A2aTaskState)
    (revision : Nat) : ProtocolResult A2aMapper :=
  match unsettled with
  | none => .ok m
  | some dispatch =>
    if next.isTerminal || next.isWaiting then m.settleDispatchAtRevision dispatch.dispatchId revision
    else .ok m

/-- A task that is over takes its cancellation control along. -/
def settleStoppedCancellation (taskId : String) (next : A2aTaskState) (revision : Nat) :
    ProtocolResult A2aMapper :=
  if next.isTerminal then m.settleTaskCancellationAtRevision taskId revision else .ok m

/-- The refusal of a transition that `valid_transition` does not allow. -/
def invalidTaskTransition (current next : A2aTaskState) : ProtocolError :=
  .invalidTransition s!"invalid A2A task transition: {current.debug} -> {next.debug}"

/-- The response that an output makes, if it is valid for the dispatch. -/
def responseOf (dispatch : A2aDispatchOutboxRecord) : A2aDispatchCompletionOutput →
    ProtocolResult A2aDispatchResponse
  | .task artifacts => do
    validateTaskArtifacts artifacts .completed
    pure (.task true artifacts)
  | .message message => do
    message.validate
    refuseIf (message.role ≠ .agent ∨ message.contextId ≠ some dispatch.contextId ∨ message.taskId.isSome)
      (.invalid "A2A direct message response must be an agent message bound only to the dispatch context")
    pure (.message message)

/-- Insert events one after another. -/
def insertEvents (m : A2aMapper) : List A2aPendingEventIntent → ProtocolResult A2aMapper
  | [] => .ok m
  | event :: rest => do
    let m ← m.insertNewPendingEvent event
    insertEvents m rest

section Transitions

variable [Digest]

/-- `transition_task_candidate`. -/
def transitionTaskCandidate (taskId : String) (next : A2aTaskState) (statusMessage : Option String)
    (dispatchAck cancellationAck : Option (String × Nat)) (nowUnixMs : Nat) :
    ProtocolResult A2aMapper := do
  let existing ← okOr m.tasks[taskId]? (.notFound "A2A task is not registered")
  checkCancellationFence (m.pendingCancellation taskId) next cancellationAck
  refuseIf (validTransition existing.state next = false) (invalidTaskTransition existing.state next)
  let unsettled := m.unsettledDispatches taskId
  refuseIf (1 < unsettled.length) (.conflict "A2A task has more than one unsettled message dispatch")
  skipIf cancellationAck.isSome (checkDispatchFence unsettled.head? dispatchAck)
  let revision ← m.nextRevision
  let projected := { existing with
    state := next, statusMessage, updatedRevision := revision, statusTimestampUnixMs := some nowUnixMs }
  let event := makePendingEvent projected revision .statusChanged none .pending revision
  let _ ← events.preflightNew m.pendingEvents m.pendingEventBytes event.eventId event
  let m ← m.settleStoppedDispatch unsettled.head? next revision
  let m ← m.settleStoppedCancellation taskId next revision
  let m ← m.insertNewPendingEvent event
  pure { m with revision, tasks := m.tasks.insert taskId projected }

/-- `transition_task`. -/
def transitionTask (taskId : String) (next : A2aTaskState) (statusMessage : Option String)
    (nowUnixMs : Nat) : ProtocolResult A2aMapper :=
  m.transitionTaskCandidate taskId next statusMessage none none nowUnixMs

/-- `require_input`. -/
def requireInput (taskId statusMessage : String) (nowUnixMs : Nat) : ProtocolResult A2aMapper :=
  m.transitionTask taskId .inputRequired (some statusMessage) nowUnixMs

/-- `transition_dispatch_task`. -/
def transitionDispatchTask (dispatchId : String) (expectedAttempt : Nat) (next : A2aTaskState)
    (statusMessage : Option String) (nowUnixMs : Nat) : ProtocolResult A2aMapper := do
  let dispatch ← okOr m.dispatchOutbox[dispatchId]? (.notFound "A2A dispatch is not registered")
  refuseIf (dispatch.attempts ≠ expectedAttempt)
    (.invalidTransition "A2A dispatch transition generation is stale")
  let task ← okOr m.tasks[dispatch.taskId]? (.notFound "A2A task is not registered")
  if dispatch.state = .settled then do
    refuseIf (¬ (task.state = next ∧ task.statusMessage = statusMessage ∧
        task.updatedRevision = dispatch.updatedRevision))
      (.invalidTransition "A2A dispatch transition is already settled with another task state")
    pure m
  else
    m.transitionTaskCandidate dispatch.taskId next statusMessage (some (dispatchId, expectedAttempt)) none
      nowUnixMs

/-- `acknowledge_cancellation`. -/
def acknowledgeCancellation (cancellationId : String) (expectedAttempt : Nat)
    (statusMessage : Option String) (nowUnixMs : Nat) : ProtocolResult A2aMapper := do
  let record ← okOr m.cancellationOutbox[cancellationId]?
    (.notFound "A2A cancellation control is not registered")
  m.transitionTaskCandidate record.taskId .cancelled statusMessage none
    (some (cancellationId, expectedAttempt)) nowUnixMs

/-! ### Completions -/

/-- The artifact events of a response. -/
def artifactEvents (projected : A2aTaskRecord) (revision : Nat) : A2aDispatchResponse →
    List A2aPendingEventIntent
  | .task _ artifacts =>
    artifacts.map fun artifact => makeArtifactPendingEvent projected revision artifact.artifactId revision
  | .message _ => []

/-- The last event of a completion. -/
def completionEvent (projected : A2aTaskRecord) (revision : Nat) : A2aDispatchResponse →
    A2aPendingEventIntent
  | .task _ _ => makePendingEventFull projected revision .statusChanged none none none .pending revision
  | .message message =>
    makePendingEventFull projected revision .directMessageResponse none (some message) none .pending
      revision

/-- `complete_dispatch_output`, on a clone that is installed on success. -/
def completeDispatchOutput (dispatchId : String) (expectedAttempt : Nat)
    (output : A2aDispatchCompletionOutput) (nowUnixMs : Nat) :
    ProtocolResult (A2aTaskRecord × A2aMapper) := do
  let dispatch ← okOr m.dispatchOutbox[dispatchId]? (.notFound "A2A dispatch is not registered")
  refuseIf (dispatch.attempts ≠ expectedAttempt)
    (.invalidTransition "A2A dispatch completion generation is stale")
  let existing ← okOr m.tasks[dispatch.taskId]? (.notFound "A2A task is not registered")
  if dispatch.state = .settled then do
    refuseIf (¬ (exactExistingOutput dispatch.response output = true ∧ existing.state = .completed ∧
        existing.updatedRevision = dispatch.updatedRevision))
      (.invalidTransition "A2A dispatch completion is already settled with another response")
    pure (existing, m)
  else do
    refuseIf (dispatch.state ≠ .running)
      (.invalidTransition "A2A dispatch completion requires the exact running generation")
    refuseIf (m.cancellationOutbox.values.any fun record =>
        record.taskId = dispatch.taskId && record.state ≠ .settled)
      (.invalidTransition "A2A dispatch completion cannot cross a durable cancellation fence")
    refuseIf (m.dispatchOutbox.values.any fun record =>
        record.taskId = dispatch.taskId && record.dispatchId ≠ dispatch.dispatchId &&
          record.state ≠ .settled)
      (.invalidTransition "A2A dispatch completion cannot settle another open dispatch generation")
    refuseIf (validTransition existing.state .completed = false)
      (invalidTaskTransition existing.state .completed)
    let revision ← m.nextRevision
    let projected := { existing with
      state := .completed, statusMessage := none, updatedRevision := revision
      statusTimestampUnixMs := some nowUnixMs }
    let response ← responseOf dispatch output
    let event := completionEvent projected revision response
    let _ ← events.preflightNew m.pendingEvents m.pendingEventBytes event.eventId event
    let m ← m.replaceDispatchRecord dispatchId { dispatch with response, updatedRevision := revision }
    let m ← m.settleDispatchAtRevision dispatchId revision
    let m ← m.settleTaskCancellationAtRevision projected.mapping.taskId revision
    let m ← insertEvents m (artifactEvents projected revision response)
    let m ← m.insertNewPendingEvent event
    pure (projected, { m with revision, tasks := m.tasks.insert projected.mapping.taskId projected })

/-- `complete_dispatch_with_artifacts`. -/
def completeDispatchWithArtifacts (dispatchId : String) (expectedAttempt : Nat)
    (artifacts : List A2aArtifact) (nowUnixMs : Nat) : ProtocolResult (A2aTaskRecord × A2aMapper) :=
  m.completeDispatchOutput dispatchId expectedAttempt (.task artifacts) nowUnixMs

/-- `complete_dispatch_with_message`. -/
def completeDispatchWithMessage (dispatchId : String) (expectedAttempt : Nat) (message : A2aMessage)
    (nowUnixMs : Nat) : ProtocolResult (A2aTaskRecord × A2aMapper) :=
  m.completeDispatchOutput dispatchId expectedAttempt (.message message) nowUnixMs

end Transitions

end A2aMapper

end AikitRuntime.A2a
