import AikitRuntime.A2a.Requests
import AikitRuntime.Library.Entries

/-!
# Runs of the mapper

`A2aOperation` is a call that changes a mapper, with its arguments, and `apply` is the mapper after it. A
run starts with `A2aMapper.new` and applies one operation after another, in any order and with any
arguments.
-/

namespace AikitRuntime.A2a

open Library Durability Mcp

/-- A call that changes a mapper. -/
inductive A2aOperation where
  | prepareSendMessage (draws : Draws) (message : A2aMessage) (correlation : CorrelationIdentity)
      (principal : Option ProtocolPrincipal) (nowUnixMs : Nat)
  | prepareSendMessageCandidateWithResponsePolicy (draws : Draws) (message : A2aMessage)
      (correlation : CorrelationIdentity) (principal : Option ProtocolPrincipal)
      (policy : A2aSendResponsePolicy) (nowUnixMs : Nat)
  | prepareCancelTask (taskId : String) (correlation : CorrelationIdentity)
      (principal : Option ProtocolPrincipal)
  | prepareCancelTaskCandidate (taskId : String) (correlation : CorrelationIdentity)
      (principal : Option ProtocolPrincipal)
  | markDispatchRunning (dispatchId : String)
  | markDispatchReconcilePending (dispatchId : String)
  | markDispatchSettled (dispatchId : String)
  | markCancellationRunning (cancellationId : String)
  | markCancellationReconcilePending (cancellationId : String)
  | markCancellationSettled (cancellationId : String)
  | markEventReconcilePending (eventId : String) (failedAtUnixMs : Nat)
  | markEventQuarantined (eventId : String) (reason : A2aEventQuarantineReason)
  | markEventSettled (eventId : String)
  | clampRestoredEventRetryDeadlines (nowUnixMs : Nat)
  | requireInput (taskId statusMessage : String) (nowUnixMs : Nat)
  | transitionTask (taskId : String) (next : A2aTaskState) (statusMessage : Option String)
      (nowUnixMs : Nat)
  | transitionDispatchTask (dispatchId : String) (expectedAttempt : Nat) (next : A2aTaskState)
      (statusMessage : Option String) (nowUnixMs : Nat)
  | acknowledgeCancellation (cancellationId : String) (expectedAttempt : Nat)
      (statusMessage : Option String) (nowUnixMs : Nat)
  | completeDispatchWithArtifacts (dispatchId : String) (expectedAttempt : Nat)
      (artifacts : List A2aArtifact) (nowUnixMs : Nat)
  | completeDispatchWithMessage (dispatchId : String) (expectedAttempt : Nat) (message : A2aMessage)
      (nowUnixMs : Nat)

/-- What a call that returns a mapper leaves: a refused one leaves what was there. -/
def installedOr (m : A2aMapper) : ProtocolResult A2aMapper → A2aMapper
  | .ok changed => changed
  | .error _ => m

variable [Digest]

/-- The mapper after an operation. -/
def A2aMapper.apply (m : A2aMapper) : A2aOperation → A2aMapper
  | .prepareSendMessage draws message correlation principal nowUnixMs =>
    (m.prepareSendMessage draws message correlation principal nowUnixMs).2
  | .prepareSendMessageCandidateWithResponsePolicy draws message correlation principal policy nowUnixMs =>
    (m.prepareSendMessageCandidateWithResponsePolicy draws message correlation principal policy
      nowUnixMs).2
  | .prepareCancelTask taskId correlation principal => (m.prepareCancelTask taskId correlation principal).2
  | .prepareCancelTaskCandidate taskId correlation principal =>
    (m.prepareCancelTaskCandidate taskId correlation principal).2
  | .markDispatchRunning dispatchId => installedOr m (m.markDispatchRunning dispatchId)
  | .markDispatchReconcilePending dispatchId => installedOr m (m.markDispatchReconcilePending dispatchId)
  | .markDispatchSettled dispatchId => installedOr m (m.markDispatchSettled dispatchId)
  | .markCancellationRunning cancellationId => installedOr m (m.markCancellationRunning cancellationId)
  | .markCancellationReconcilePending cancellationId =>
    installedOr m (m.markCancellationReconcilePending cancellationId)
  | .markCancellationSettled cancellationId => installedOr m (m.markCancellationSettled cancellationId)
  | .markEventReconcilePending eventId failedAtUnixMs =>
    installedOr m (m.markEventReconcilePending eventId failedAtUnixMs)
  | .markEventQuarantined eventId reason => installedOr m (m.markEventQuarantined eventId reason)
  | .markEventSettled eventId => installedOr m (m.markEventSettled eventId)
  | .clampRestoredEventRetryDeadlines nowUnixMs =>
    installedOr m (m.clampRestoredEventRetryDeadlines nowUnixMs)
  | .requireInput taskId statusMessage nowUnixMs =>
    installedOr m (m.requireInput taskId statusMessage nowUnixMs)
  | .transitionTask taskId next statusMessage nowUnixMs =>
    installedOr m (m.transitionTask taskId next statusMessage nowUnixMs)
  | .transitionDispatchTask dispatchId expectedAttempt next statusMessage nowUnixMs =>
    installedOr m (m.transitionDispatchTask dispatchId expectedAttempt next statusMessage nowUnixMs)
  | .acknowledgeCancellation cancellationId expectedAttempt statusMessage nowUnixMs =>
    installedOr m (m.acknowledgeCancellation cancellationId expectedAttempt statusMessage nowUnixMs)
  | .completeDispatchWithArtifacts dispatchId expectedAttempt artifacts nowUnixMs =>
    installedOr m ((m.completeDispatchWithArtifacts dispatchId expectedAttempt artifacts nowUnixMs).map
      Prod.snd)
  | .completeDispatchWithMessage dispatchId expectedAttempt message nowUnixMs =>
    installedOr m ((m.completeDispatchWithMessage dispatchId expectedAttempt message nowUnixMs).map
      Prod.snd)

/-- The mapper after some operations on a new one. -/
def A2aMapper.afterRun (operations : List A2aOperation) : A2aMapper :=
  operations.foldl A2aMapper.apply .new

/-- A run that goes on. -/
theorem A2aMapper.afterRun_append (operations : List A2aOperation) (operation : A2aOperation) :
    afterRun (operations ++ [operation]) = (afterRun operations).apply operation := by
  rw [afterRun, List.foldl_append, List.foldl_cons, List.foldl_nil, afterRun]

/-- What every operation keeps, every run has. -/
theorem A2aMapper.run_invariant {P : A2aMapper → Prop} (hnew : P .new)
    (hstep : ∀ m operation, P m → P (m.apply operation)) (operations : List A2aOperation) :
    P (.afterRun operations) := by
  unfold A2aMapper.afterRun
  generalize A2aMapper.new = m at hnew
  induction operations generalizing m with
  | nil => exact hnew
  | cons operation rest ih => exact ih (m.apply operation) (hstep m operation hnew)

end AikitRuntime.A2a
