import AikitRuntime.Durability.Attempts

/-!
# Calls, and the runs that they reach

`TypedCall` is one call of a typed operation, and `Call` is one call of any operation that
takes the run by `&mut`. Whatever a call is and however it ends, it leads from a run to a
run by accepting events: `Issues` and `TypedStep` say which ones a typed operation can
emit. `Reachable` and `TypedReachable` are the runs that calls reach, from a new one, from
a replayed log and from a fork.
-/

namespace AikitRuntime.Durability

open Library Relation

section
variable [Digest]

/-- One call of a typed operation. -/
inductive TypedCall where
  | replaceState (mutationId : String) (state : Value)
  | claimWorkerLease (ownerId leaseId : String) (claimedAtUnixMs expiresAtUnixMs : Nat)
  | renewWorkerLease (ownerId leaseId : String) (renewedAtUnixMs expiresAtUnixMs : Nat)
  | releaseWorkerLease (ownerId leaseId : String) (releasedAtUnixMs : Nat)
  | prepareActivity (stableStepId logicalKey : String) (input : Value)
      (sideEffectClass : SideEffectClass) (idempotencyKey : Option String)
  | completeActivity (activityId : String) (attempt : Nat) (output : Value)
  | failActivity (activityId : String) (attempt : Nat) (error : String)
      (retryable effectAmbiguous : Bool)
  | cancelActivity (activityId : String) (attempt : Nat) (reason : String) (effectAmbiguous : Bool)
  | reconcileActivity (reconciliationId activityId : String) (resolution : ActivityReconciliation)
  | requestApproval (logicalKey : String) (activityId : Option String) (prompt : String)
      (payload : Value)
  | requestTypedApproval (request : DurableApprovalRequest)
  | expireApprovals (expirationId : String) (nowUnixMs : Nat)
  | publishArtifact (artifactId mediaType : String) (sizeBytes : Nat) (contentHash : String)
      (createdByActivityId : Option String)
  | checkpoint (checkpointKey : String) (label : Option String)
  | pause (pauseId reason : String)
  | completeRun (completionId : String)
  | failRun (failureId error : String)
  | applyCommand (command : RunCommand)
  | applyCommandAt (command : RunCommand) (nowUnixMs : Nat)

/-- One call of an operation: a typed one, a caller-built event, or one of the two
quarantines that only the runtime itself calls. -/
inductive Call where
  | typed (call : TypedCall)
  | appendEvent (event : RunEvent)
  | quarantineUnstartedReservedActivity (activityId reason : String)
  | quarantineTerminalLegacyRunningActivity (activityId reason : String)

/-- What a call does, its answer left out. -/
def answered {α : Type} (m : RunMethod α) : RunMethod Unit := do
  let _ ← m
  pure ()

/-- What a typed call does. -/
def TypedCall.run : TypedCall → RunMethod Unit
  | .replaceState mutationId state => answered (RunState.replaceState mutationId state)
  | .claimWorkerLease ownerId leaseId claimedAt expiresAt =>
    answered (RunState.claimWorkerLease ownerId leaseId claimedAt expiresAt)
  | .renewWorkerLease ownerId leaseId renewedAt expiresAt =>
    answered (RunState.renewWorkerLease ownerId leaseId renewedAt expiresAt)
  | .releaseWorkerLease ownerId leaseId releasedAt =>
    answered (RunState.releaseWorkerLease ownerId leaseId releasedAt)
  | .prepareActivity stableStepId logicalKey input sideEffectClass idempotencyKey =>
    answered (RunState.prepareActivity stableStepId logicalKey input sideEffectClass idempotencyKey)
  | .completeActivity activityId attempt output =>
    answered (RunState.completeActivity activityId attempt output)
  | .failActivity activityId attempt error retryable effectAmbiguous =>
    answered (RunState.failActivity activityId attempt error retryable effectAmbiguous)
  | .cancelActivity activityId attempt reason effectAmbiguous =>
    answered (RunState.cancelActivity activityId attempt reason effectAmbiguous)
  | .reconcileActivity reconciliationId activityId resolution =>
    answered (RunState.reconcileActivity reconciliationId activityId resolution)
  | .requestApproval logicalKey activityId prompt payload =>
    answered (RunState.requestApproval logicalKey activityId prompt payload)
  | .requestTypedApproval request => answered (RunState.requestTypedApproval request)
  | .expireApprovals expirationId nowUnixMs =>
    answered (RunState.expireApprovals expirationId nowUnixMs)
  | .publishArtifact artifactId mediaType sizeBytes contentHash createdByActivityId =>
    answered
      (RunState.publishArtifact artifactId mediaType sizeBytes contentHash createdByActivityId)
  | .checkpoint checkpointKey label => answered (RunState.checkpoint checkpointKey label)
  | .pause pauseId reason => answered (RunState.pause pauseId reason)
  | .completeRun completionId => answered (RunState.completeRun completionId)
  | .failRun failureId error => answered (RunState.failRun failureId error)
  | .applyCommand command => answered (RunState.applyCommand command)
  | .applyCommandAt command nowUnixMs => answered (RunState.applyCommandAt command nowUnixMs)

/-- What a call does. -/
def Call.run : Call → RunMethod Unit
  | .typed call => call.run
  | .appendEvent event => answered (RunState.appendEvent event)
  | .quarantineUnstartedReservedActivity activityId reason =>
    RunState.quarantineUnstartedReservedActivity activityId reason
  | .quarantineTerminalLegacyRunningActivity activityId reason =>
    RunState.quarantineTerminalLegacyRunningActivity activityId reason

namespace RunState

variable {s t u : RunState}

/-! ### The events that typed operations emit -/

/-- In `s`, a typed operation can emit an event of that kind under that identity. What an
attempt's failure needs beside is a matter of `TypedStep`. -/
inductive Issues (s : RunState) : String → RunEventKind → Prop where
  | stateReplaced (eventId : String) (state : Value) : Issues s eventId (.stateReplaced state)
  | workerLeaseClaimed (eventId ownerId leaseId : String) (claimedAt expiresAt : Nat) :
      Issues s eventId (.workerLeaseClaimed ownerId leaseId claimedAt expiresAt)
  | workerLeaseRenewed (eventId ownerId leaseId : String) (renewedAt expiresAt : Nat) :
      Issues s eventId (.workerLeaseRenewed ownerId leaseId renewedAt expiresAt)
  | workerLeaseReleased (eventId ownerId leaseId : String) (releasedAt : Nat) :
      Issues s eventId (.workerLeaseReleased ownerId leaseId releasedAt)
  | activityScheduled {stableStepId logicalKey : String} (input : Value)
      (sideEffectClass : SideEffectClass) (idempotencyKey : Option String)
      (hstep : ValidIdentifier stableStepId) (hkey : ValidIdentifier logicalKey) :
      Issues s
        (stableIdentifier "event" [(s.newDefinition stableStepId logicalKey input sideEffectClass
          idempotencyKey).activityId, "scheduled"])
        (.activityScheduled
          (s.newDefinition stableStepId logicalKey input sideEffectClass idempotencyKey))
  | activityAttemptStarted {id : String} {record : ActivityRecord}
      (hget : s.projection.activities[id]? = some record)
      (hcounter : record.attempts.length + 1 < 2 ^ 32) :
      Issues s (attemptEventId id (record.attempts.length + 1) "started")
        (.activityAttemptStarted id (record.attempts.length + 1))
  | activityAttemptCompleted (id : String) (attempt : Nat) (output : Value) :
      Issues s (attemptEventId id attempt "completed")
        (.activityAttemptCompleted id attempt output (stableInputHash output))
  | activityAttemptInterrupted {id : String} {record : ActivityRecord} (attempt : Nat)
      (error : String) (hget : s.projection.activities[id]? = some record)
      (hsafe : retryIsSafe record.definition true = true) :
      Issues s (attemptEventId id attempt "interrupted")
        (.activityAttemptFailed id attempt error true true)
  | activityAttemptCancelled (id : String) (attempt : Nat) (reason : String) :
      Issues s (attemptEventId id attempt "cancelled")
        (.activityAttemptCancelled id attempt reason)
  /-- The latest attempt is quarantined. -/
  | quarantinedLatest {id : String} {record : ActivityRecord} {latest : ActivityAttempt}
      (reason : String) (hget : s.projection.activities[id]? = some record)
      (hlatest : record.latestAttempt = some latest) :
      Issues s (attemptEventId id latest.attempt "reconcile_required")
        (.activityReconciliationRequired id latest.attempt reason)
  /-- A reserved activity fails. -/
  | quarantinedReserved {id : String} {record : ActivityRecord} (attempt : Nat) (reason : String)
      (hget : s.projection.activities[id]? = some record)
      (hreserved : isReservedAuditActivity record = true) :
      Issues s (attemptEventId id attempt "reconcile_required")
        (.activityReconciliationRequired id attempt reason)
  /-- An ambiguous failure is reported again. -/
  | quarantinedAgain {id error : String} {record : ActivityRecord} {attempt : Nat}
      {retryable : Bool} (reason : String) (hget : s.projection.activities[id]? = some record)
      (hrisky : retryIsSafe record.definition true = false)
      (hfailed : s.Records (attemptEventId id attempt "failed")
        (.activityAttemptFailed id attempt error retryable true)) :
      Issues s (attemptEventId id attempt "reconcile_required")
        (.activityReconciliationRequired id attempt reason)
  | activityReconciled {id : String} {record : ActivityRecord} {latest : ActivityAttempt}
      (eventId : String) (resolution : ActivityReconciliation)
      (hget : s.projection.activities[id]? = some record)
      (hlatest : record.latestAttempt = some latest) :
      Issues s eventId (.activityReconciled id latest.attempt resolution)
  | approvalRequested {approvalId : String} (logicalKey : String)
      (activityId : Option String) (prompt : String) (payload : Value)
      (hid : ValidIdentifier approvalId) :
      Issues s (stableIdentifier "event" [approvalId, "requested"])
        (.approvalRequested approvalId logicalKey activityId prompt payload)
  | approvalResolved (eventId approvalId : String) (approved : Bool) (response : Option Value) :
      Issues s eventId (.approvalResolved approvalId approved response)
  | artifactPublished (eventId : String) {metadata : ArtifactMetadata}
      (hid : ValidIdentifier metadata.artifactId) (hversion : ValidIdentifier metadata.versionId) :
      Issues s eventId (.artifactPublished metadata)
  | checkpointCommitted (eventId : String) {checkpointId : String} (label : Option String)
      (hid : ValidIdentifier checkpointId) (hstatus : s.projection.status ≠ .reconcileRequired) :
      Issues s eventId (.checkpointCommitted checkpointId label)
  | runPaused (eventId reason : String) : Issues s eventId (.runPaused reason)
  | runResumed (eventId : String) : Issues s eventId .runResumed
  | forkCreated (eventId newRunId checkpointId newBranchId : String)
      (sideEffectsReconciled : Bool) :
      Issues s eventId (.forkCreated newRunId checkpointId newBranchId sideEffectsReconciled)
  | runRewound (eventId checkpointId : String) {newBranchId : String}
      (sideEffectsReconciled : Bool) (hbranch : ValidIdentifier newBranchId) :
      Issues s eventId (.runRewound checkpointId newBranchId sideEffectsReconciled)
  | runCompleted (eventId : String) : Issues s eventId .runCompleted
  | runFailed (eventId error : String) : Issues s eventId (.runFailed error)
  | runCancelled (eventId : String) (reason : Option String) :
      Issues s eventId (.runCancelled reason)

/-- The failure of an attempt, as `fail_activity` reports it. -/
def failedEvent (s : RunState) (id : String) (attempt : Nat) (error : String)
    (retryable effectAmbiguous : Bool) : RunEvent :=
  s.nextEvent (attemptEventId id attempt "failed")
    (.activityAttemptFailed id attempt error retryable effectAmbiguous)

/-- What typed operations do in one step. A failure that leaves an unsafe effect ambiguous is
one step with the quarantine that follows it, unless that was recorded before. -/
inductive TypedStep (s t : RunState) : Prop where
  | issued {eventId : String} {kind : RunEventKind} (hissues : s.Issues eventId kind)
      (h : Accepts s (s.nextEvent eventId kind) t)
  | failed {id error : String} {attempt : Nat} {retryable effectAmbiguous : Bool}
      {record : ActivityRecord} (hget : s.projection.activities[id]? = some record)
      (h : Accepts s (s.failedEvent id attempt error retryable effectAmbiguous) t)
      (hsettled : effectAmbiguous = false ∨ retryIsSafe record.definition true = true ∨
        t.HasEvent (attemptEventId id attempt "reconcile_required"))
  | failedAmbiguously {id error reason : String} {attempt : Nat} {retryable : Bool}
      {record : ActivityRecord} {m : RunState} (hget : s.projection.activities[id]? = some record)
      (hrisky : retryIsSafe record.definition true = false)
      (hfailed : Accepts s (s.failedEvent id attempt error retryable true) m)
      (h : Accepts m (m.nextEvent (attemptEventId id attempt "reconcile_required")
        (.activityReconciliationRequired id attempt reason)) t)

/-- One run extends another by live events. -/
def Extends : RunState → RunState → Prop := ReflTransGen fun s t => ∃ e, Emits s e t

/-- One run extends another by what typed operations do. -/
def TypedExtends : RunState → RunState → Prop := ReflTransGen TypedStep

instance : Std.Refl Extends := inferInstanceAs (Std.Refl (ReflTransGen _))
instance : IsTrans RunState Extends := inferInstanceAs (IsTrans _ (ReflTransGen _))
instance : Std.Refl TypedExtends := inferInstanceAs (Std.Refl (ReflTransGen _))
instance : IsTrans RunState TypedExtends := inferInstanceAs (IsTrans _ (ReflTransGen _))

variable {eventId : String} {kind : RunEventKind}

theorem Emits.of_nextEvent
    (h : Accepts s (s.nextEvent eventId kind) t) : Emits s (s.nextEvent eventId kind) t :=
  ⟨rfl, h⟩

theorem TypedStep.extends (h : TypedStep s t) : Extends s t := by
  cases h with
  | issued _ h => exact .single ⟨_, .of_nextEvent h⟩
  | failed _ h => exact .single ⟨_, .of_nextEvent h⟩
  | failedAmbiguously _ _ hfailed h =>
    exact (ReflTransGen.single ⟨_, .of_nextEvent hfailed⟩).tail ⟨_, .of_nextEvent h⟩

theorem TypedExtends.extends (h : TypedExtends s t) : Extends s t := by
  induction h with
  | refl => exact .refl
  | tail _ hstep ih => exact ReflTransGen.trans ih hstep.extends

/-! ### Emitting an event -/

open Method

variable {outcome : AppendOutcome}

variable {e : RunEvent}

theorem run_appendEvent_eq_ok :
    (appendEvent e).run s = .ok outcome t ↔
      e.schemaVersion = durabilitySchemaVersion ∧ s.tryAppend e = .ok (outcome, t) := by
  unfold appendEvent
  rw [run_bind_eq_ok]
  simp only [run_check_eq_ok, refuseIf_eq_ok, not_not, run_appendValidatedEvent_eq_ok]
  constructor
  · rintro ⟨_, _, ⟨hversion, rfl⟩, h⟩
    exact ⟨hversion, h⟩
  · rintro ⟨hversion, h⟩
    exact ⟨(), s, ⟨hversion, rfl⟩, h⟩

theorem appendEvent_failsClean : FailsClean (appendEvent e) s :=
  .check_bind fun _ _ => appendValidatedEvent_failsClean

theorem emit_failsClean :
    FailsClean (emit eventId kind) s :=
  .read_bind appendEvent_failsClean

variable {attempt : Nat} {id : String}

theorem attemptEventId_valid {what : String} :
    ValidIdentifier (attemptEventId id attempt what) := stableIdentifier_valid _ _ (by decide)

/-- What `emit` did: nothing, for a duplicate, or accept the event. -/
theorem run_emit_eq_ok :
    (emit eventId kind).run s = .ok outcome t ↔
      (∃ existing, ValidIdentifier eventId ∧ s.eventById eventId = some existing ∧
        existing.kind = kind ∧ outcome = .deduplicated existing.sequence ∧ t = s) ∨
      (Accepts s (s.nextEvent eventId kind) t ∧ outcome = .appended s.nextSequence) := by
  show (appendEvent (s.nextEvent eventId kind)).run s = .ok outcome t ↔ _
  rw [run_appendEvent_eq_ok, tryAppend_eq_ok]
  constructor
  · rintro ⟨-, ⟨existing, hvalid, -, hfind, hkind, hout, ht⟩ | h⟩
    · exact .inl ⟨existing, hvalid, hfind, hkind, hout, ht⟩
    · exact .inr h
  · rintro (⟨existing, hvalid, hfind, hkind, hout, ht⟩ | h)
    · exact ⟨rfl, .inl ⟨existing, hvalid, rfl, hfind, hkind, hout, ht⟩⟩
    · exact ⟨rfl, .inr h⟩

/-- What `emit` did, for what its event changes. -/
theorem of_run_emit
    (h : (emit eventId kind).run s = .ok outcome t) :
    (s.Records eventId kind ∧ t = s) ∨ Accepts s (s.nextEvent eventId kind) t := by
  rcases run_emit_eq_ok.mp h with ⟨existing, -, hfind, hkind, -, ht⟩ | ⟨haccepts, -⟩
  · have ⟨hmem, hid⟩ := eventById_eq_some hfind
    exact .inl ⟨⟨existing, hmem, hid, hkind⟩, ht⟩
  · exact .inr haccepts

theorem appendEvent_leads (e : RunEvent) (s : RunState) : Leads Extends (appendEvent e) s := by
  unfold Leads
  cases h : (appendEvent e).run s with
  | ok outcome t =>
    obtain ⟨hversion, hrun⟩ := run_appendEvent_eq_ok.mp h
    rcases tryAppend_eq_ok.mp hrun with ⟨_, _, _, _, _, _, rfl⟩ | ⟨haccepts, _⟩
    · exact .refl
    · exact .single ⟨e, hversion, haccepts⟩
  | error error t =>
    rw [after_error, appendEvent_failsClean error t h]
    exact .refl

theorem emit_leads (eventId : String) (kind : RunEventKind) (s : RunState) :
    Leads Extends (emit eventId kind) s :=
  .read_bind (appendEvent_leads _ s)

/-- An event that a typed operation may emit is emitted in a typed step. -/
theorem Issues.leads (hissues : s.Issues eventId kind) :
    Leads TypedExtends (emit eventId kind) s := by
  unfold Leads
  cases h : (emit eventId kind).run s with
  | ok outcome t =>
    rcases of_run_emit h with ⟨_, rfl⟩ | haccepts
    · exact .refl
    · exact .single (.issued hissues haccepts)
  | error error t =>
    rw [after_error, emit_failsClean error t h]
    exact .refl

/-! ### A typed call leads along typed steps -/

theorem startNextAttempt_leads (id : String) : Leads TypedExtends (startNextAttempt id) s := by
  unfold startNextAttempt
  refine .read_bind <| .check_bind fun record hrecord => .check_bind fun _ hcounter => ?_
  rw [refuseIf_eq_ok, Nat.not_le] at hcounter
  exact .bind (Issues.activityAttemptStarted (activity_eq_ok.mp hrecord) hcounter).leads
    fun _ _ _ => .pure _

variable {reason : String}

theorem quarantine_leads
    (h : s.Issues (attemptEventId id attempt "reconcile_required")
      (.activityReconciliationRequired id attempt reason)) :
    Leads TypedExtends (quarantine id attempt reason) s :=
  .bind h.leads fun _ _ _ => .pure _

theorem decideActivity_leads (id : String) : Leads TypedExtends (decideActivity id) s := by
  unfold decideActivity
  refine .read_bind <| .check_bind fun record hrecord => ?_
  have hget := activity_eq_ok.mp hrecord
  split
  · exact .pure _
  · exact startNextAttempt_leads id
  · next latest _ hlatest =>
    split
    · split
      · next hsafe =>
        exact .bind (Issues.activityAttemptInterrupted latest.attempt _ hget hsafe).leads
          fun _ _ _ => startNextAttempt_leads id
      · exact quarantine_leads (.quarantinedLatest _ hget hlatest)
    · split
      · exact .pure _
      · split
        · exact quarantine_leads (.quarantinedLatest _ hget hlatest)
        · exact startNextAttempt_leads id
    · exact .pure _
    · exact .pure _
    · exact .throw _

theorem prepareActivity_leads (stableStepId logicalKey : String) (input : Value)
    (sideEffectClass : SideEffectClass) (idempotencyKey : Option String) :
    Leads TypedExtends
      (prepareActivity stableStepId logicalKey input sideEffectClass idempotencyKey) s := by
  unfold prepareActivity
  refine .check_bind fun _ hstep => .check_bind fun _ hkey => .read_bind <| .check_bind fun _ _ => ?_
  split
  · exact .check_bind fun _ _ => decideActivity_leads _
  · refine .check_bind fun _ _ => .bind ?_ fun _ _ _ => decideActivity_leads _
    exact (Issues.activityScheduled input sideEffectClass idempotencyKey
      (validateIdentifier_eq_ok.mp hstep) (validateIdentifier_eq_ok.mp hkey)).leads

theorem completeActivity_leads (id : String) (attempt : Nat) (output : Value) :
    Leads TypedExtends (completeActivity id attempt output) s := by
  unfold completeActivity
  refine .read_bind <| .check_bind fun _ _ => .check_bind fun record _ => ?_
  dsimp only
  split
  · split
    · exact .pure _
    · exact .throw _
  · exact (Issues.activityAttemptCompleted id attempt output).leads

variable {error : String} {retryable : Bool}

/-- An ambiguous failure that was accepted can be quarantined at once. -/
theorem Accepts.quarantines
    (h : Accepts s (s.failedEvent id attempt error retryable true) t) (reason : String)
    (hfresh : ¬ t.HasEvent (attemptEventId id attempt "reconcile_required")) :
    ∃ u, Accepts t (t.nextEvent (attemptEventId id attempt "reconcile_required")
      (.activityReconciliationRequired id attempt reason)) u := by
  obtain ⟨v, hv, rfl⟩ := h.applied
  have hlater : s.applyLater durabilitySchemaVersion s.nextSequence
      (.activityAttemptFailed id attempt error retryable true) = .ok v := by
    unfold applyEventInPlace at hv
    split at hv
    · cases hv
    · exact hv
  cases Transition.of_applyLater hlater with
  | @activityAttemptFailed _ _ _ _ _ record found hactive _ hget hfind _ =>
    have hnumber := ActivityRecord.attempt_of_find hfind
    have hfailed : ActivityRecord.findAttempt (record.setAttempt attempt
        (failedAttempt found s.nextSequence error retryable true)) attempt = some _ :=
      ActivityRecord.findAttempt_setAttempt hfind hnumber
    exact ⟨_, .of_transition (by simp) (stableIdentifier_valid _ _ (by decide)) rfl hfresh rfl
      (.activityQuarantined rfl (.inr hactive) BTreeMap.get_insert_self hfailed (.inr rfl))⟩

/-- The quarantine that follows an accepted ambiguous failure. -/
theorem Accepts.quarantine_leads
    {record : ActivityRecord} (hget : s.projection.activities[id]? = some record)
    (hrisky : retryIsSafe record.definition true = false)
    (h : Accepts s (s.failedEvent id attempt error retryable true) t) :
    TypedExtends s (after ((quarantine id attempt reason).run t)) := by
  unfold quarantine
  by_cases hknown : t.HasEvent (attemptEventId id attempt "reconcile_required")
  · -- recorded before: the quarantine changes nothing
    refine ReflTransGen.head (.failed hget h (.inr (.inr hknown))) ?_
    refine Leads.bind (R := TypedExtends) ?_ fun _ _ _ => .pure _
    unfold Leads
    cases hrun : (emit (attemptEventId id attempt "reconcile_required")
        (.activityReconciliationRequired id attempt reason)).run t with
    | ok outcome u =>
      rcases of_run_emit hrun with ⟨_, rfl⟩ | haccepts
      · exact .refl
      · exact absurd hknown haccepts.fresh
    | error error u =>
      rw [after_error, emit_failsClean error u hrun]
      exact .refl
  · obtain ⟨u, hu⟩ := h.quarantines reason hknown
    have hrun := run_emit_eq_ok.mpr (.inr ⟨hu, rfl⟩)
    rw [run_bind_ok hrun]
    exact .single (.failedAmbiguously hget hrisky h hu)

theorem failActivity_leads (id : String) (attempt : Nat) (error : String)
    (retryable effectAmbiguous : Bool) :
    Leads TypedExtends (failActivity id attempt error retryable effectAmbiguous) s := by
  unfold failActivity
  refine .read_bind <| .check_bind fun _ _ => .check_bind fun record hrecord => ?_
  have hget := activity_eq_ok.mp hrecord
  split
  · next hreserved => exact quarantine_leads (.quarantinedReserved attempt _ hget hreserved)
  · unfold Leads
    cases hemit : (emit (attemptEventId id attempt "failed")
        (.activityAttemptFailed id attempt error retryable effectAmbiguous)).run s with
    | error error' t =>
      rw [run_bind_error hemit, after_error, emit_failsClean error' t hemit]
      exact .refl
    | ok outcome t =>
      rw [run_bind_ok hemit]
      rcases of_run_emit hemit with ⟨hrecords, rfl⟩ | haccepts
      · split
        · next hambiguous =>
          obtain ⟨rfl, hrisky⟩ := hambiguous
          exact quarantine_leads (.quarantinedAgain _ hget hrisky hrecords)
        · split
          · exact decideActivity_leads id
          · exact .refl
      · split
        · next hambiguous =>
          obtain ⟨rfl, hrisky⟩ := hambiguous
          exact haccepts.quarantine_leads hget hrisky
        · next hsettled =>
          have hstep : TypedStep s t := by
            refine .failed hget haccepts ?_
            cases effectAmbiguous with
            | false => exact .inl rfl
            | true => exact .inr (.inl (by simpa using hsettled))
          split
          · exact .head hstep (decideActivity_leads id)
          · exact .single hstep

theorem cancelActivity_leads (id : String) (attempt : Nat) (reason : String)
    (effectAmbiguous : Bool) :
    Leads TypedExtends (cancelActivity id attempt reason effectAmbiguous) s := by
  unfold cancelActivity
  refine .read_bind <| .check_bind fun _ _ => ?_
  split
  · exact failActivity_leads _ _ _ _ _
  · refine .check_bind fun _ _ => ?_
    split
    · exact failActivity_leads _ _ _ _ _
    · exact .bind (Issues.activityAttemptCancelled id attempt reason).leads fun _ _ _ => .pure _

theorem reconcileActivity_leads (reconciliationId id : String)
    (resolution : ActivityReconciliation) :
    Leads TypedExtends (reconcileActivity reconciliationId id resolution) s := by
  unfold reconcileActivity
  refine .check_bind fun _ _ => .read_bind <| .check_bind fun record hrecord =>
    .check_bind fun _ _ => .check_bind fun latest hlatest => ?_
  exact (Issues.activityReconciled _ resolution (activity_eq_ok.mp hrecord)
    (okOr_eq_ok.mp hlatest)).leads

theorem requestApproval_leads (logicalKey : String) (activityId : Option String) (prompt : String)
    (payload : Value) :
    Leads TypedExtends (requestApproval logicalKey activityId prompt payload) s := by
  unfold requestApproval
  refine .check_bind fun _ _ => .read_bind <| .check_bind fun _ _ => .check_bind fun _ _ =>
    .check_bind fun _ _ => .bind ?_ fun _ _ _ => .pure _
  exact (Issues.approvalRequested logicalKey activityId prompt payload
    (stableIdentifier_valid _ _ (by decide))).leads

theorem requestTypedApproval_leads (request : DurableApprovalRequest) :
    Leads TypedExtends (requestTypedApproval request) s := by
  unfold requestTypedApproval
  exact .check_bind fun _ _ => .check_bind fun _ _ => .check_bind fun _ _ => .read_bind <|
    .check_bind fun _ _ => .check_bind fun _ _ => requestApproval_leads _ _ _ _

theorem resolveApproval_leads (commandId : String) (resolution : ApprovalResolution)
    (nowUnixMs : Option Nat) (timedOut : Bool) :
    Leads TypedExtends (resolveApproval commandId resolution nowUnixMs timedOut) s := by
  unfold resolveApproval
  exact .read_bind <| .check_bind fun _ _ => .check_bind fun _ _ => .check_bind fun _ _ =>
    .bind (Issues.approvalResolved _ _ _ _).leads fun _ _ _ => .pure _

theorem expireApprovals_leads (expirationId : String) (nowUnixMs : Nat) :
    Leads TypedExtends (expireApprovals expirationId nowUnixMs) s := by
  unfold expireApprovals
  exact .check_bind fun _ _ => .read_bind <| .check_bind fun _ _ =>
    .bind (.onCandidate (.each (fun _ _ => resolveApproval_leads _ _ _ _) _ _))
      fun _ _ _ => .pure _

theorem publishArtifact_leads (artifactId mediaType : String) (sizeBytes : Nat)
    (contentHash : String) (createdByActivityId : Option String) :
    Leads TypedExtends
      (publishArtifact artifactId mediaType sizeBytes contentHash createdByActivityId) s := by
  unfold publishArtifact
  refine .check_bind fun _ hid => .read_bind <| .check_bind fun _ _ => .check_bind fun _ _ =>
    .bind (Issues.artifactPublished _ ?_ ?_).leads fun _ _ _ => .pure _
  · exact validateIdentifier_eq_ok.mp hid
  · exact stableIdentifier_valid _ _ (by decide)

theorem checkpoint_leads (checkpointKey : String) (label : Option String) :
    Leads TypedExtends (RunState.checkpoint checkpointKey label) s := by
  unfold RunState.checkpoint
  refine .check_bind fun _ _ => .read_bind <| .check_bind fun _ _ => .check_bind fun _ hstatus =>
    .bind (Issues.checkpointCommitted _ label ?_ ?_).leads fun _ _ _ => .read_bind (.check _)
  · exact stableIdentifier_valid _ _ (by decide)
  · exact ensureNotReconciling_eq_ok.mp hstatus

theorem resumeCandidate_leads (commandId : String) (approvals : List ApprovalResolution)
    (nowUnixMs : Option Nat) (eventId : String) :
    Leads TypedExtends (resumeCandidate commandId approvals nowUnixMs eventId) s := by
  unfold resumeCandidate
  exact .read_bind <| .check_bind fun _ _ =>
    .bind (.each (fun _ _ => resolveApproval_leads _ _ _ _) _ _) fun _ _ _ =>
      .bind (.each (fun _ _ => resolveApproval_leads _ _ _ _) _ _) fun _ _ _ =>
        .read_bind <| .check_bind fun _ _ => .bind (Issues.runResumed _).leads fun _ _ _ => .pure _

theorem resume_leads (commandId : String) (approvals : List ApprovalResolution)
    (nowUnixMs : Option Nat) : Leads TypedExtends (resume commandId approvals nowUnixMs) s := by
  unfold resume
  refine .check_bind fun _ _ => .read_bind ?_
  dsimp only [id]
  split
  · split
    · exact .pure _
    · exact .throw _
  · exact .check_bind fun _ _ => .check_bind fun _ _ =>
      .onCandidate (resumeCandidate_leads _ _ _ _)

theorem fork_leads (commandId newRunId checkpointId : String) (sideEffectsReconciled : Bool) :
    Leads TypedExtends (fork commandId newRunId checkpointId sideEffectsReconciled) s := by
  unfold fork
  refine .check_bind fun _ _ => .check_bind fun _ _ => .read_bind <| .check_bind fun _ _ =>
    .check_bind fun _ _ => .check_bind fun _ _ => ?_
  dsimp only [id]
  split
  · split
    · exact .check_bind fun _ _ => .pure _
    · exact .throw _
  · exact .check_bind fun _ _ => .onCandidate <| .bind (Issues.forkCreated _ _ _ _ _).leads
      fun _ _ _ => .read_bind <| .check_bind fun _ _ => .pure _

theorem rewind_leads (commandId checkpointId : String) (sideEffectsReconciled : Bool) :
    Leads TypedExtends (rewind commandId checkpointId sideEffectsReconciled) s := by
  unfold rewind
  refine .check_bind fun _ _ => .read_bind <| .check_bind fun _ _ => .check_bind fun _ _ => ?_
  dsimp only [id]
  split
  · split
    · exact .pure _
    · exact .throw _
  · exact .check_bind fun _ _ => .bind
      (Issues.runRewound _ _ _ (stableIdentifier_valid _ _ (by decide))).leads fun _ _ _ => .pure _

theorem cancel_leads (commandId : String) (reason : Option String) :
    Leads TypedExtends (cancel commandId reason) s := by
  unfold cancel
  refine .check_bind fun _ _ => .read_bind ?_
  dsimp only [id]
  split
  · split
    · exact .pure _
    · exact .throw _
  · exact .check_bind fun _ _ => .check_bind fun _ _ =>
      .bind (Issues.runCancelled _ reason).leads fun _ _ _ => .pure _

theorem applyCommand_leads (command : RunCommand) : Leads TypedExtends (applyCommand command) s := by
  cases command with
  | resume => exact resume_leads _ _ _
  | fork => exact fork_leads _ _ _ _
  | rewind => exact rewind_leads _ _ _
  | cancel => exact cancel_leads _ _

theorem applyCommandAt_leads (command : RunCommand) (nowUnixMs : Nat) :
    Leads TypedExtends (applyCommandAt command nowUnixMs) s := by
  cases command with
  | resume => exact resume_leads _ _ _
  | fork => exact fork_leads _ _ _ _
  | rewind => exact rewind_leads _ _ _
  | cancel => exact cancel_leads _ _

theorem quarantineUnstartedReservedActivity_leads (id reason : String) :
    Leads Extends (quarantineUnstartedReservedActivity id reason) s := by
  unfold quarantineUnstartedReservedActivity
  exact .read_bind <| .check_bind fun _ _ => .check_bind fun _ _ => .check_bind fun _ _ =>
    .bind (emit_leads _ _ _) fun _ _ _ => .pure _

theorem quarantineTerminalLegacyRunningActivity_leads (id reason : String) :
    Leads Extends (quarantineTerminalLegacyRunningActivity id reason) s := by
  unfold quarantineTerminalLegacyRunningActivity
  exact .read_bind <| .check_bind fun _ _ => .check_bind fun _ _ => .check_bind fun _ _ =>
    .check_bind fun _ _ => .bind (emit_leads _ _ _) fun _ _ _ => .pure _

end RunState

open RunState Method

omit [Digest] in
theorem answered_leads {R : RunState → RunState → Prop} [Std.Refl R] [IsTrans RunState R] {α : Type}
    {m : RunMethod α} {s : RunState} (h : Leads R m s) : Leads R (answered m) s :=
  .bind h fun _ _ _ => .pure _

/-- **A typed call leads along typed steps**, however it ends. -/
theorem TypedCall.leads (call : TypedCall) (s : RunState) : Leads TypedExtends call.run s := by
  cases call with
  | replaceState mutationId state =>
    exact answered_leads <| .check_bind fun _ _ => .read_bind <| .check_bind fun _ _ =>
      (Issues.stateReplaced _ state).leads
  | claimWorkerLease ownerId leaseId claimedAt expiresAt =>
    exact answered_leads <| .check_bind fun _ _ => .check_bind fun _ _ => .check_bind fun _ _ =>
      .read_bind <| .bind (Issues.workerLeaseClaimed _ _ _ _ _).leads fun _ _ _ => .pure _
  | renewWorkerLease ownerId leaseId renewedAt expiresAt =>
    exact answered_leads <| .check_bind fun _ _ => .check_bind fun _ _ => .check_bind fun _ _ =>
      .read_bind <| .bind (Issues.workerLeaseRenewed _ _ _ _ _).leads fun _ _ _ => .pure _
  | releaseWorkerLease ownerId leaseId releasedAt =>
    exact answered_leads <| .check_bind fun _ _ => .check_bind fun _ _ => .read_bind <|
      .bind (Issues.workerLeaseReleased _ _ _ _).leads fun _ _ _ => .pure _
  | prepareActivity => exact answered_leads (prepareActivity_leads _ _ _ _ _)
  | completeActivity => exact answered_leads (completeActivity_leads _ _ _)
  | failActivity => exact answered_leads (failActivity_leads _ _ _ _ _)
  | cancelActivity => exact answered_leads (cancelActivity_leads _ _ _ _)
  | reconcileActivity => exact answered_leads (reconcileActivity_leads _ _ _)
  | requestApproval => exact answered_leads (requestApproval_leads _ _ _ _)
  | requestTypedApproval => exact answered_leads (requestTypedApproval_leads _)
  | expireApprovals => exact answered_leads (expireApprovals_leads _ _)
  | publishArtifact => exact answered_leads (publishArtifact_leads _ _ _ _ _)
  | checkpoint => exact answered_leads (checkpoint_leads _ _)
  | pause pauseId reason =>
    exact answered_leads <| .check_bind fun _ _ => .read_bind <| .check_bind fun _ _ =>
      .check_bind fun _ _ => .bind (Issues.runPaused _ reason).leads fun _ _ _ => .pure _
  | completeRun completionId =>
    exact answered_leads <| .check_bind fun _ _ => .read_bind <| .check_bind fun _ _ =>
      .check_bind fun _ _ => (Issues.runCompleted _).leads
  | failRun failureId error =>
    exact answered_leads <| .check_bind fun _ _ => .read_bind <| .check_bind fun _ _ =>
      .check_bind fun _ _ => (Issues.runFailed _ error).leads
  | applyCommand => exact answered_leads (applyCommand_leads _)
  | applyCommandAt => exact answered_leads (applyCommandAt_leads _ _)

/-- **A call accepts events and does nothing else**, however it ends. -/
theorem Call.leads (call : Call) (s : RunState) : Leads Extends call.run s := by
  cases call with
  | typed call => exact (call.leads s).extends
  | appendEvent event => exact answered_leads (appendEvent_leads event s)
  | quarantineUnstartedReservedActivity => exact quarantineUnstartedReservedActivity_leads _ _
  | quarantineTerminalLegacyRunningActivity =>
    exact quarantineTerminalLegacyRunningActivity_leads _ _

namespace RunState

variable {s t : RunState}

/-! ### Reachable runs -/

/-- The run after a call, however the call ended. -/
def afterCall (s : RunState) (call : Call) : RunState := after (call.run.run s)

/-- The run that a fork of `s` makes. -/
def ForkOf (s : RunState) (commandId newRunId checkpointId : String)
    (sideEffectsReconciled : Bool) (child : RunState) : Prop :=
  ∃ t, (fork commandId newRunId checkpointId sideEffectsReconciled).run s = .ok (.forked child) t

/-- The runs that callers can reach. -/
inductive Reachable : RunState → Prop where
  /-- A run that begins. -/
  | new {s : RunState} {sessionId runId : String} {durability : DurabilityMode}
      (h : RunState.new sessionId runId durability = .ok s) : Reachable s
  /-- A run that begins with its governance binding. -/
  | newWithGovernanceBinding {s : RunState} {sessionId runId : String}
      {durability : DurabilityMode} {binding : GovernanceBinding}
      (h : RunState.newWithGovernanceBinding sessionId runId durability binding = .ok s) :
      Reachable s
  /-- A run that is rebuilt from a log. -/
  | fromEvents {s : RunState} {events : List RunEvent} (h : RunState.fromEvents events = .ok s) :
      Reachable s
  /-- What any public call leaves, be it refused or not. -/
  | call {s : RunState} (hs : Reachable s) (call : Call) : Reachable (s.afterCall call)
  /-- The new run of a fork. -/
  | forked {s child : RunState} {commandId newRunId checkpointId : String} {reconciled : Bool}
      (hs : Reachable s) (h : s.ForkOf commandId newRunId checkpointId reconciled child) :
      Reachable child

theorem Logged.extends (hs : Logged s) (h : Extends s t) : Logged t := by
  induction h with
  | refl => exact hs
  | tail _ hstep ih =>
    obtain ⟨e, he⟩ := hstep
    exact ih.emits he

variable {e : RunEvent}

/-- A run that is built by emitting its first event, and perhaps more, is logged. -/
theorem Opens.emits {o : RunState} (ho : Opens o e) (h : Emits o e t) : Logged t :=
  .opened ho (h.replays (by simp [ho.events]))

/-- The session and the run of a log have well-formed identifiers. -/
theorem Logged.valid (hs : Logged s) : ValidIdentifier s.sessionId ∧ ValidIdentifier s.runId := by
  induction hs with
  | opened ho h =>
    obtain ⟨sessionId, durability, -, hsession, hrun, rfl⟩ := ho.opening
    obtain ⟨u, hu, rfl⟩ := h.2.applied
    have hframe := applyEventInPlace_frame hu
    rw [pushEvent_sessionId, pushEvent_runId, hframe.2.1, hframe.2.2]
    exact ⟨hsession, hrun⟩
  | extended hs h ih =>
    obtain ⟨u, htransition, rfl⟩ := hs.transition h.2
    have hframe := htransition.frame
    rw [pushEvent_sessionId, pushEvent_runId, hframe.2.1, hframe.2.2.1]
    exact ih

/-- What `emit` did to a run whose log holds no event of that kind. -/
theorem run_emit_of_forall_ne {eventId : String} {kind : RunEventKind} {outcome : AppendOutcome}
    (hs : ∀ e ∈ s.events, e.kind ≠ kind) (h : (emit eventId kind).run s = .ok outcome t) :
    Accepts s (s.nextEvent eventId kind) t := by
  rcases of_run_emit h with ⟨⟨e, he, -, hkind⟩, -⟩ | haccepts
  · exact absurd hkind (hs e he)
  · exact haccepts

/-- The event that `RunState::new` emits. -/
def startEvent (sessionId runId : String) (durability : DurabilityMode) : RunEvent :=
  nextEvent (blank sessionId runId durability (RunProjection.root runId))
    (stableIdentifier "event" [runId, "run_started"])
    (.runStarted sessionId durability (RunProjection.root runId).branchId)

variable {durability : DurabilityMode} {runId sessionId : String}

theorem new_spec
    (h : new sessionId runId durability = .ok s) :
    Opens (blank sessionId runId durability (RunProjection.root runId))
        (startEvent sessionId runId durability) ∧
      Emits (blank sessionId runId durability (RunProjection.root runId))
        (startEvent sessionId runId durability) s := by
  simp only [new, bind_eq_ok, exists_unit, validateIdentifier_eq_ok, build_eq_ok] at h
  obtain ⟨hsession, hrun, outcome, hemit⟩ := h
  refine ⟨⟨sessionId, durability, rfl, hsession, hrun, rfl⟩, rfl, ?_⟩
  exact run_emit_of_forall_ne (fun e he => by cases he) hemit

theorem logged_of_new
    (h : new sessionId runId durability = .ok s) : Logged s :=
  (new_spec h).1.emits (new_spec h).2

variable {binding : GovernanceBinding}

/-- A governed run is a new one with its binding pinned. -/
theorem newWithGovernanceBinding_spec
    (h : newWithGovernanceBinding sessionId runId durability binding = .ok s) :
    ∃ r, new sessionId runId durability = .ok r ∧
      Accepts r (r.nextEvent (stableIdentifier "event" [r.runId, "governance_binding_pinned"])
        (.governanceBindingPinned binding)) s := by
  simp only [newWithGovernanceBinding, bind_eq_ok, exists_unit, build_eq_ok] at h
  obtain ⟨-, -, r, hr, outcome, hemit⟩ := h
  refine ⟨r, hr, run_emit_of_forall_ne ?_ hemit⟩
  intro e he hkind
  rw [(new_spec hr).2.2.events, List.mem_append, List.mem_singleton] at he
  rcases he with he | rfl
  · cases he
  · cases hkind

theorem logged_of_newWithGovernanceBinding
    (h : newWithGovernanceBinding sessionId runId durability binding = .ok s) : Logged s := by
  obtain ⟨r, hr, haccepts⟩ := newWithGovernanceBinding_spec h
  exact (logged_of_new hr).emits (.of_nextEvent haccepts)

/-! ### Forks -/

/-- The blank run that `build_fork` starts from. -/
def forkBlank (s : RunState) (newRunId : String) (checkpoint : Checkpoint) (newBranchId : String) :
    RunState :=
  blank s.sessionId newRunId s.durability (forkProjection checkpoint newRunId newBranchId)

/-- The first event of a fork. -/
def forkEvent (s : RunState) (newRunId : String) (checkpoint : Checkpoint)
    (newBranchId commandId : String) : RunEvent :=
  (s.forkBlank newRunId checkpoint newBranchId).nextEvent
    (stableIdentifier "event" [newRunId, "forked_from", commandId])
    (.forkedFrom s.sessionId s.runId s.durability checkpoint newBranchId)

/-- How a fork of `s` is pinned once it is opened: as `s` is. -/
inductive Pins (s : RunState) (newRunId : String) (m : RunState) : RunState → Prop where
  | governed {binding bound : GovernanceBinding} {child : RunState}
      (hbinding : s.governanceBinding = some binding) (hbound : bindFork binding newRunId = .ok bound)
      (h : Accepts m (m.nextEvent (stableIdentifier "event" [newRunId, "governance_binding_pinned"])
        (.governanceBindingPinned bound)) child) : Pins s newRunId m child
  | hashed {hash : String} {child : RunState} (hbinding : s.governanceBinding = none)
      (hhash : s.policySnapshotHash = some hash)
      (h : Accepts m (m.nextEvent (stableIdentifier "event" [newRunId, "policy_snapshot_pinned"])
        (.policySnapshotPinned hash)) child) : Pins s newRunId m child
  | free (hbinding : s.governanceBinding = none) (hhash : s.policySnapshotHash = none) :
      Pins s newRunId m m

variable {child : RunState} {commandId newRunId : String}

variable {checkpoint : Checkpoint} {newBranchId : String}

theorem buildFork_eq_ok :
    s.buildFork newRunId checkpoint newBranchId commandId = .ok child ↔
      ∃ m, Accepts (s.forkBlank newRunId checkpoint newBranchId)
        (s.forkEvent newRunId checkpoint newBranchId commandId) m ∧ Pins s newRunId m child := by
  unfold buildFork
  rw [build_eq_ok]
  unfold forkEvents
  constructor
  · rintro ⟨_, hrun⟩
    obtain ⟨_, m, hemit, hrest⟩ := run_bind_eq_ok.mp hrun
    have hopen : Accepts (s.forkBlank newRunId checkpoint newBranchId)
        (s.forkEvent newRunId checkpoint newBranchId commandId) m :=
      run_emit_of_forall_ne (fun e he => by cases he) hemit
    have hm : ∀ e ∈ m.events, e.kind =
        .forkedFrom s.sessionId s.runId s.durability checkpoint newBranchId := by
      intro e he
      rw [hopen.events, List.mem_append, List.mem_singleton] at he
      rcases he with he | rfl
      · cases he
      · rfl
    refine ⟨m, hopen, ?_⟩
    split at hrest
    · next binding _ hbinding =>
      obtain ⟨bound, _, hcheck, hrest⟩ := run_bind_eq_ok.mp hrest
      obtain ⟨hbound, rfl⟩ := run_check_eq_ok.mp hcheck
      obtain ⟨_, u, hemit, hdone⟩ := run_bind_eq_ok.mp hrest
      cases hdone
      refine .governed hbinding hbound (run_emit_of_forall_ne (fun e he hkind => ?_) hemit)
      rw [hm e he] at hkind
      cases hkind
    · next hash hbinding hhash =>
      obtain ⟨_, u, hemit, hdone⟩ := run_bind_eq_ok.mp hrest
      cases hdone
      refine .hashed hbinding hhash (run_emit_of_forall_ne (fun e he hkind => ?_) hemit)
      rw [hm e he] at hkind
      cases hkind
    · next hbinding hhash =>
      cases hrest
      exact .free hbinding hhash
  · rintro ⟨m, hopen, hpins⟩
    refine ⟨(), run_bind_eq_ok.mpr ⟨_, m, run_emit_eq_ok.mpr (.inr ⟨hopen, rfl⟩), ?_⟩⟩
    cases hpins with
    | governed hbinding hbound h =>
      rw [hbinding]
      refine run_bind_eq_ok.mpr ⟨_, m, run_check_eq_ok.mpr ⟨hbound, rfl⟩, ?_⟩
      exact run_bind_eq_ok.mpr ⟨_, _, run_emit_eq_ok.mpr (.inr ⟨h, rfl⟩), rfl⟩
    | hashed hbinding hhash h =>
      rw [hbinding, hhash]
      exact run_bind_eq_ok.mpr ⟨_, _, run_emit_eq_ok.mpr (.inr ⟨h, rfl⟩), rfl⟩
    | free hbinding hhash =>
      rw [hbinding, hhash]
      rfl

/-- A first event of a fork says all of the projection that it opens. -/
theorem Accepts.reblank {sourceRunId branchId : String}
    {mode : DurabilityMode} {source : Checkpoint} {P P' : RunProjection}
    (hkind : e.kind = .forkedFrom sessionId sourceRunId durability source branchId)
    (h : Accepts (blank sessionId runId mode P) e t) :
    Accepts (blank sessionId runId mode P') e t := by
  refine ⟨h.valid, h.run, h.fresh, h.next, ?_⟩
  obtain ⟨u, hu, ht⟩ := h.applied
  refine ⟨u, ?_, ht⟩
  rw [applyEventInPlace, hkind] at hu ⊢
  exact hu

theorem logged_of_buildFork (hs : Logged s) (hrun : ValidIdentifier newRunId)
    (h : s.buildFork newRunId checkpoint newBranchId commandId = .ok child) : Logged child := by
  obtain ⟨m, hopen, hpins⟩ := buildFork_eq_ok.mp h
  have ho : Opens (blank s.sessionId newRunId s.durability (RunProjection.root newRunId))
      (s.forkEvent newRunId checkpoint newBranchId commandId) :=
    ⟨s.sessionId, s.durability, rfl, hs.valid.1, hrun, rfl⟩
  have hm : Logged m := ho.emits ⟨rfl, hopen.reblank rfl⟩
  cases hpins with
  | governed _ _ h => exact hm.emits (.of_nextEvent h)
  | hashed _ _ h => exact hm.emits (.of_nextEvent h)
  | free => exact hm

/-- The identity of a fork command's event in the source. -/
def forkEventId (s : RunState) (commandId : String) : String :=
  stableIdentifier "event" [s.runId, "fork", commandId]

/-- The branch that a fork command opens. -/
def forkBranchId (newRunId commandId : String) : String :=
  stableIdentifier "branch" [newRunId, "fork", commandId]

variable {checkpointId : String} {reconciled : Bool}

/-- What `fork` did: build the fork of an earlier command again, or record the command and
build its fork. -/
theorem run_fork_eq_ok
    {outcome : CommandOutcome} (hs : s.events ≠ []) :
    (fork commandId newRunId checkpointId reconciled).run s = .ok outcome t ↔
      ValidIdentifier commandId ∧ ValidIdentifier newRunId ∧ newRunId ≠ s.runId ∧
      ∃ stored checkpoint child, s.checkpoints[checkpointId]? = some stored ∧
        s.checkpointForCurrentRun stored = .ok checkpoint ∧ outcome = .forked child ∧
        ((∃ event branchId, s.eventById (s.forkEventId commandId) = some event ∧
            repeatedForkBranch newRunId checkpointId reconciled event.kind = some branchId ∧
              s.buildFork newRunId checkpoint branchId commandId = .ok child ∧ t = s) ∨
          (s.eventById (s.forkEventId commandId) = none ∧
            s.buildFork newRunId checkpoint (forkBranchId newRunId commandId) commandId = .ok child ∧
              Accepts s (s.nextEvent (s.forkEventId commandId) (.forkCreated newRunId checkpointId
                (forkBranchId newRunId commandId) reconciled)) t)) := by
  unfold fork
  simp only [run_check_bind_eq_ok, run_read_bind, id, exists_unit, validateIdentifier_eq_ok,
    refuseIf_eq_ok, checkpointById_eq_ok]
  refine and_congr_right fun _ => and_congr_right fun _ => and_congr_right fun _ => ?_
  constructor
  · rintro ⟨stored, hstored, checkpoint, hcheckpoint, h⟩
    refine ⟨stored, checkpoint, ?_⟩
    split at h
    · next event hfind =>
      split at h
      · next branchId hrepeated =>
        obtain ⟨child, hchild, hdone⟩ := run_check_bind_eq_ok.mp h
        cases hdone
        exact ⟨child, hstored, hcheckpoint, rfl, .inl ⟨event, branchId, hfind, hrepeated, hchild, rfl⟩⟩
      · cases h
    · next hfind =>
      obtain ⟨-, -, h⟩ := run_check_bind_eq_ok.mp h
      obtain ⟨appended, m, hemit, hbuild⟩ := run_bind_eq_ok.mp (run_onCandidate_eq_ok.mp h)
      rw [run_read_bind] at hbuild
      obtain ⟨child, hchild, hdone⟩ := run_check_bind_eq_ok.mp hbuild
      cases hdone
      rcases of_run_emit hemit with ⟨hrecords, -⟩ | haccepts
      · exact absurd hrecords.hasEvent (eventById_eq_none.mp hfind)
      · obtain ⟨u, htransition, rfl⟩ := haccepts.transition hs
        cases htransition
        exact ⟨child, hstored, hcheckpoint, rfl, .inr ⟨hfind, hchild, haccepts⟩⟩
  · rintro ⟨stored, checkpoint, child, hstored, hcheckpoint, rfl, h⟩
    refine ⟨stored, hstored, checkpoint, hcheckpoint, ?_⟩
    rcases h with ⟨event, branchId, hfind, hrepeated, hchild, ht⟩ | ⟨hfind, hchild, haccepts⟩
    · rw [show s.eventById (stableIdentifier "event" [s.runId, "fork", commandId]) = _ from hfind, ht]
      dsimp only
      rw [hrepeated]
      exact run_check_bind_eq_ok.mpr ⟨child, hchild, rfl⟩
    · rw [show s.eventById (stableIdentifier "event" [s.runId, "fork", commandId]) = _ from hfind]
      obtain ⟨u, htransition, ht⟩ := haccepts.transition hs
      cases htransition with
      | forkCreated hactive hrun hstored' hcheckpoint' hreconciled =>
        rw [hstored] at hstored'
        cases hstored'
        rw [hcheckpoint] at hcheckpoint'
        cases hcheckpoint'
        subst ht
        refine run_check_bind_eq_ok.mpr ⟨(), hreconciled, run_onCandidate_eq_ok.mpr ?_⟩
        refine run_bind_eq_ok.mpr ⟨_, _, run_emit_eq_ok.mpr (.inr ⟨haccepts, rfl⟩), ?_⟩
        rw [run_read_bind]
        exact run_check_bind_eq_ok.mpr ⟨child, hchild, rfl⟩

theorem logged_of_forkOf (hs : Logged s)
    (h : s.ForkOf commandId newRunId checkpointId reconciled child) : Logged child := by
  obtain ⟨t, hrun⟩ := h
  obtain ⟨-, hvalid, -, _, _, _, -, -, heq, hbuild⟩ := (run_fork_eq_ok hs.events_ne_nil).mp hrun
  cases heq
  rcases hbuild with ⟨_, _, -, -, hchild, -⟩ | ⟨-, hchild, -⟩
  · exact logged_of_buildFork hs hvalid hchild
  · exact logged_of_buildFork hs hvalid hchild

/-- Every reachable run's log was accepted event by event. -/
theorem Reachable.logged (h : Reachable s) : Logged s := by
  induction h with
  | new h => exact logged_of_new h
  | newWithGovernanceBinding h => exact logged_of_newWithGovernanceBinding h
  | fromEvents h => exact logged_of_fromEvents h
  | call _ call ih => exact ih.extends (call.leads _)
  | forked _ h ih => exact logged_of_forkOf ih h

/-- **Reachable runs are the ones whose log is accepted.** -/
theorem reachable_iff_logged : Reachable s ↔ Logged s :=
  ⟨Reachable.logged, fun h => .fromEvents h.fromEvents⟩

/-- **Every reachable run is its log replayed**: the log, the projection, the checkpoints and
everything else. -/
theorem Reachable.fromEvents_events (h : Reachable s) : RunState.fromEvents s.events = .ok s :=
  h.logged.fromEvents

end RunState

end

namespace RunState

/-- A new run that was paused is its log replayed. -/
theorem fromEvents_events_paused :
    ∃ s, @new sha256 "session" "run" .sync = .ok s ∧
      @RunState.fromEvents sha256 (@afterCall sha256 s (.typed (.pause "night" "rest"))).events =
        .ok (@afterCall sha256 s (.typed (.pause "night" "rest"))) := by
  have hnew : ∃ s, @new sha256 "session" "run" .sync = .ok s ∧ True := by decide +kernel
  obtain ⟨s, hs, -⟩ := hnew
  exact ⟨s, hs, @Reachable.fromEvents_events sha256 _ (@Reachable.call sha256 s (@Reachable.new sha256 _ _ _ _ hs) _)⟩

end RunState

end AikitRuntime.Durability
