import AikitRuntime.Agent.Run

/-!
# What the parts of a run do not do

Only `execute` executes a tool, only a few parts touch the messages of the recorder, and only
the end of a run records an outcome. A part that does none of this is `Quiet`; a part that
records no outcomes but some is `Closing`. Each keeps whatever its operations keep.

A quiet part hands each record to the sinks right after it has reserved its number
(`Numbered`). Only the records of a terminal audit are described in between.
-/

namespace AikitRuntime.Agent

open Library Durability Streaming Governance

/-- The event neither begins nor ends a run or a turn. -/
def AuditEvent.Plain : AuditEvent → Prop
  | .runStarted _ | .requestStarted _ _ _ _ | .runStopped _ _ => False
  | _ => True

/-- The recorded messages stay as they are, and no outcome is recorded. -/
def Recording.Plain : Recording → Prop
  | .begin _ | .replaceMessages _ | .appendMessage _ | .complete _ _ _ => False
  | _ => True

/-- The call has no part in a terminal audit. -/
def DriverCall.Plain : DriverCall → Prop
  | .beginInvocationRunStoppedAudit _ | .beginRecoveryRunStoppedAudit _ | .beginTerminalAuditRetry _
  | .closeActiveLifecycleFromMatchingCompletedCanonicalReplay _ => False
  | _ => True

/-- No tool is executed and no delta awaited, nothing but errors is shown, the recorded messages
and the outcome are not touched, no run or turn begins or ends, and no terminal audit. -/
def Op.Plain : Op → Prop
  | .execute _ _ | .awaitDelta _ | .compact _ => False
  | .yield (.error _ _) => True
  | .yield _ => False
  | .record entry => entry.Plain
  | .deliver audited => audited.event.Plain
  | .driver call => call.Plain
  | _ => True

/-- What may also be done at the end of a run: to say that it stopped, with a terminal audit, and
to record an outcome with one of these statuses. -/
def Op.Closes (S : RunTerminalStatus → Prop) : Op → Prop
  | .record (.complete _ status _) => S status
  | .deliver ⟨_, _, _, .runStopped _ _⟩ => True
  | .driver _ => True
  | op => op.Plain

/-! ### Numbered records -/

/-- The operations of a class, and the last event. A record must have the number that was reserved
just before. -/
def numbers (C : Op → Prop) : Monitor Op Op.Answer (Option (Event Op Op.Answer)) where
  allows last op := match op with
    | .deliver record => last = some ⟨.reserveSequence, record.sequence⟩ ∧ C (.deliver record)
    | op => C op
  admits _ _ _ := True
  step _ op answer := some ⟨op, answer⟩

/-- A program that calls operations of a class, and numbers its records. -/
def Numbered {α : Type} (C : Op → Prop) (p : Program α) : Prop :=
  Holds (numbers C) (fun _ _ => True) p none

namespace Numbered

variable {C C' : Op → Prop} {α β ε : Type} {p : Program α} {Q : α → Option (Event Op Op.Answer) → Prop}
  {last : Option (Event Op Op.Answer)}

theorem allows_of_none {op : Op} (h : (numbers C).allows none op) : (numbers C).allows last op := by
  cases op with
  | deliver record => cases h.1
  | _ => exact h

/-- Nothing depends on what was done before. -/
theorem holds_after (h : Holds (numbers C) Q p none) (hQ : ∀ a last, Q a none → Q a last)
    (last : Option (Event Op Op.Answer)) : Holds (numbers C) Q p last := by
  cases p with
  | ret a => exact hQ a last h
  | call op next => exact ⟨allows_of_none h.1, h.2⟩

theorem after (h : Numbered C p) (last : Option (Event Op Op.Answer)) :
    Holds (numbers C) (fun _ _ => True) p last := holds_after h (fun _ _ h => h) last

theorem perform {op : Op} (h : (numbers C).allows none op) : Numbered C (perform op) :=
  ⟨h, fun _ _ => trivial⟩

theorem bind {f : α → Program β} (h : Numbered C p) (hf : ∀ a, Numbered C (f a)) :
    Numbered C (p >>= f) := Holds.bind h fun a last _ => (hf a).after last

theorem call {op : Op} {f : op.Answer → Program β} (h : (numbers C).allows none op)
    (hf : ∀ answer, Numbered C (f answer)) : Numbered C (Agent.perform op >>= f) :=
  ⟨h, fun answer _ => (hf answer).after _⟩

theorem uses_of_holds (h : Holds (numbers C) (fun _ _ => True) p last) : Uses C p := by
  induction p generalizing last with
  | ret a => trivial
  | call op next ih =>
    refine ⟨?_, fun answer => ih answer (h.2 answer trivial)⟩
    cases op with
    | deliver record => exact h.1.2
    | _ => exact h.1

theorem uses (h : Numbered C p) : Uses C p := uses_of_holds h

theorem holds_mono (h : Holds (numbers C) Q p last) (hC : ∀ op, C op → C' op) :
    Holds (numbers C') Q p last := by
  induction p generalizing last with
  | ret a => exact h
  | call op next ih =>
    refine ⟨?_, fun answer _ => ih answer (h.2 answer trivial)⟩
    cases op with
    | deliver record => exact ⟨h.1.1, hC _ h.1.2⟩
    | _ => exact hC _ h.1

theorem mono (h : Numbered C p) (hC : ∀ op, C op → C' op) : Numbered C' p := holds_mono h hC

end Numbered

/-- A stop at a boundary: there is a driver, which has just classified the run so. -/
def Stop.Seen (driven : Bool) (stop : Stop) (last : Option (Event Op Op.Answer)) : Prop :=
  ∀ disposition, stop = .boundary disposition →
    driven = true ∧ ∃ active, last = some ⟨.driver (.disposition active), .ok disposition⟩

theorem Stop.seen_of_none {driven : Bool} {stop : Stop} (h : stop.Seen driven none)
    (last : Option (Event Op Op.Answer)) : stop.Seen driven last := by
  intro disposition heq
  obtain ⟨-, active, hnone⟩ := h disposition heq
  cases hnone

theorem Stop.seen_reason {driven : Bool} {reason : String} {emitted : Bool}
    {last : Option (Event Op Op.Answer)} : (Stop.reason reason emitted).Seen driven last :=
  fun _ heq => by cases heq

/-- A part of the loop that numbers its records, and is left at no other boundary than one that the
driver has just seen. -/
def Part {α : Type} (C : Op → Prop) (driven : Bool) (x : Flow α) : Prop :=
  Passes (numbers C) (fun _ _ => True) (fun stop last => stop.Seen driven last) x none

namespace Part

variable {C C' : Op → Prop} {driven : Bool} {α β : Type} {x : Flow α}

theorem after (h : Part C driven x) (last : Option (Event Op Op.Answer)) :
    Passes (numbers C) (fun _ _ => True) (fun stop last => stop.Seen driven last) x last := by
  refine Numbered.holds_after h (fun r last hr => ⟨fun _ _ => trivial, fun stop heq => ?_⟩) last
  exact Stop.seen_of_none (hr.2 stop heq) last

theorem numbered (h : Part C driven x) : Numbered C x.run := Holds.mono h fun _ _ _ => trivial

theorem mono (h : Part C driven x) (hC : ∀ op, C op → C' op) : Part C' driven x :=
  Numbered.holds_mono h hC

theorem pure (a : α) : Part C driven (Pure.pure a : Flow α) := Passes.pure trivial

/-- The loop is left with a terminal reason. -/
theorem stop (reason : String) (emitted : Bool) : Part C driven (throw (.reason reason emitted) : Flow α) :=
  Passes.throw Stop.seen_reason

theorem bind {f : α → Flow β} (h : Part C driven x) (hf : ∀ a, Part C driven (f a)) :
    Part C driven (x >>= f) := Passes.bind h fun a last _ => (hf a).after last

/-- A program, and then the rest. -/
theorem lift {p : Program α} {f : α → Flow β} (h : Numbered C p) (hf : ∀ a, Part C driven (f a)) :
    Part C driven (liftM p >>= f) := bind (Passes.lift h) hf

theorem call {op : Op} {f : op.Answer → Flow β} (h : (numbers C).allows none op)
    (hf : ∀ answer, Part C driven (f answer)) : Part C driven (liftM (perform op) >>= f) :=
  Passes.perform_bind h fun answer _ => (hf answer).after _

theorem ite {P : Prop} [Decidable P] {y : Flow α} (hx : Part C driven x) (hy : Part C driven y) :
    Part C driven (if P then x else y) := by
  split
  · exact hx
  · exact hy

end Part

/-- A program that only calls plain operations. -/
abbrev Quiet {α : Type} (p : Program α) : Prop := Numbered Op.Plain p

/-- A program of the end of a run. -/
abbrev Closing {α : Type} (S : RunTerminalStatus → Prop) (p : Program α) : Prop := Uses (Op.Closes S) p

theorem Op.Plain.closes {op : Op} (h : op.Plain) (S : RunTerminalStatus → Prop) : op.Closes S := by
  unfold Op.Closes
  split
  · exact h.elim
  · trivial
  · trivial
  · exact h

theorem Quiet.closing {α : Type} {p : Program α} (h : Quiet p) (S : RunTerminalStatus → Prop) :
    Closing S p := Uses.mono h.uses fun _ hop => hop.closes S

variable {trail : AuditTrail} {c : RunContext} {cfg : RunConfig} {turn : Nat} {α : Type}

/-! ### Sinks and hooks -/

theorem prepareEvent_quiet (event : AuditEvent) : Quiet (trail.prepareEvent event) := by
  unfold AuditTrail.prepareEvent
  split
  · trivial
  · exact .call trivial fun _ => trivial

variable {C : Op → Prop}

theorem emitPrepared_uses {record : AuditRecord} (h : C (.deliver record)) :
    Uses C (trail.emitPrepared record) := by
  unfold AuditTrail.emitPrepared
  split
  · trivial
  refine .call h fun rejection => ?_
  cases rejection with
  | none => trivial
  | some error => exact .ite trivial trivial

/-- A prepared record has the event, and belongs to the trail. -/
theorem prepareEvent_returns (event : AuditEvent) :
    Returns (fun r => ∀ record : AuditRecord, r = .ok record →
      record.event = event ∧ record.runId = trail.runId ∧ record.invocationId = trail.invocationId)
      (trail.prepareEvent event) := by
  unfold AuditTrail.prepareEvent
  split
  · exact Returns.pure fun _ heq => by cases heq
  refine Returns.call fun sequence => Returns.pure fun record heq => ?_
  cases heq
  exact ⟨rfl, rfl, rfl⟩

variable {event : AuditEvent}

theorem emit_uses (hreserve : C .reserveSequence)
    (h : ∀ record : AuditRecord, record.event = event → C (.deliver record)) :
    Uses C (trail.emit event) := by
  have hprepare : Uses C (trail.prepareEvent event) := by
    unfold AuditTrail.prepareEvent
    split
    · trivial
    · exact .call hreserve fun _ => trivial
  refine Uses.bind_returns hprepare (prepareEvent_returns event) fun prepared hprepared => ?_
  cases prepared with
  | error error => trivial
  | ok record => exact emitPrepared_uses (h record (hprepared record rfl).1)

/-- A record gets its number, and is handed over. -/
theorem emit_numbered (hreserve : C .reserveSequence)
    (h : ∀ record : AuditRecord, record.event = event → C (.deliver record)) :
    Numbered C (trail.emit event) := by
  unfold AuditTrail.emit AuditTrail.prepareEvent
  split
  · trivial
  refine ⟨hreserve, fun sequence _ => ?_⟩
  show Holds _ _ (trail.emitPrepared ⟨trail.runId, trail.invocationId, sequence, event⟩) _
  unfold AuditTrail.emitPrepared
  split
  · trivial
  refine ⟨⟨rfl, h _ rfl⟩, fun rejection _ => ?_⟩
  cases rejection with
  | none => trivial
  | some error =>
    show Holds _ _ (if _ then _ else _) _
    split
    · trivial
    · trivial

theorem emit_quiet (h : event.Plain) : Quiet (trail.emit event) :=
  emit_numbered trivial fun record heq => by
    show record.event.Plain
    rw [heq]
    exact h

theorem runFailureHooks_quiet (ctx : FailureContext) (terminal : Bool) :
    Quiet (runFailureHooks trail ctx terminal) :=
  .call trivial fun _ => (emit_quiet (by trivial)).bind fun _ => trivial

theorem yieldError_quiet (message : String) (info : ErrorInfo) :
    Quiet (yieldDelta (.error message info)) := .perform trivial

theorem fromError_quiet (error : AikitError) : Quiet (yieldDelta (fromError error)) := .perform trivial

theorem terminalFailure_quiet (ctx : FailureContext) (info : ErrorInfo) (reason : String) :
    Quiet (terminalFailure trail ctx info reason) :=
  (runFailureHooks_quiet ctx true).bind fun _ => trivial

/-! ### Leaving the loop -/

section

variable {b : Bool}

theorem stopWith_quiet (reason : String) : Part Op.Plain b (stopWith reason : Flow α) := .stop _ _

/-- Show an error, and leave the loop. -/
theorem yieldStop_quiet (error : AikitError) (reason : String) :
    Part Op.Plain b (do liftM (yieldDelta (fromError error)); stopWith reason : Flow α) :=
  .lift (fromError_quiet error) fun _ => stopWith_quiet reason

theorem stopIfTerminated_quiet : Part Op.Plain b stopIfTerminated := by
  refine .call trivial fun trigger => ?_
  cases trigger with
  | none => exact .pure _
  | some trigger => exact stopWith_quiet _

/-- A resolved boundary is one that the driver has just seen. -/
theorem resolveDurableActivityBoundary_seen (error : DriverError) (active : Option String) :
    Holds (numbers Op.Plain) (fun r last => ∀ disposition, r = .ok disposition →
      last = some ⟨.driver (.disposition active), .ok disposition⟩)
      (resolveDurableActivityBoundary error active) none := by
  unfold resolveDurableActivityBoundary
  split
  · exact Holds.pure fun _ heq => by cases heq
  refine Holds.perform_bind trivial fun answer _ => ?_
  match answer with
  | .error error => exact Holds.pure fun _ heq => by cases heq
  | .ok .execute => exact Holds.pure fun _ heq => by cases heq
  | .ok (.finalizeTerminal receipt) => exact Holds.pure fun _ heq => by cases heq; rfl
  | .ok (.retryTerminalAudit replay) => exact Holds.pure fun _ heq => by cases heq; rfl
  | .ok (.awaitingResume reason) => exact Holds.pure fun _ heq => by cases heq; rfl
  | .ok (.reconcileRequired reason) => exact Holds.pure fun _ heq => by cases heq; rfl
  | .ok (.alreadyTerminal status reason) => exact Holds.pure fun _ heq => by cases heq; rfl

theorem resolveDurableActivityBoundary_quiet (error : DriverError) (active : Option String) :
    Quiet (resolveDurableActivityBoundary error active) :=
  Holds.mono (resolveDurableActivityBoundary_seen error active) fun _ _ _ => trivial

theorem stopAtBoundary_quiet (hdriven : b = true) (error : DriverError) (active : Option String) :
    Part Op.Plain b (stopAtBoundary error active : Flow α) := by
  refine Passes.bind (Passes.lift (resolveDurableActivityBoundary_seen error active)) fun resolved last h => ?_
  cases resolved with
  | ok disposition =>
    refine Passes.throw fun _ heq => ?_
    cases heq
    exact ⟨hdriven, active, h disposition rfl⟩
  | error error => exact (yieldStop_quiet _ _).after last

theorem failAttempt_quiet (attempt : Option Attempt) (why : String) (ambiguous : Bool) :
    Quiet (failAttempt attempt why ambiguous) := by
  cases attempt with
  | none => trivial
  | some attempt => exact .call trivial fun _ => trivial

theorem stopShowing_quiet (error : Option AikitError) (reason : String) :
    Part Op.Plain b (stopShowing error reason : Flow α) := by
  cases error with
  | none => exact stopWith_quiet _
  | some error => exact yieldStop_quiet _ _

theorem stopAfterFailing_quiet (reason : String) (attempt : Option Attempt) (why : String)
    (ambiguous : Bool) (error : Option AikitError) :
    Part Op.Plain b (stopAfterFailing reason attempt why ambiguous error : Flow α) := by
  refine .lift (failAttempt_quiet attempt why ambiguous) fun failed => ?_
  cases failed with
  | ok _ => exact stopShowing_quiet error reason
  | error commitError => exact .lift (fromError_quiet _) fun _ => stopShowing_quiet error _

theorem stopWithFailure_quiet (ctx : FailureContext) (info : ErrorInfo) (reason : String)
    (emitted : Bool) : Part Op.Plain b (stopWithFailure trail ctx info reason emitted : Flow α) :=
  .lift (terminalFailure_quiet ctx info reason) fun _ => .lift (yieldError_quiet _ _) fun _ => .stop _ _

/-! ### The stream of a turn -/

theorem reportUsage_quiet (usage : Usage) : Quiet (reportUsage trail turn usage) := by
  refine (emit_quiet (by trivial)).bind fun emitted => ?_
  cases emitted with
  | error error => trivial
  | ok _ => exact .call trivial fun _ => (emit_quiet (by trivial)).bind fun _ => trivial

theorem observe_quiet (t : Turn) (delta : StreamDelta) : Quiet (observe cfg turn t delta) := by
  cases delta with
  | messageStart model =>
    show Quiet (if _ then _ else _)
    split
    · trivial
    · exact .call trivial fun _ => trivial
  | providerMetadata provider metadata => exact .call trivial fun _ => trivial
  | warning warning => exact .call trivial fun _ => trivial
  | usage usage => exact (reportUsage_quiet usage).bind fun _ => trivial
  | _ => trivial

theorem openStream_quiet (request : ProviderRequest) (attempt : Option Attempt)
    (reused : Option (List StreamDelta)) :
    Part Op.Plain b (openStream c turn request attempt reused) := by
  cases reused with
  | some deltas => exact .pure _
  | none =>
    refine .call trivial fun opened => ?_
    match opened with
    | .error trigger => exact stopAfterFailing_quiet _ _ _ _ _
    | .ok (.ok deltas) => exact .pure _
    | .ok (.error error) =>
      refine .lift (failAttempt_quiet _ _ _) fun failed => ?_
      cases failed with
      | error commitError => exact yieldStop_quiet _ _
      | ok _ => exact stopWithFailure_quiet _ _ _ _

theorem showReworded_quiet (rawError : String) (failure : TerminalFailure) :
    Quiet (showReworded rawError failure) := by
  unfold showReworded
  split
  · exact yieldError_quiet _ _
  · trivial

theorem stopWithStreamError_quiet (rawError : String) (info : ErrorInfo) :
    Part Op.Plain b (stopWithStreamError c turn rawError info : Flow α) :=
  .lift (terminalFailure_quiet _ _ _) fun _ => .lift (showReworded_quiet _ _) fun _ => .stop _ _

theorem recordModelAttempt_quiet (t : Turn) : Quiet (recordModelAttempt cfg t) := by
  unfold recordModelAttempt
  split
  · trivial
  · exact .perform trivial

theorem turnCalls_quiet (t : Turn) : Part Op.Plain b (turnCalls c turn t) := by
  unfold turnCalls
  split
  · exact stopWithStreamError_quiet _ _
  split
  · exact stopWithFailure_quiet _ _ _ _
  split
  · exact .pure _
  · exact stopWithFailure_quiet _ _ _ _

theorem checkTurn_quiet (t : Turn) : Part Op.Plain b (checkTurn c turn t) :=
  .lift (recordModelAttempt_quiet t) fun _ => stopIfTerminated_quiet.bind fun _ => turnCalls_quiet t

theorem exceedMaxTurns_quiet : Quiet (exceedMaxTurns c turn) :=
  (terminalFailure_quiet _ _ _).bind fun _ => (yieldError_quiet _ _).bind fun _ => trivial

variable [ActivityCodec]

theorem beginProviderActivity_quiet (request : ProviderRequest) :
    Part Op.Plain c.cfg.durable (beginProviderActivity c turn request) := by
  unfold beginProviderActivity
  split
  · exact .pure _
  next hdriven =>
    refine .call trivial fun begun => ?_
    cases begun with
    | error error => exact stopAtBoundary_quiet (Bool.not_eq_false _ ▸ hdriven) error _
    | ok activity =>
      cases activity with
      | execute activityId attempt => exact .pure _
      | reuseCompleted activityId output =>
        dsimp only
        split
        · exact .pure _
        · exact yieldStop_quiet _ _

theorem settleProviderActivity_quiet (attempt : Attempt) (t : Turn) :
    Quiet (settleProviderActivity attempt t) := by
  unfold settleProviderActivity
  split
  · exact failAttempt_quiet _ _ _
  split
  · trivial
  · exact .call trivial fun _ => trivial

theorem commitProviderActivity_quiet (attempt : Option Attempt) (t : Turn) :
    Part Op.Plain b (commitProviderActivity attempt t) := by
  cases attempt with
  | none => exact .pure _
  | some attempt =>
    refine .lift (settleProviderActivity_quiet attempt t) fun committed => ?_
    cases committed with
    | ok _ => exact .pure _
    | error error => exact yieldStop_quiet _ _

theorem finishStream_quiet (attempt : Option Attempt) (t : Turn) (trigger : Option TerminationTrigger) :
    Part Op.Plain b (finishStream c turn attempt t trigger) := by
  cases trigger with
  | some trigger => exact stopAfterFailing_quiet _ _ _ _ _
  | none => exact (commitProviderActivity_quiet attempt t).bind fun _ => checkTurn_quiet t

end

/-! ### Closing an invocation -/

/-- The outcome of the run is not decided by this invocation. -/
def Disposition.terminal : Disposition → Bool
  | .finalizeTerminal _ | .retryTerminalAudit _ | .alreadyTerminal _ _ => true
  | _ => false

section

variable {S : RunTerminalStatus → Prop} {usage : Usage} {turns : Nat} {fence : Attempt}

theorem complete_closing {status : RunTerminalStatus} (h : S status) (reason : String) :
    Closing S (complete usage status reason) := .perform h

variable {β : Type}

/-- Show an error, and go on. -/
theorem fromError_closing {f : Unit → Program β} (error : AikitError)
    (hf : Closing S (f ())) : Closing S (yieldDelta (fromError error) >>= f) := .call trivial fun _ => hf

theorem failOutcome_closing (hfailed : S .failed) (error : AikitError) (reason : String) :
    Closing S (failOutcome error usage reason) := fromError_closing _ (complete_closing hfailed _)

/-- A call of the driver: the run fails, or goes on. -/
theorem driver_closing {call : DriverCall} {f : Except DriverError call.Value → Program β}
    (hok : ∀ a, Closing S (f (.ok a))) (herror : ∀ error, Closing S (f (.error error))) :
    Closing S (driver call >>= f) := by
  refine .call trivial fun answer => ?_
  cases answer with
  | ok a => exact hok a
  | error error => exact herror error

variable {reason : String} {record : AuditRecord}

/-- The run says that it stopped. -/
theorem runStopped_closes
    (h : record.event = .runStopped turns reason) : Op.Closes S (.deliver record) := by
  obtain ⟨runId, invocationId, sequence, event⟩ := record
  cases h
  trivial

/-- An emission: the record is accepted, or not. -/
theorem emitted_closing {p : Program (Except AikitError Unit)}
    {f : Except AikitError Unit → Program β} (h : Closing S p) (hok : Closing S (f (.ok ())))
    (herror : ∀ error, Closing S (f (.error error))) : Closing S (p >>= f) := by
  refine h.bind fun emitted => ?_
  cases emitted with
  | ok _ => exact hok
  | error error => exact herror error

theorem emit_closing (turns : Nat) (reason : String) :
    Closing S (trail.emit (.runStopped turns reason)) := emit_uses trivial fun _ => runStopped_closes

theorem finalizeReceipt_closing (hall : ∀ status, S status) (receipt : RunStoppedReceipt) :
    Closing S (finalizeReceipt receipt) :=
  driver_closing (fun _ => complete_closing (hall _) _) fun _ => failOutcome_closing (hall _) _ _

theorem retryReconciledTerminalAudit_closing (hall : ∀ status, S status)
    (replay : RunStoppedAuditReplayEnvelope) : Closing S (retryReconciledTerminalAudit cfg replay) := by
  have hfail := fun error reason =>
    @failOutcome_closing S replay.terminalReceipt.usage (hall .failed) error reason
  refine driver_closing (fun retry => emitted_closing (emit_closing _ _) ?_ fun error => ?_) fun _ => hfail _ _
  · exact driver_closing (fun _ => finalizeReceipt_closing hall _) fun _ => hfail _ _
  · exact fromError_closing _ (driver_closing (fun _ => complete_closing (hall _) _) fun _ => hfail _ _)

theorem durableRunStoppedReplay_quiet (kind : RunStoppedAuditKind) (receipt : RunStoppedReceipt)
    (reason : String) : Quiet (durableRunStoppedReplay trail kind receipt turns reason) := by
  unfold durableRunStoppedReplay
  split
  · trivial
  · exact (prepareEvent_quiet _).bind fun _ => trivial

/-- The record that a replay describes, and what the replay says of it. -/
structure Describes (trail : AuditTrail) (receipt : RunStoppedReceipt) (turns : Nat) (reason : String)
    (replay : RunStoppedAuditReplayEnvelope) (record : AuditRecord) : Prop where
  event : record.event = .runStopped turns reason
  runId : record.runId = trail.runId
  invocationId : record.invocationId = trail.invocationId
  receipt : replay.terminalReceipt = receipt

theorem durableRunStoppedReplay_returns (kind : RunStoppedAuditKind) (receipt : RunStoppedReceipt)
    (reason : String) :
    Returns (fun r => ∀ replay record, r = .ok (replay, record) →
      Describes trail receipt turns reason replay record)
      (durableRunStoppedReplay trail kind receipt turns reason) := by
  unfold durableRunStoppedReplay
  split
  · exact Returns.pure fun _ _ heq => by cases heq
  refine (prepareEvent_returns _).bind fun prepared hprepared => ?_
  cases prepared with
  | error error => exact Returns.pure fun _ _ heq => by cases heq
  | ok record =>
    obtain ⟨hevent, hrun, hinvocation⟩ := hprepared record rfl
    refine Returns.pure fun _ _ heq => ?_
    cases heq
    exact ⟨hevent, hrun, hinvocation, rfl⟩

/-- A terminal audit is described, and then the rest. -/
theorem described_closing {kind : RunStoppedAuditKind} {receipt : RunStoppedReceipt} {f : Except AikitError (RunStoppedAuditReplayEnvelope × AuditRecord) → Program β}
    (herror : ∀ error, Closing S (f (.error error)))
    (hok : ∀ replay record, Describes trail receipt turns reason replay record →
      Closing S (f (.ok (replay, record)))) :
    Closing S (durableRunStoppedReplay trail kind receipt turns reason >>= f) := by
  refine Uses.bind_returns ((durableRunStoppedReplay_quiet _ _ _).closing S)
    (durableRunStoppedReplay_returns kind receipt reason) fun prepared hprepared => ?_
  cases prepared with
  | error error => exact herror error
  | ok prepared => exact hok prepared.1 prepared.2 (hprepared _ _ rfl)

theorem closeByRecovery_closing (hall : ∀ status, S status) (receipt : RunStoppedReceipt)
    (recovery : Option Attempt) (replay : RunStoppedAuditReplayEnvelope) (hrecord : record.event = .runStopped turns reason) :
    Closing S (closeByRecovery cfg fence receipt recovery replay record) := by
  cases recovery with
  | none =>
    exact driver_closing (fun _ => finalizeReceipt_closing hall _) fun _ =>
      failOutcome_closing (hall _) _ _
  | some audit =>
    refine emitted_closing (emitPrepared_uses (runStopped_closes hrecord)) ?_ fun error =>
      fromError_closing _ ?_
    · exact driver_closing (fun _ => finalizeReceipt_closing hall _) fun _ =>
        failOutcome_closing (hall _) _ _
    · exact driver_closing (fun _ => complete_closing (hall _) _) fun _ =>
        fromError_closing _ (complete_closing (hall _) _)

theorem closeSuperseded_closing (hall : ∀ status, S status) (receipt : RunStoppedReceipt) :
    Closing S (closeSuperseded cfg fence turns receipt) := by
  have hfail := fun error reason =>
    @failOutcome_closing S receipt.usage (hall .failed) error reason
  refine driver_closing (fun closed => ?_) fun _ => hfail _ _
  cases closed with
  | true => exact finalizeReceipt_closing hall _
  | false =>
    refine described_closing (fun _ => hfail _ _) fun replay record hrecord => ?_
    refine driver_closing (fun begun => ?_) fun _ => hfail _ _
    cases begun with
    | execute activityId attempt => exact closeByRecovery_closing hall _ _ _ hrecord.event
    | reuseCompleted activityId output => exact closeByRecovery_closing hall _ _ _ hrecord.event

theorem nonexecutingOutcome_closing (hfailed : S .failed) (auditClosed : Bool)
    {disposition : Disposition} (hall : disposition.terminal = true → ∀ status, S status) :
    Closing S (nonexecutingOutcome usage auditClosed disposition) := by
  unfold nonexecutingOutcome
  split
  · exact failOutcome_closing hfailed _ _
  · split
    · trivial
    · split
      · exact complete_closing (hall rfl _) _
      · exact complete_closing hfailed _
  · exact failOutcome_closing hfailed _ _
  · exact failOutcome_closing hfailed _ _

variable {disposition : Disposition}

theorem closeForReason_closing (hfailed : S .failed)
    (hall : disposition.terminal = true → ∀ status, S status) (reason : String) :
    Closing S (closeForReason cfg fence turns usage disposition reason) := by
  have hend := fun auditClosed => @nonexecutingOutcome_closing S usage hfailed auditClosed disposition hall
  refine described_closing (fun _ => failOutcome_closing hfailed _ _) fun replay record hrecord => ?_
  refine emitted_closing (emitPrepared_uses (runStopped_closes hrecord.event)) ?_ fun error =>
    fromError_closing _ ?_
  · exact driver_closing (fun _ => hend _) fun _ => fromError_closing _ (hend _)
  · exact driver_closing (fun _ => hend _) fun _ => fromError_closing _ (hend _)

theorem closeNonexecuting_closing (hfailed : S .failed)
    (hall : disposition.terminal = true → ∀ status, S status) :
    Closing S (closeNonexecuting cfg fence turns usage disposition) := by
  unfold closeNonexecuting
  split
  · trivial
  · exact closeForReason_closing hfailed hall _

/-- **A boundary**: unless the outcome was decided elsewhere, the run has failed. -/
theorem closeAtBoundary_closing (hfailed : S .failed)
    (hall : disposition.terminal = true → ∀ status, S status) :
    Closing S (closeAtBoundary cfg fence turns usage disposition) := by
  unfold closeAtBoundary
  split
  · exact closeSuperseded_closing (hall rfl) _
  · exact closeNonexecuting_closing hfailed hall

theorem emitRunStopped_closing (reason : String) : Closing S (emitRunStopped trail turns reason) :=
  emitted_closing (emit_closing _ _) trivial fun _ => fromError_closing _ trivial

theorem deliverCanonical_closing (hall : ∀ status, S status) (audit : Attempt)
    (replay : RunStoppedAuditReplayEnvelope)
    (hrecord : record.event = .runStopped turns reason) :
    Closing S (deliverCanonical trail fence audit replay record) := by
  have hend : ∀ reason, Closing S (completeAs replay.terminalReceipt.usage reason) :=
    fun reason => complete_closing (hall _) _
  refine emitted_closing (emitPrepared_uses (runStopped_closes hrecord)) ?_ fun error =>
    fromError_closing _ ?_
  · exact driver_closing
      (fun _ => driver_closing (fun _ => hend _) fun _ => fromError_closing _ (hend _)) fun _ =>
        fromError_closing _ (hend _)
  · exact driver_closing (fun _ => hend _) fun _ => fromError_closing _ (hend _)

theorem closeCanonically_closing (hall : ∀ status, S status) {lifecycle : Lifecycle}
    (receipt : RunStoppedReceipt) : Closing S (closeCanonically c lifecycle receipt) := by
  refine described_closing (fun error => ?_) fun replay record hrecord => ?_
  · exact fromError_closing _ ((emitRunStopped_closing _).bind fun _ => complete_closing (hall _) _)
  · refine driver_closing (fun begun => ?_) fun error => ?_
    · cases begun with
      | execute activityId attempt => exact deliverCanonical_closing hall _ _ hrecord.event
      | reuseCompleted activityId output =>
        dsimp only
        split
        · exact closeSuperseded_closing hall _
        · refine fromError_closing _ (emitted_closing (emit_closing _ _) ?_ fun error => ?_)
          · exact complete_closing (hall _) _
          · exact failOutcome_closing (hall _) _ _
    · refine ((resolveDurableActivityBoundary_quiet _ _).closing S).bind fun resolved => ?_
      cases resolved with
      | ok disposition => exact closeAtBoundary_closing (hall _) fun _ => hall
      | error error => exact fromError_closing _ (complete_closing (hall _) _)

theorem closeInvocation_closing (hall : ∀ status, S status) (receipt : RunStoppedReceipt) :
    Closing S (closeInvocation c receipt) := by
  have hplain : ∀ reason, Closing S (do
      let reason ← emitRunStopped c.trail receipt.turns reason
      completeAs receipt.usage reason) :=
    fun reason => (emitRunStopped_closing _).bind fun _ => complete_closing (hall _) _
  unfold closeInvocation
  split
  · split
    · exact failOutcome_closing (hall _) _ _
    · refine .call trivial fun poisoned => .call trivial fun status => .ite (hplain _) ?_
      exact closeCanonically_closing hall receipt
  · exact hplain _

/-! ### The ends of a run -/

theorem endUnstarted_closing (hfailed : S .failed)
    (hall : disposition.terminal = true → ∀ status, S status) : Closing S (endUnstarted cfg disposition) := by
  unfold endUnstarted
  split
  · trivial
  · split
    · exact retryReconciledTerminalAudit_closing (hall rfl) _
    · exact failOutcome_closing hfailed _ _
  · exact failOutcome_closing hfailed _ _
  · exact failOutcome_closing hfailed _ _
  · split
    · trivial
    · exact complete_closing (hall rfl _) _
  · split
    · exact finalizeReceipt_closing (hall rfl) _
    · exact failOutcome_closing hfailed _ _

theorem unstartedOutcome_closing (hfailed : S .failed) (disposition : Disposition) :
    Closing S (unstartedOutcome disposition) := by
  unfold unstartedOutcome
  split
  · trivial
  · exact failOutcome_closing hfailed _ _

theorem closeUnstarted_closing (hfailed : S .failed)
    (hall : disposition.terminal = true → ∀ status, S status) : Closing S (closeUnstarted fence disposition) := by
  unfold closeUnstarted
  split
  · exact driver_closing (fun _ => finalizeReceipt_closing (hall rfl) _) fun _ =>
      failOutcome_closing hfailed _ _
  · exact driver_closing (fun _ => unstartedOutcome_closing hfailed _) fun _ =>
      failOutcome_closing hfailed _ _

variable {lifecycle : Option Lifecycle}

theorem reportEnd_quiet (reason : String) (emitted : Bool) : Quiet (reportEnd cfg turns reason emitted) := by
  unfold reportEnd
  split
  · exact (terminalFailure_quiet _ _ _).bind fun _ => (yieldError_quiet _ _).bind fun _ => trivial
  split
  · exact (fromError_quiet _).bind fun _ => trivial
  · trivial

theorem clearPermissions_quiet (reason : String) : Quiet (clearPermissions cfg reason) := by
  refine .call trivial fun cleared => ?_
  cases cleared with
  | ok _ => trivial
  | error error => exact (fromError_quiet _).bind fun _ => trivial

theorem runStopHooks_quiet (reason : String) : Quiet (runStopHooks cfg turns reason usage) := by
  refine .call trivial fun stopped => ?_
  cases stopped with
  | ok _ => trivial
  | error error => exact (fromError_quiet _).bind fun _ => trivial

theorem finishRun_closing (hall : ∀ status, S status) (reason : String) (emitted : Bool) :
    Closing S (finishRun cfg lifecycle turn usage reason emitted) :=
  ((reportEnd_quiet _ _).closing S).bind fun _ => ((clearPermissions_quiet _).closing S).bind fun _ =>
    ((runStopHooks_quiet _).closing S).bind fun _ => closeInvocation_closing hall _

/-- **The end of a run**. -/
theorem closeRun_closing (hall : ∀ status, S status) (exit : Exit) :
    Closing S (closeRun cfg lifecycle exit) := by
  unfold closeRun
  split
  · exact finishRun_closing hall _ _
  · split
    · exact failOutcome_closing (hall _) _ _
    · exact closeAtBoundary_closing (hall _) fun _ => hall

end

end AikitRuntime.Agent
