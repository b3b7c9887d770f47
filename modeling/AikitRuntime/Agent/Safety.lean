import AikitRuntime.Agent.Watch

/-!
# No tool without an authorization

Every part of the loop, from the first record to the last call of a turn, in the eyes of its
observer. A part that goes on has kept what was seen, but for what it is there for; a part
that leaves the loop has a reason which is explained, and says so by quiet operations only.
-/

namespace AikitRuntime.Agent

open Library Durability Streaming Governance

variable [JsonSchema]

/-! ### Parts that keep what was seen -/

section

variable {cfg : RunConfig} {trail : AuditTrail} {w : Watch} {α β ε : Type} {reason : String}

/-- If it succeeds, the program keeps what was seen. In any case nothing is lost. -/
abbrev Succeeds (cfg : RunConfig) (p : Program (Except ε α)) (w : Watch) : Prop :=
  Holds (watch cfg) (fun r w' => w.Grows w' ∧ ∀ a, r = .ok a → w' = w) p w

/-- If it goes on, this part of the loop keeps what was seen. -/
abbrev Keeps (cfg : RunConfig) (x : Flow α) (w : Watch) : Prop :=
  Passes (watch cfg) (fun _ w' => w' = w) (Left cfg) x w

variable {f : α → Flow β}

theorem Keeps.next {Q : β → Watch → Prop} {x : Flow α} (h : Keeps cfg x w)
    (hf : ∀ a, Passes (watch cfg) Q (Left cfg) (f a) w) :
    Passes (watch cfg) Q (Left cfg) (x >>= f) w := by
  refine h.bind fun a w' heq => ?_
  subst heq
  exact hf a

variable {p : Program α}

/-- A program of the end of a run is allowed where its outcomes are explained. -/
theorem Closing.holds {S : RunTerminalStatus → Prop} (h : Closing S p)
    (hS : ∀ w', w.Grows w' → ∀ status, S status →
      w'.recovered = true ∨ w'.Mimicked ∨ w'.Explains cfg status) :
    Holds (watch cfg) (fun _ w' => w.Grows w') p w := by
  refine Uses.holds (I := fun w' => w.Grows w') h (fun w' op hgrows hop => ⟨?_, fun answer _ => ?_⟩)
    (.refl w)
  · cases op with
    | execute name input => exact hop.elim
    | record entry =>
      cases entry with
      | complete usage status reason => exact hS w' hgrows status hop
      | _ => trivial
    | _ => trivial
  · exact hgrows.trans (w'.grows_step hop answer)

/-- A quiet program is allowed, and loses nothing. -/
theorem Quiet.holds (h : Quiet p) : Holds (watch cfg) (fun _ w' => w.Grows w') p w :=
  (h.closing fun _ => False).holds fun _ _ _ => False.elim

/-- A quiet program, and then the rest. -/
theorem Quiet.next {Q : β → Watch → Prop} (h : Quiet p)
    (hf : ∀ a w', w.Grows w' → Passes (watch cfg) Q (Left cfg) (f a) w') :
    Passes (watch cfg) Q (Left cfg) (liftM p >>= f) w :=
  Passes.bind (Passes.lift h.holds) hf

/-- What was seen when a prepared record is accepted, or its rejection is not an error. -/
theorem emitPrepared_holds (hmode : trail.failureMode = cfg.audit.failureMode) (record : AuditRecord) :
    Holds (watch cfg) (fun r w' => ∀ a, r = .ok a → w' = w.deliver record false)
      (trail.emitPrepared record) w := by
  unfold AuditTrail.emitPrepared
  split
  · rintro _ ⟨⟩
  refine Holds.perform_bind trivial fun rejection _ => ?_
  cases rejection with
  | none => exact fun _ _ => rfl
  | some error =>
    show Holds (watch cfg) _ (if _ then _ else _) _
    split
    next => rintro _ ⟨⟩
    next hbest =>
      refine fun _ _ => ?_
      show w.deliver _ (true && decide (cfg.audit.failureMode = .failClosed)) = _
      rw [← hmode, decide_eq_false hbest]
      rfl

/-- What was seen when a record is accepted, or its rejection is not an error. -/
theorem emit_holds (hmode : trail.failureMode = cfg.audit.failureMode) (event : AuditEvent) :
    Holds (watch cfg) (fun r w' => ∀ a, r = .ok a → ∃ record : AuditRecord, record.event = event ∧
      w' = w.deliver record false) (trail.emit event) w := by
  unfold AuditTrail.emit AuditTrail.prepareEvent
  split
  · rintro _ ⟨⟩
  refine Holds.perform_bind trivial fun sequence _ => ?_
  exact (emitPrepared_holds hmode ⟨trail.runId, trail.invocationId, sequence, event⟩).mono
    fun r w' h a ha => ⟨_, rfl, h a ha⟩

variable {event : AuditEvent}

theorem emit_succeeds (hmode : trail.failureMode = cfg.audit.failureMode)
    (hevent : event.Plain) : Succeeds cfg (trail.emit event) w := by
  have hcontinues : Watch.Continues event := by
    cases event with
    | requestStarted turn model messageCount toolCount => exact hevent.elim
    | _ => trivial
  refine Holds.mono ((emit_quiet hevent).holds.and (emit_holds hmode event)) fun r w' h => ⟨h.1, fun a ha => ?_⟩
  obtain ⟨record, rfl, rfl⟩ := h.2 a ha
  rw [Watch.deliver_eq_haltIf hcontinues, Watch.haltIf_false]

/-! ### Leaving the loop -/

variable {Q : α → Watch → Prop}

theorem stopWith_passes (h : w.Accounts cfg reason) :
    Passes (watch cfg) Q (Left cfg) (stopWith reason) w := Passes.throw h

/-- Show an error, and leave the loop. -/
theorem yieldStop_passes (h : w.Lasts cfg reason) (message : String) (info : ErrorInfo) :
    Passes (watch cfg) Q (Left cfg) (do liftM (yieldDelta (.error message info)); stopWith reason) w :=
  (yieldError_quiet message info).next fun _ _ hgrows => stopWith_passes (h.grows hgrows).accounts

/-- Show an error, and leave the loop with a reason that says that the run failed. -/
theorem failStop_passes (h : recordedTerminalStatus reason = .failed) (error : AikitError) :
    Passes (watch cfg) Q (Left cfg) (do liftM (yieldDelta (fromError error)); stopWith reason) w :=
  yieldStop_passes (.of_failed h) _ _

theorem stopShowing_passes (h : w.Lasts cfg reason) (error : Option AikitError) :
    Passes (watch cfg) Q (Left cfg) (stopShowing error reason) w := by
  cases error with
  | none => exact stopWith_passes h.accounts
  | some error => exact yieldStop_passes h _ _

theorem stopAfterFailing_passes (h : w.Lasts cfg reason) (attempt : Option Attempt) (why : String)
    (ambiguous : Bool) (error : Option AikitError) :
    Passes (watch cfg) Q (Left cfg) (stopAfterFailing reason attempt why ambiguous error) w := by
  refine (failAttempt_quiet attempt why ambiguous).next fun failed w' hgrows => ?_
  cases failed with
  | ok _ => exact stopShowing_passes (h.grows hgrows) error
  | error commitError =>
    exact (fromError_quiet _).next fun _ _ _ => stopShowing_passes (.of_failed (by decide)) error

theorem resolveDurableActivityBoundary_holds (error : DriverError) (active : Option String) :
    Holds (watch cfg) (fun r w' => w.Grows w' ∧ ∀ disposition, r = .ok disposition →
      Left cfg (.boundary disposition) w') (resolveDurableActivityBoundary error active) w := by
  refine Holds.and (resolveDurableActivityBoundary_quiet error active).holds ?_
  unfold resolveDurableActivityBoundary
  split
  · exact Holds.pure fun _ heq => by cases heq
  refine Holds.perform_bind trivial fun answer _ => ?_
  have hseen : ∀ disposition : Disposition, Left cfg (.boundary disposition)
      (w.recoverIf disposition.terminal) := by
    intro disposition hterminal
    show (w.recovered || disposition.terminal) = true
    rw [hterminal, Bool.or_true]
  cases answer with
  | error error => exact Holds.pure fun _ heq => by cases heq
  | ok disposition =>
    have hresolved := hseen disposition
    cases disposition with
    | execute => exact Holds.pure fun _ heq => by cases heq
    | _ =>
      refine Holds.pure fun _ heq => ?_
      cases heq
      exact hresolved

theorem stopAtBoundary_passes (error : DriverError) (active : Option String) :
    Passes (watch cfg) Q (Left cfg) (stopAtBoundary error active) w := by
  refine Passes.bind (Passes.lift (resolveDurableActivityBoundary_holds error active)) fun resolved w' h => ?_
  cases resolved with
  | ok disposition => exact Passes.throw (h.2 disposition rfl)
  | error error => exact failStop_passes (by decide) _

/-- A failure that ends the run: its reason stays explained. -/
theorem terminalFailure_holds (h : w.Lasts cfg reason) (ctx : FailureContext) (info : ErrorInfo) :
    Holds (watch cfg) (fun failure w' => w.Grows w' ∧ w'.Lasts cfg failure.reason)
      (terminalFailure trail ctx info reason) w := by
  refine Holds.mono ((terminalFailure_quiet ctx info reason).holds.and_returns (P := fun failure =>
    failure.reason = reason ∨ failure.reason = "audit_failure") ?_) fun failure w' hfailure => ?_
  · refine Returns.bind (P := fun _ => True) ?_ fun failure _ => Returns.pure ?_
    · exact fun _ => Returns.trivial _
    · show (if _ then _ else _) = _ ∨ _
      split
      · exact .inr rfl
      · exact .inl rfl
  · obtain ⟨hgrows, heq | heq⟩ := hfailure
    · exact ⟨hgrows, heq ▸ h.grows hgrows⟩
    · exact ⟨hgrows, .of_failed (heq ▸ by decide)⟩

theorem stopWithFailure_passes (h : w.Lasts cfg reason) (ctx : FailureContext) (info : ErrorInfo)
    (emitted : Bool) :
    Passes (watch cfg) Q (Left cfg) (stopWithFailure trail ctx info reason emitted) w := by
  refine Passes.bind (Passes.lift (terminalFailure_holds h ctx info)) fun failure w' hfailure => ?_
  exact (yieldError_quiet _ _).next fun _ _ hgrows => Passes.throw (hfailure.2.grows hgrows).accounts

theorem stopIfTerminated_keeps : Keeps cfg stopIfTerminated w := by
  refine Passes.perform_bind trivial fun trigger _ => ?_
  cases trigger with
  | none => exact Passes.pure rfl
  | some trigger => exact stopWith_passes (w.lasts_trip trigger).accounts

theorem emitOrStop_keeps (hmode : trail.failureMode = cfg.audit.failureMode)
    (hevent : event.Plain) : Keeps cfg (emitOrStop trail event) w := by
  refine Passes.bind (Passes.lift (emit_succeeds hmode hevent)) fun emitted w' h => ?_
  cases emitted with
  | ok _ => exact Passes.pure (h.2 _ rfl)
  | error error => exact failStop_passes (by decide) _

theorem runFailureHooks_holds (hmode : trail.failureMode = cfg.audit.failureMode)
    (ctx : FailureContext) (terminal : Bool) :
    Holds (watch cfg) (fun r w' => r.auditError = none → w' = w) (runFailureHooks trail ctx terminal)
      w := by
  refine Holds.perform_bind trivial fun error _ => ?_
  have hplain : (AuditEvent.failure ctx.turn ctx.stage.asStr ctx.tool error terminal).Plain := trivial
  refine Holds.bind (emit_succeeds hmode hplain) fun emitted w' h => ?_
  cases emitted with
  | ok _ => exact Holds.pure fun _ => h.2 _ rfl
  | error error => exact Holds.pure fun hnone => by cases hnone

end

/-! ### One call -/

section

variable {c : RunContext} {turn : Nat} {w : Watch}

theorem failureMessage_keeps (ctx : FailureContext) (terminal : Bool) :
    Keeps c.cfg (failureMessage c.trail ctx terminal) w := by
  refine Passes.bind (Passes.lift (runFailureHooks_holds rfl ctx terminal)) fun failure w' h => ?_
  obtain ⟨message, auditError⟩ := failure
  cases auditError with
  | none => exact Passes.pure (h rfl)
  | some error => exact failStop_passes (by decide) _

theorem chargeResult_keeps (retained : RetainedRunBudget) (id content : String) :
    Keeps c.cfg (chargeResult retained id content) w := by
  unfold chargeResult
  split
  · exact Passes.pure rfl
  · exact yieldStop_passes (.of_failed (by decide)) _ _

theorem yieldResult_keeps (call : ToolCall) (content : String) (isError : Bool) :
    Keeps c.cfg (yieldResult call content isError) w :=
  Passes.perform_bind trivial fun _ _ => Passes.pure rfl

theorem rejectToolInput_keeps (call : ToolCall) (input : Value) (reason source : String) :
    Keeps c.cfg (rejectToolInput c turn call input reason source) w :=
  (failureMessage_keeps _ _).next fun _ => (emitOrStop_keeps rfl (by trivial)).next fun _ => Passes.pure rfl

theorem denyUnadvertised_keeps (call : ToolCall) (retained : RetainedRunBudget) :
    Keeps c.cfg (denyUnadvertised c turn call retained) w :=
  (failureMessage_keeps _ _).next fun _ => (chargeResult_keeps _ _ _).next fun _ =>
    (emitOrStop_keeps rfl (by trivial)).next fun _ => (yieldResult_keeps _ _ _).next fun _ => Passes.pure rfl

theorem rejectProposed_keeps (call : ToolCall) (reason : String) (retained : RetainedRunBudget) :
    Keeps c.cfg (rejectProposed c turn call reason retained) w :=
  (rejectToolInput_keeps _ _ _ _).next fun _ => (chargeResult_keeps _ _ _).next fun _ =>
    (yieldResult_keeps _ _ _).next fun _ => Passes.pure rfl

theorem postProcess_keeps (call : ToolCall) (effective : Value) (attempt : Option Attempt)
    (rawOutput : String) : Keeps c.cfg (postProcess c turn call effective attempt rawOutput) w := by
  refine Passes.perform_bind trivial fun durationMs _ => Passes.perform_bind trivial fun post _ => ?_
  cases post with
  | error trigger => exact stopAfterFailing_passes (w.lasts_trip trigger) _ _ _ _
  | ok post =>
    refine Passes.bind (Passes.lift (emit_succeeds rfl trivial)) fun emitted w' h => ?_
    cases emitted with
    | error error => exact stopAfterFailing_passes (.of_failed (by decide)) _ _ _ _
    | ok _ =>
      obtain rfl := h.2 _ rfl
      cases post with
      | «continue» => exact Passes.pure rfl
      | rewriteOutput output => exact Passes.pure rfl
      | markError error =>
        refine Passes.bind (Passes.lift (runFailureHooks_holds rfl _ _)) fun failure w'' h => ?_
        obtain ⟨message, auditError⟩ := failure
        cases auditError with
        | none => exact Passes.pure (h rfl)
        | some error => exact stopAfterFailing_passes (.of_failed (by decide)) _ _ _ _

theorem toolFailed_keeps (call : ToolCall) (attempt : Option Attempt) (error : AikitError) :
    Keeps c.cfg (toolFailed c turn call attempt error) w := by
  cases attempt with
  | none => exact (failureMessage_keeps _ _).next fun _ => Passes.pure rfl
  | some attempt =>
    refine Passes.perform_bind trivial fun failed _ => ?_
    cases failed with
    | error commitError => exact failStop_passes (by decide) _
    | ok _ => exact failStop_passes (by decide) _

theorem auditCompleted_keeps (call : ToolCall) (ran isError : Bool) (content : String) :
    Keeps c.cfg (auditCompleted c turn call ran isError content) w := by
  unfold auditCompleted
  split
  · exact emitOrStop_keeps rfl trivial
  · exact Passes.pure rfl

theorem finishCall_keeps (call : ToolCall) (outcome : CallOutcome) (retained : RetainedRunBudget) :
    Keeps c.cfg (finishCall c turn call outcome retained) w :=
  (chargeResult_keeps _ _ _).next fun _ => (auditCompleted_keeps _ _ _ _).next fun _ =>
    (yieldResult_keeps _ _ _).next fun _ => Passes.pure rfl

variable [ActivityCodec]

theorem commitToolActivity_keeps (attempt : Option Attempt) (result : String × Bool) :
    Keeps c.cfg (commitToolActivity attempt result) w := by
  cases attempt with
  | none => exact Passes.pure rfl
  | some attempt =>
    unfold commitToolActivity
    dsimp only
    split
    · exact stopAfterFailing_passes (.of_failed (by decide)) _ _ _ _
    · refine Passes.perform_bind trivial fun completed _ => ?_
      cases completed with
      | ok _ => exact Passes.pure rfl
      | error error => exact failStop_passes (by decide) _

theorem beginToolActivity_keeps (call : ToolCall) (effective : Value) :
    Keeps c.cfg (beginToolActivity c turn call effective) w := by
  unfold beginToolActivity
  split
  · exact Passes.pure rfl
  refine Passes.perform_bind trivial fun begun _ => ?_
  cases begun with
  | error error => exact stopAtBoundary_passes _ _
  | ok activity =>
    cases activity with
    | execute activityId attempt => exact Passes.pure rfl
    | reuseCompleted activityId output =>
      dsimp only
      split
      · exact Passes.pure rfl
      · exact failStop_passes (by decide) _

/-! ### Execution -/

/-- The run has started: its tools are compiled, and its records have a sink where they need one. -/
structure Started (c : RunContext) : Prop where
  compiled : Compiled c.cfg.tools c.validators
  audited : c.cfg.audit.Audited

/-- The turn is ready for these calls, after those that are done. -/
structure Ready (c : RunContext) (turn : Nat) (done todo : List ToolCall) (w : Watch) : Prop where
  running : w.halted = false
  complete : w.complete = true
  faultless : Faultless w.polled
  proposed : proposals w.polled = (done ++ todo).map ToolCall.proposal
  atTurn : w.turn = turn
  within : turn ≤ c.cfg.maxTurns
  executed : (w.executed.map proposalOf).Sublist (done.map ToolCall.proposal)

namespace Ready

variable {done todo : List ToolCall} {call : ToolCall}

omit [JsonSchema] [ActivityCodec] in
/-- A call that is not executed is done. -/
theorem skip (h : Ready c turn done (call :: todo) w) : Ready c turn (done ++ [call]) todo w where
  running := h.running
  complete := h.complete
  faultless := h.faultless
  proposed := by rw [h.proposed, List.append_assoc, List.singleton_append]
  atTurn := h.atTurn
  within := h.within
  executed := by
    rw [List.map_append]
    exact h.executed.trans (List.sublist_append_left _ _)

omit [JsonSchema] [ActivityCodec] in
theorem grant (h : Ready c turn done todo w) (granted : Option (AuthorizationContext × Value)) :
    Ready c turn done todo { w with granted } := ⟨h.1, h.2, h.3, h.4, h.5, h.6, h.7⟩

omit [JsonSchema] [ActivityCodec] in
/-- With one more call, those that were executed are still among the calls, in their order. -/
theorem sublist (h : Ready c turn done (call :: todo) w) {ctx : AuthorizationContext}
    (hctx : proposalOf ctx = call.proposal) :
    ((w.executed ++ [ctx]).map proposalOf).Sublist ((done ++ [call]).map ToolCall.proposal) := by
  rw [List.map_append, List.map_append]
  refine h.executed.append ?_
  simp [hctx]

omit [ActivityCodec] in
/-- **Permission**: a call of the turn that is authorized, with inputs that fit. -/
theorem permits (h : Ready c turn done (call :: todo) w) (hstarted : Started c)
    {ctx : AuthorizationContext} {input : Value} (hgranted : w.granted = some (ctx, input)) (hctx : proposalOf ctx = call.proposal)
    (hturn : ctx.turn = turn) (hfits : FitsSchema c.cfg.tools call.name call.input input) :
    w.Permits c.cfg call.name input where
  running := h.running
  complete := h.complete
  faultless := h.faultless
  inputs := by
    rw [h.proposed]
    intro pending hmem
    obtain ⟨call', -, rfl⟩ := List.mem_map.mp hmem
    rfl
  within := h.atTurn ▸ h.within
  audited := hstarted.audited
  granted := by
    have hname : ctx.tool = call.name := congrArg PendingToolCall.name hctx
    have hinput : ctx.input = call.input := Option.some.inj (congrArg PendingToolCall.input hctx)
    refine ⟨ctx, hgranted, hname, hturn.trans h.atTurn.symm, ?_, hinput ▸ hfits⟩
    rw [h.skip.proposed]
    exact (h.sublist hctx).trans ((List.sublist_append_left _ _).map _)

omit [JsonSchema] [ActivityCodec] in
/-- The call is executed. -/
theorem execute (h : Ready c turn done (call :: todo) w) {ctx : AuthorizationContext} {input : Value}
    (hgranted : w.granted = some (ctx, input)) (hctx : proposalOf ctx = call.proposal) :
    Ready c turn (done ++ [call]) todo w.spend where
  running := h.running
  complete := h.complete
  faultless := h.faultless
  proposed := h.skip.proposed
  atTurn := h.atTurn
  within := h.within
  executed := by
    unfold Watch.spend
    rw [hgranted]
    exact h.sublist hctx

end Ready

omit [ActivityCodec] in
theorem afterExecution_keeps (call : ToolCall) (effective : Value) (attempt : Option Attempt)
    (result : Except AikitError String) :
    Keeps c.cfg (afterExecution c turn call effective attempt (.ok result)) w := by
  cases result with
  | ok output => exact postProcess_keeps _ _ _ _
  | error error => exact toolFailed_keeps _ _ _

variable {done todo : List ToolCall} {call : ToolCall} {ctx : AuthorizationContext} {input : Value}

/-- **Execution**: the tool is called where it is permitted, and once. -/
theorem execute_passes (h : Ready c turn done (call :: todo) w) (hstarted : Started c)
    (hgranted : w.granted = some (ctx, input)) (hctx : proposalOf ctx = call.proposal)
    (hturn : ctx.turn = turn) (hfits : FitsSchema c.cfg.tools call.name call.input input)
    (attempt : Option Attempt) :
    Passes (watch c.cfg) (fun _ w' => Ready c turn (done ++ [call]) todo w') (Left c.cfg)
      (execute c turn call input attempt) w := by
  refine Passes.perform_bind trivial fun trigger _ => ?_
  cases trigger with
  | some trigger => exact stopAfterFailing_passes (w.lasts_trip trigger) _ _ _ _
  | none =>
    refine Passes.perform_bind (h.permits hstarted hgranted hctx hturn hfits) fun execution _ => ?_
    cases execution with
    | error trigger =>
      have hstop : Passes (watch c.cfg) (fun _ _ => False) (Left c.cfg)
          (afterExecution c turn call input attempt (.error trigger)) (w.spend.trip (some trigger)) :=
        stopAfterFailing_passes (w.spend.lasts_trip trigger) _ _ _ _
      exact hstop.bind fun _ _ => False.elim
    | ok result =>
      exact (afterExecution_keeps _ _ _ _).next fun outcome =>
        (commitToolActivity_keeps _ _).next fun _ => Passes.pure (h.execute hgranted hctx)

theorem runAllowed_passes (h : Ready c turn done (call :: todo) w) (hstarted : Started c)
    (hgranted : w.granted = some (ctx, input)) (hctx : proposalOf ctx = call.proposal)
    (hturn : ctx.turn = turn) (hfits : FitsSchema c.cfg.tools call.name call.input input)
    (report : AuthorizationReport) :
    Passes (watch c.cfg) (fun _ w' => Ready c turn (done ++ [call]) todo w') (Left c.cfg)
      (runAllowed c turn call input report) w := by
  refine (emitOrStop_keeps rfl (by trivial)).next fun _ => (beginToolActivity_keeps _ _).next fun begun => ?_
  obtain ⟨attempt, reused⟩ := begun
  refine Passes.bind (Passes.lift (emit_succeeds rfl trivial)) fun emitted w' heq => ?_
  cases emitted with
  | error error =>
    refine (failAttempt_quiet _ _ _).next fun failed w'' _ => ?_
    cases failed with
    | ok _ => exact failStop_passes (by decide) _
    | error commitError => exact (fromError_quiet _).next fun _ _ _ => failStop_passes (by decide) _
  | ok _ =>
    obtain rfl := heq.2 _ rfl
    cases reused with
    | some output => exact Passes.pure h.skip
    | none =>
      refine Passes.bind (execute_passes h hstarted hgranted hctx hturn hfits attempt) fun outcome w'' hdone => ?_
      exact Passes.pure hdone

theorem applyAuthorization_passes {validator : Value → Except String Unit} {report : AuthorizationReport}
    (h : Ready c turn done (call :: todo) w)
    (hgranted : w.granted = (Watch.allowedInput report).map fun input => (ctx, input))
    (hctx : proposalOf ctx = call.proposal) (hturn : ctx.turn = turn)
    (hstarted : Started c)
    (hvalidator : c.validators.lookup call.name = some validator)
    (hproposed : validateToolInput call.name validator call.input = .ok ()) :
    Passes (watch c.cfg) (fun _ w' => Ready c turn (done ++ [call]) todo w') (Left c.cfg)
      (applyAuthorization c turn call validator report) w := by
  unfold applyAuthorization
  cases hreport : report.authorization with
  | denied reason interrupt =>
    exact (failureMessage_keeps _ _).next fun _ => (emitOrStop_keeps rfl (by trivial)).next fun _ =>
      Passes.pure h.skip
  | allowed input =>
    refine stopIfTerminated_keeps.next fun _ => ?_
    cases hfinal : validateToolInput call.name validator input with
    | error reason =>
      exact (rejectToolInput_keeps _ _ _ _).next fun _ => Passes.pure h.skip
    | ok _ =>
      have hallowed : w.granted = some (ctx, input) := by
        rw [hgranted, Watch.allowedInput, hreport]
        rfl
      obtain ⟨tool, hmem, hname, hcompile⟩ := hstarted.compiled _ _ (lookup_mem hvalidator)
      refine runAllowed_passes h hstarted hallowed hctx hturn ⟨tool, hmem, hname, validator, hcompile, ?_, ?_⟩ report
      · exact validateToolInput_eq_ok.mp hproposed
      · exact validateToolInput_eq_ok.mp hfinal

theorem authorizeCall_passes {validator : Value → Except String Unit}
    (h : Ready c turn done (call :: todo) w) (hstarted : Started c)
    (hvalidator : c.validators.lookup call.name = some validator)
    (hproposed : validateToolInput call.name validator call.input = .ok ()) :
    Passes (watch c.cfg) (fun _ w' => Ready c turn (done ++ [call]) todo w') (Left c.cfg)
      (authorizeCall c turn call validator) w := by
  refine Passes.perform_bind trivial fun answer _ => ?_
  cases answer with
  | error trigger => exact stopWith_passes (Watch.lasts_trip _ trigger).accounts
  | ok report =>
    refine stopIfTerminated_keeps.next fun _ => (emitOrStop_keeps rfl (by trivial)).next fun _ => ?_
    cases hinterrupt : report.interrupt with
    | true =>
      rw [if_pos rfl]
      refine (failureMessage_keeps _ _).next fun _ => (emitOrStop_keeps rfl (by trivial)).next fun _ =>
        yieldStop_passes ?_ _ _
      exact Watch.lasts_interrupt _ hinterrupt
    | false =>
      rw [if_neg (by simp)]
      refine @applyAuthorization_passes _ c turn _ _ done todo call
        ⟨c.runId, turn, call.id, call.name, call.input⟩ _ _ ?_ rfl rfl rfl hstarted hvalidator hproposed
      show Ready c turn done (call :: todo) (Watch.interruptIf _ report.interrupt)
      rw [hinterrupt, Watch.interruptIf_false]
      exact h.grant _

/-- **One call**: from what has been done to one call more. -/
theorem runCall_passes (h : Ready c turn done (call :: todo) w)
    (hstarted : Started c) (retained : RetainedRunBudget) :
    Passes (watch c.cfg) (fun _ w' => Ready c turn (done ++ [call]) todo w') (Left c.cfg)
      (runCall c turn call retained) w := by
  refine stopIfTerminated_keeps.next fun _ => ?_
  cases hvalidator : c.validators.lookup call.name with
  | none => exact (denyUnadvertised_keeps _ _).mono fun _ _ heq => heq ▸ h.skip
  | some validator =>
    cases hproposed : validateToolInput call.name validator call.input with
    | error reason =>
      dsimp only
      rw [hproposed]
      exact (rejectProposed_keeps _ _ _).mono fun _ _ heq => heq ▸ h.skip
    | ok _ =>
      dsimp only
      rw [hproposed]
      refine Passes.bind (authorizeCall_passes h hstarted hvalidator hproposed) fun outcome w' hdone => ?_
      exact (finishCall_keeps _ _ _).mono fun _ _ heq => heq ▸ hdone

/-- **The calls of a turn**, one after the other. -/
theorem runCalls_passes (h : Ready c turn done todo w) (hstarted : Started c)
    (retained : RetainedRunBudget) :
    Passes (watch c.cfg) (fun _ w' => Ready c turn (done ++ todo) [] w') (Left c.cfg) (runCalls c turn todo retained)
      w := by
  induction todo generalizing done retained w with
  | nil =>
    refine Passes.pure ?_
    rw [List.append_nil]
    exact h
  | cons call todo ih =>
    refine Passes.bind (runCall_passes h hstarted retained) fun result w' hcall => ?_
    refine Passes.bind (ih hcall result.2) fun results w'' hcalls => Passes.pure ?_
    rw [List.append_assoc] at hcalls
    exact hcalls

end

end AikitRuntime.Agent
