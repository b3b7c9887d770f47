import AikitRuntime.Agent.Frames

/-!
# What happens between the two ends of a run

The parts that are not quiet execute tools, await deltas, show what they give and begin
turns. But they neither begin nor end the run, and they have no part in a terminal audit: such
a part is `Works`, from the first turn to the last.
-/

namespace AikitRuntime.Agent

open Library Durability Streaming Governance

/-- The event neither begins nor ends a run. -/
def AuditEvent.Inner : AuditEvent → Prop
  | .runStarted _ | .runStopped _ _ => False
  | _ => True

/-- The run neither begins nor ends, and no terminal audit is done. -/
def Op.Works : Op → Prop
  | .deliver audited => audited.event.Inner
  | .driver call => call.Plain
  | _ => True

theorem Op.Plain.works {op : Op} (h : op.Plain) : op.Works := by
  cases op with
  | deliver record =>
    obtain ⟨runId, invocationId, sequence, event⟩ := record
    cases event with
    | runStarted model => exact h.elim
    | runStopped turns reason => exact h.elim
    | _ => trivial
  | driver call => exact h
  | _ => trivial

/-- A part of the loop that works. -/
abbrev Works {α : Type} (c : RunContext) (x : Flow α) : Prop := Part Op.Works c.cfg.durable x

section

variable {c : RunContext} {turn : Nat} {α : Type}

theorem Quiet.works {p : Program α} (h : Quiet p) : Numbered Op.Works p := h.mono fun _ hop => hop.works

theorem Part.works {x : Flow α} (h : Part Op.Plain c.cfg.durable x) : Works c x :=
  Part.mono h fun _ hop => hop.works

theorem emit_works {trail : AuditTrail} {event : AuditEvent} (h : event.Inner) :
    Numbered Op.Works (trail.emit event) :=
  emit_numbered trivial fun record heq => by
    show record.event.Inner
    rw [heq]
    exact h

theorem emitOrStop_works {event : AuditEvent} (h : event.Inner) : Works c (emitOrStop c.trail event) := by
  refine .lift (emit_works h) fun emitted => ?_
  cases emitted with
  | ok _ => exact .pure _
  | error error => exact .works (yieldStop_quiet _ _)

theorem failureMessage_works (ctx : FailureContext) (terminal : Bool) :
    Works c (failureMessage c.trail ctx terminal) := by
  refine .lift (runFailureHooks_quiet ctx terminal).works fun failure => ?_
  cases failure.auditError with
  | none => exact .pure _
  | some error => exact .works (yieldStop_quiet _ _)

theorem chargeResult_works (retained : RetainedRunBudget) (id content : String) :
    Works c (chargeResult retained id content) := by
  unfold chargeResult
  split
  · exact .pure _
  · exact .lift (yieldError_quiet _ _).works fun _ => .stop _ _

theorem yieldResult_works (call : ToolCall) (content : String) (isError : Bool) :
    Works c (yieldResult call content isError) := .call trivial fun _ => .pure _

theorem rejectToolInput_works (call : ToolCall) (input : Value) (reason source : String) :
    Works c (rejectToolInput c turn call input reason source) :=
  (failureMessage_works _ _).bind fun _ => (emitOrStop_works (by trivial)).bind fun _ => .pure _

theorem denyUnadvertised_works (call : ToolCall) (retained : RetainedRunBudget) :
    Works c (denyUnadvertised c turn call retained) :=
  (failureMessage_works _ _).bind fun _ => (chargeResult_works _ _ _).bind fun _ =>
    (emitOrStop_works (by trivial)).bind fun _ => (yieldResult_works _ _ _).bind fun _ => .pure _

theorem rejectProposed_works (call : ToolCall) (reason : String) (retained : RetainedRunBudget) :
    Works c (rejectProposed c turn call reason retained) :=
  (rejectToolInput_works _ _ _ _).bind fun _ => (chargeResult_works _ _ _).bind fun _ =>
    (yieldResult_works _ _ _).bind fun _ => .pure _

/-! ### Execution -/

theorem stopAfterFailing_works (reason : String) (attempt : Option Attempt) (why : String)
    (ambiguous : Bool) (error : Option AikitError) :
    Works c (stopAfterFailing reason attempt why ambiguous error : Flow α) :=
  .works (stopAfterFailing_quiet _ _ _ _ _)

theorem postProcess_works (call : ToolCall) (effective : Value) (attempt : Option Attempt)
    (rawOutput : String) : Works c (postProcess c turn call effective attempt rawOutput) := by
  refine .call trivial fun durationMs => .call trivial fun post => ?_
  cases post with
  | error trigger => exact stopAfterFailing_works _ _ _ _ _
  | ok post =>
    refine .lift (emit_works trivial) fun emitted => ?_
    cases emitted with
    | error error => exact stopAfterFailing_works _ _ _ _ _
    | ok _ =>
      cases post with
      | «continue» => exact .pure _
      | rewriteOutput output => exact .pure _
      | markError error =>
        refine .lift (runFailureHooks_quiet _ _).works fun failure => ?_
        cases failure.auditError with
        | none => exact .pure _
        | some error => exact stopAfterFailing_works _ _ _ _ _

theorem toolFailed_works (call : ToolCall) (attempt : Option Attempt) (error : AikitError) :
    Works c (toolFailed c turn call attempt error) := by
  cases attempt with
  | none => exact (failureMessage_works _ _).bind fun _ => .pure _
  | some attempt =>
    refine .call trivial fun failed => ?_
    cases failed with
    | error commitError => exact .works (yieldStop_quiet _ _)
    | ok _ => exact .works (yieldStop_quiet _ _)

theorem auditCompleted_works (call : ToolCall) (ran isError : Bool) (content : String) :
    Works c (auditCompleted c turn call ran isError content) := .ite (emitOrStop_works (by trivial)) (.pure _)

theorem finishCall_works (call : ToolCall) (outcome : CallOutcome) (retained : RetainedRunBudget) :
    Works c (finishCall c turn call outcome retained) :=
  (chargeResult_works _ _ _).bind fun _ => (auditCompleted_works _ _ _ _).bind fun _ =>
    (yieldResult_works _ _ _).bind fun _ => .pure _

variable [ActivityCodec]

theorem commitToolActivity_works (attempt : Option Attempt) (result : String × Bool) :
    Works c (commitToolActivity attempt result) := by
  cases attempt with
  | none => exact .pure _
  | some attempt =>
    unfold commitToolActivity
    dsimp only
    split
    · exact stopAfterFailing_works _ _ _ _ _
    · refine .call trivial fun completed => ?_
      cases completed with
      | ok _ => exact .pure _
      | error error => exact .works (yieldStop_quiet _ _)

theorem beginToolActivity_works (call : ToolCall) (effective : Value) :
    Works c (beginToolActivity c turn call effective) := by
  unfold beginToolActivity
  split
  · exact .pure _
  next hdriven =>
    refine .call trivial fun begun => ?_
    cases begun with
    | error error => exact .works (stopAtBoundary_quiet (Bool.not_eq_false _ ▸ hdriven) _ _)
    | ok activity =>
      cases activity with
      | execute activityId attempt => exact .pure _
      | reuseCompleted activityId output =>
        dsimp only
        split
        · exact .pure _
        · exact .works (yieldStop_quiet _ _)

theorem execute_works (call : ToolCall) (effective : Value) (attempt : Option Attempt) :
    Works c (execute c turn call effective attempt) := by
  refine .call trivial fun trigger => ?_
  cases trigger with
  | some trigger => exact stopAfterFailing_works _ _ _ _ _
  | none =>
    refine .call trivial fun execution => Part.bind ?_ fun _ =>
      (commitToolActivity_works _ _).bind fun _ => .pure _
    match execution with
    | .error trigger => exact stopAfterFailing_works _ _ _ _ _
    | .ok (.ok output) => exact postProcess_works _ _ _ _
    | .ok (.error error) => exact toolFailed_works _ _ _

theorem runAllowed_works (call : ToolCall) (effective : Value) (report : AuthorizationReport) :
    Works c (runAllowed c turn call effective report) := by
  refine (emitOrStop_works (by trivial)).bind fun _ => (beginToolActivity_works _ _).bind fun begun => ?_
  refine .lift (emit_works trivial) fun emitted => ?_
  cases emitted with
  | error error =>
    refine .lift (failAttempt_quiet _ _ _).works fun failed => ?_
    cases failed with
    | ok _ => exact .works (yieldStop_quiet _ _)
    | error commitError => exact .lift (fromError_quiet _).works fun _ => .works (yieldStop_quiet _ _)
  | ok _ =>
    obtain ⟨attempt, reused⟩ := begun
    cases reused with
    | some output => exact .pure _
    | none => exact (execute_works _ _ _).bind fun _ => .pure _

theorem authorizeCall_works (call : ToolCall) (validator : Value → Except String Unit) :
    Works c (authorizeCall c turn call validator) := by
  refine .call trivial fun answer => ?_
  cases answer with
  | error trigger => exact .stop _ _
  | ok report =>
    refine Part.bind (.works stopIfTerminated_quiet) fun _ => (emitOrStop_works (by trivial)).bind fun _ => ?_
    refine .ite ?_ ?_
    · exact (failureMessage_works _ _).bind fun _ => (emitOrStop_works (by trivial)).bind fun _ =>
        .lift (yieldError_quiet _ _).works fun _ => .stop _ _
    · unfold applyAuthorization
      split
      · exact (failureMessage_works _ _).bind fun _ => (emitOrStop_works (by trivial)).bind fun _ => .pure _
      · refine Part.bind (.works stopIfTerminated_quiet) fun _ => ?_
        split
        · exact (rejectToolInput_works _ _ _ _).bind fun _ => .pure _
        · exact runAllowed_works _ _ _

theorem runCall_works (call : ToolCall) (retained : RetainedRunBudget) :
    Works c (runCall c turn call retained) := by
  refine Part.bind (.works stopIfTerminated_quiet) fun _ => ?_
  split
  · exact denyUnadvertised_works _ _
  split
  · exact rejectProposed_works _ _ _
  · exact (authorizeCall_works _ _).bind fun _ => finishCall_works _ _ _

theorem runCalls_works (calls : List ToolCall) (retained : RetainedRunBudget) :
    Works c (runCalls c turn calls retained) := by
  induction calls generalizing retained with
  | nil => exact .pure _
  | cons call calls ih => exact (runCall_works call retained).bind fun _ => (ih _).bind fun _ => .pure _

/-! ### Turns -/

omit [ActivityCodec] in
theorem collect_works {cfg : RunConfig} (t : Turn) (deltas : List StreamDelta) :
    Numbered Op.Works (collect cfg turn t deltas) := by
  induction deltas generalizing t with
  | nil => exact .call trivial fun _ => trivial
  | cons delta deltas ih =>
    refine .call trivial fun trigger => ?_
    cases trigger with
    | some trigger => trivial
    | none =>
      dsimp only
      split
      · exact .call trivial fun _ => trivial
      refine (observe_quiet _ delta).works.bind fun observed => .call trivial fun _ => ?_
      obtain ⟨t', auditError⟩ := observed
      cases auditError with
      | some error => exact .call trivial fun _ => trivial
      | none => exact ih t'

theorem openTurn_works (messages : List Message) : Works c (openTurn c turn messages) :=
  .call trivial fun _ => (emitOrStop_works (by trivial)).bind fun _ =>
    Part.bind (.works (beginProviderActivity_quiet _)) fun _ =>
      Part.bind (.works (openStream_quiet _ _ _)) fun _ => .pure _

theorem runTools_works (messages : List Message) (t : Turn) (calls : List ToolCall) :
    Works c (runTools c turn messages t calls) := by
  refine .call trivial fun _ => .ite ?_ ?_
  · exact .call trivial fun _ => .stop _ _
  · exact (runCalls_works _ _).bind fun _ => .call trivial fun _ => .pure _

theorem runTurn_works (vars : Vars) :
    Holds (numbers Op.Works) (fun r last => ∀ exit, r = .error exit → exit.stop.Seen c.cfg.durable last)
      (runTurn c turn vars) none := by
  refine Passes.run_bind (openTurn_works vars.messages) (fun opened last _ => ?_) fun stop last hseen => ?_
  · obtain ⟨messages, attempt, deltas⟩ := opened
    refine Holds.bind ((collect_works _ deltas).after last) fun collected last' _ => ?_
    obtain ⟨t, trigger⟩ := collected
    have hended : Works c (do
        let calls ← finishStream c turn attempt t trigger
        runTools c turn messages t calls) :=
      Part.bind (.works (finishStream_quiet attempt t trigger)) fun calls => runTools_works messages t calls
    refine Passes.run_bind (hended.after last') (fun vars' _ _ => ?_) fun stop _ hseen => ?_
    · exact Holds.pure fun _ heq => by cases heq
    · refine Holds.pure fun _ heq => ?_
      cases heq
      exact hseen
  · refine Holds.pure fun _ heq => ?_
    cases heq
    exact hseen

omit [ActivityCodec] in
/-- The turn after the last one is not a boundary. -/
theorem exceedMaxTurns_works (last : Option (Event Op Op.Answer)) :
    Holds (numbers Op.Works) (fun stop last => stop.Seen c.cfg.durable last) (exceedMaxTurns c turn) last := by
  have hquiet : Quiet (terminalFailure c.trail
      ⟨c.runId, turn, .maxTurns, none, none, "max_turns exceeded"⟩ (.new .maxTurns) "max_turns") :=
    terminalFailure_quiet _ _ _
  have hfailure := hquiet.works
  refine Holds.bind (hfailure.after last) fun failure last' _ => ?_
  exact Holds.bind ((yieldError_quiet _ _).works.after last') fun _ _ _ => Holds.pure Stop.seen_reason

/-- **The loop**, by induction on the turns that may still be run. -/
theorem agentLoop_works (remaining : Nat) (vars : Vars) (last : Option (Event Op Op.Answer)) :
    Holds (numbers Op.Works) (fun exit last => exit.stop.Seen c.cfg.durable last)
      (agentLoop c remaining vars) last := by
  have hpolled : Works c stopIfTerminated := .works stopIfTerminated_quiet
  induction remaining generalizing vars last with
  | zero =>
    unfold agentLoop
    refine Passes.run_bind (hpolled.after last) (fun _ last' _ => ?_) fun stop _ hseen => Holds.pure hseen
    exact Holds.bind (exceedMaxTurns_works last') fun stop _ hseen => Holds.pure hseen
  | succ remaining ih =>
    unfold agentLoop
    refine Passes.run_bind (hpolled.after last) (fun _ last' _ => ?_) fun stop _ hseen => Holds.pure hseen
    have hturn := Numbered.holds_after (@runTurn_works c (vars.turn + 1) _ vars)
      (fun r last hr exit heq => Stop.seen_of_none (hr exit heq) last) last'
    refine Holds.bind hturn fun ended last'' hended => ?_
    cases ended with
    | error exit => exact Holds.pure (hended exit rfl)
    | ok vars' => exact ih vars' last''

end

end AikitRuntime.Agent
