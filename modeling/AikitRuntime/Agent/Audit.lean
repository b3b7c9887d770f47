import AikitRuntime.Agent.Environment

/-!
# The audit trail and the failure hooks

A record is prepared, which takes the next number of the trail, and then handed to the
sinks. Under `FailClosed` a rejected record is an error, and so is a trail without sinks;
under `BestEffort` neither is. A failure passes through the failure hooks, which may reword
it, before it is audited.
-/

namespace AikitRuntime.Agent

open Library Durability Streaming Governance

/-- `AuditTrail`, with its sinks counted. The parent and the label of a run are left out. -/
structure AuditTrail where
  runId : String
  invocationId : Option String
  sinkCount : Nat
  payloadPolicy : AuditPayloadPolicy
  failureMode : AuditFailureMode
  maxPreviewBytes : Nat
  deliveryId : Option String
  deriving DecidableEq

namespace AuditTrail

variable (trail : AuditTrail)

/-- `fresh_run`. -/
def freshRun : Program AuditTrail := do
  let runId ← perform .freshRunId
  pure { trail with runId, invocationId := none }

/-- What `validate` refuses in an audit identity. -/
def validId (field text : String) : Except AikitError Unit :=
  if text = "" ∨ hasControl text then
    .error (.configuration s!"audit {field} cannot be empty or contain control characters")
  else .ok ()

/-- `for_run_id`. -/
def forRunId (runId : String) : Program (Except AikitError AuditTrail) :=
  match validId "run_id" runId with
  | .error error => pure (.error error)
  | .ok () => do
    let invocationId ← perform .secureInvocationId
    pure (invocationId.map fun id => { trail with runId, invocationId := some id })

/-- `replay_binding`. -/
def replayBinding : AuditReplayBinding where
  schemaVersion := 1
  deliveryId := trail.deliveryId
  sinkCount := trail.sinkCount
  payloadPolicy := trail.payloadPolicy
  failureMode := trail.failureMode
  maxPreviewBytes := trail.maxPreviewBytes

/-- `for_terminal_replay`. -/
def forTerminalReplay (replay : RunStoppedAuditReplayEnvelope) : Except AikitError AuditTrail := do
  validId "run_id" replay.auditRunId
  validId "invocation_id" replay.invocationId
  if replay.runStoppedSequence = 0 then
    throw (.configuration "audit next_sequence must be at least 1")
  if trail.replayBinding ≠ replay.auditBinding ∨ trail.failureMode ≠ .failClosed ∨
      trail.sinkCount = 0 ∨ trail.deliveryId = none then
    throw (.configuration
      "durable terminal replay audit delivery binding does not match the persisted fail-closed policy")
  pure { trail with runId := replay.auditRunId, invocationId := some replay.invocationId }

/-- `capture_value`. -/
def captureValue (value : Value) : Option Value :=
  if trail.payloadPolicy = .full then some value else none

/-- The characters that fit into a number of bytes. -/
def takeBytes : Nat → List Char → List Char
  | _, [] => []
  | bytes, c :: cs => if c.utf8Size ≤ bytes then c :: takeBytes (bytes - c.utf8Size) cs else []

/-- `capture_output`: cut at a character boundary. -/
def captureOutput (output : String) : Option String :=
  if trail.payloadPolicy = .full then
    some (String.ofList (takeBytes trail.maxPreviewBytes output.toList))
  else none

/-- `prepare_event`. -/
def prepareEvent (event : AuditEvent) : Program (Except AikitError AuditRecord) :=
  if trail.sinkCount = 0 ∧ trail.failureMode = .failClosed then
    pure (.error (.audit "audit is fail-closed but no audit sink is configured"))
  else do
    let sequence ← perform .reserveSequence
    pure (.ok ⟨trail.runId, trail.invocationId, sequence, event⟩)

/-- `emit_prepared`. -/
def emitPrepared (record : AuditRecord) : Program (Except AikitError Unit) :=
  if record.runId ≠ trail.runId ∨ record.invocationId ≠ trail.invocationId then
    pure (.error (.audit "prepared audit record does not belong to this audit trail"))
  else do
    let rejection ← perform (.deliver record)
    match rejection with
    | some error =>
      if trail.failureMode = .failClosed then
        pure (.error (.audit s!"audit sink failed (fail-closed): {error}"))
      else pure (.ok ())
    | none => pure (.ok ())

/-- `emit`. -/
def emit (event : AuditEvent) : Program (Except AikitError Unit) := do
  let prepared ← trail.prepareEvent event
  match prepared with
  | .error error => pure (.error error)
  | .ok record => trail.emitPrepared record

/-- Under `FailClosed` there is a sink. -/
def Audited : Prop := trail.failureMode = .failClosed → trail.sinkCount ≠ 0

variable {trail}

/-- An event is only accepted where there is a sink, if one is needed. -/
theorem emit_audited (event : AuditEvent) :
    Returns (fun r => ∀ a, r = .ok a → trail.Audited) (trail.emit event) := by
  unfold emit prepareEvent
  split
  · exact Returns.pure fun _ heq => by cases heq
  next hsinks =>
    have haudited : trail.Audited := fun hmode hnone => hsinks ⟨hnone, hmode⟩
    refine Returns.call fun sequence => ?_
    show Returns _ (trail.emitPrepared ⟨trail.runId, trail.invocationId, sequence, event⟩)
    unfold emitPrepared
    split
    · exact Returns.pure fun _ _ => haudited
    refine Returns.call fun rejection => ?_
    cases rejection with
    | none => exact Returns.pure fun _ _ => haudited
    | some error =>
      show Returns _ (if _ then _ else _)
      split
      · exact Returns.pure fun _ _ => haudited
      · exact Returns.pure fun _ _ => haudited

end AuditTrail

/-- `FailureHookResult`. -/
structure FailureHookResult where
  message : String
  auditError : Option AikitError

/-- `Result::err`. -/
def errorOf {ε α : Type} : Except ε α → Option ε
  | .ok _ => none
  | .error error => some error

/-- `run_failure_hooks`. -/
def runFailureHooks (trail : AuditTrail) (ctx : FailureContext) (terminal : Bool) :
    Program FailureHookResult := do
  let error ← perform (.runFailure ctx)
  let emitted ← trail.emit (.failure ctx.turn ctx.stage.asStr ctx.tool error terminal)
  pure ⟨error, errorOf emitted⟩

/-- Yield a delta. -/
def yieldDelta (delta : StreamDelta) : Program Unit := perform (.yield delta)

/-- `cfg.recorder.complete`. -/
def complete (usage : Usage) (status : RunTerminalStatus) (stopReason : String) : Program Unit :=
  perform (.record (.complete usage status stopReason))

end AikitRuntime.Agent
