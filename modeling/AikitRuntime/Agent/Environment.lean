import AikitRuntime.Library.Programs
import AikitRuntime.Governance.Decisions
import AikitRuntime.Agent.Retained

/-!
# What the agent loop calls

Everything `run_agent` does outside its own variables is an operation: what it yields and
records, the sinks, hooks, governance, the model, the tools, the budget tracker and the
durable driver. `Op.Answer` is what each may answer, and a `Program` may be answered
anything: a hook that rewrites, a sink that rejects, a store that fails, a token that is
cancelled at any time.

An operation that is raced against the end of the run (`tokio::select!`) answers either its
own answer or the trigger that ended the race. A model stream is opened with the deltas it
will give; each is awaited in a race of its own.
-/

namespace AikitRuntime.Agent

open Library Durability Streaming Governance

/-- `TerminationTrigger`. -/
inductive TerminationTrigger where
  | externalCancellation | budgetDeadline
  deriving DecidableEq

/-- `TerminationTrigger::terminal_reason`. -/
def TerminationTrigger.terminalReason : TerminationTrigger → String
  | .externalCancellation => "cancelled"
  | .budgetDeadline => "budget_exceeded"

/-! ### Audit records -/

/-- `AuditEvent`, as far as the loop emits it. The cost in `BudgetUpdated` is left out. -/
inductive AuditEvent where
  | runStarted (model : String)
  | requestStarted (turn : Nat) (model : String) (messageCount toolCount : Nat)
  | permissionDecision (turn : Nat) (toolUseId tool decision source : String)
    (reason : Option String) (input : Option Value)
  | hookCompleted (turn : Nat) (phase : String) (tool : Option String) (outcome : String)
  | toolStarted (turn : Nat) (toolUseId tool : String) (input : Option Value)
  | toolCompleted (turn : Nat) (toolUseId tool : String) (isError : Bool) (outputBytes : Nat)
    (outputPreview : Option String)
  | usage (turn : Nat) (usage : Usage)
  | budgetUpdated (turn : Nat) (totalTokens : Nat)
  | failure (turn : Nat) (stage : String) (tool : Option String) (error : String) (terminal : Bool)
  | runStopped (turns : Nat) (reason : String)
  deriving DecidableEq

/-- `AuditRecord`: an event, its place in the run, and the invocation it belongs to. -/
structure AuditRecord where
  runId : String
  invocationId : Option String
  sequence : Nat
  event : AuditEvent
  deriving DecidableEq

/-! ### Requests -/

/-- `ProviderRequest`. -/
structure ProviderRequest where
  model : String
  messages : List Message
  tools : List ToolSpec
  maxTokens : Nat
  options : Value
  providerOptions : Value
  compatibilityMode : String
  deriving DecidableEq

/-- The JSON whose hash identifies a durable activity: of a model request, or of a tool call. -/
inductive DurableInput where
  | provider (provider : String) (request : ProviderRequest)
  | tool (tool : String) (input : Value)
  deriving DecidableEq

/-! ### The durable driver -/

/-- `DurableActivity`. -/
inductive DurableActivity where
  | execute (activityId : String) (attempt : Nat)
  | reuseCompleted (activityId : String) (output : Value)
  deriving DecidableEq

/-- An activity that is open: its id, and its attempt. -/
structure Attempt where
  activityId : String
  attempt : Nat
  deriving DecidableEq

/-- `DurableInvocationDisposition`. -/
inductive Disposition where
  | execute
  | finalizeTerminal (receipt : RunStoppedReceipt)
  | retryTerminalAudit (replay : RunStoppedAuditReplayEnvelope)
  | awaitingResume (reason : Option String)
  | reconcileRequired (reason : String)
  | alreadyTerminal (status : DurableRunStatus) (reason : Option String)
  deriving DecidableEq

/-- The methods of `DurableRunDriver` that the loop calls, and `with_durable_driver`. -/
inductive DriverCall where
  | claimInvocation
  | attachGovernance
  | runId
  /-- `invocation_disposition`, or `invocation_disposition_for_active_lifecycle`. -/
  | disposition (active : Option String)
  | beginInvocationLifecycle (invocationId : String)
  | completeUnstartedInvocationLifecycle (lifecycle : Attempt)
  | failInvocationLifecycle (lifecycle : Attempt)
  | completeInvocationLifecycleWithReplay (lifecycle : Attempt)
    (replay : RunStoppedAuditReplayEnvelope)
  | beginActivity (stableStepId logicalKey : String) (input : DurableInput)
  | completeActivity (attempt : Attempt) (output : Value)
  | failActivity (attempt : Attempt) (reason : String) (retryable ambiguous : Bool)
  | finalizeRunStoppedReceipt (receipt : RunStoppedReceipt)
  | beginInvocationRunStoppedAudit (replay : RunStoppedAuditReplayEnvelope)
  | completeRunStoppedAuditAndInvocationLifecycle (audit lifecycle : Attempt)
    (replay : RunStoppedAuditReplayEnvelope)
  | failRunStoppedAuditAndInvocationLifecycle (audit lifecycle : Attempt)
  | closeActiveLifecycleFromMatchingCompletedCanonicalReplay (lifecycle : Attempt)
  | beginRecoveryRunStoppedAudit (replay : RunStoppedAuditReplayEnvelope)
  | completeRecoveryRunStoppedAuditAndInvocationLifecycle (audit lifecycle : Attempt)
    (replay : RunStoppedAuditReplayEnvelope)
  | failRecoveryRunStoppedAuditAndInvocationLifecycle (audit lifecycle : Attempt)
  | beginTerminalAuditRetry (replay : RunStoppedAuditReplayEnvelope)
  | completeTerminalAuditRetry (retry : Attempt)
  | failTerminalAuditRetry (retry : Attempt)
  deriving DecidableEq

/-- What a method of the driver returns when it succeeds. -/
abbrev DriverCall.Value : DriverCall → Type
  | runId => String
  | disposition _ => Disposition
  | beginInvocationLifecycle _ => DurableActivity
  | beginActivity _ _ _ => DurableActivity
  | beginInvocationRunStoppedAudit _ => DurableActivity
  | closeActiveLifecycleFromMatchingCompletedCanonicalReplay _ => Bool
  | beginRecoveryRunStoppedAudit _ => DurableActivity
  | beginTerminalAuditRetry _ => Attempt
  | _ => Unit

/-! ### Operations -/

/-- What the budget tracker says to a usage report: the tokens so far, and whether they are
too many. -/
structure BudgetAnswer where
  inputTokens : Nat
  outputTokens : Nat
  error : Option String
  deriving DecidableEq

/-- An operation of the environment. -/
inductive Op where
  /-- Hand a delta to the caller. -/
  | yield (delta : StreamDelta)
  | record (entry : Recording)
  /-- `current_termination`. -/
  | currentTermination
  /-- The id of a fresh run (`NEXT_RUN_ID`). -/
  | freshRunId
  | secureInvocationId
  /-- `next_sequence.fetch_add(1)`. -/
  | reserveSequence
  /-- Hand a record to the sinks; the first rejection, if there is one. -/
  | deliver (record : AuditRecord)
  | runUserPromptSubmit (ctx : PromptContext)
  | runPostToolUse (ctx : PostToolUseContext)
  | runFailure (ctx : FailureContext)
  | runStop (ctx : StopContext) (usage : Usage)
  | authorize (ctx : AuthorizationContext)
  | clearRunPermissions (runId : String)
  /-- `BudgetTracker::new`. -/
  | newTracker
  /-- `tracker.record`, and the snapshot after it. -/
  | recordUsage (usage : Usage)
  | compact (messages : List Message)
  /-- `provider.stream`. -/
  | openStream (request : ProviderRequest)
  /-- `inner.next()`: what the stream gives next, and whether the run was ended first. -/
  | awaitDelta (next : Option StreamDelta)
  | elapsed
  /-- `executor.execute`. -/
  | execute (name : String) (input : Value)
  | driver (call : DriverCall)
  | isPoisoned
  /-- `snapshot`, as far as its status is read. -/
  | snapshotStatus
  deriving DecidableEq

/-- What an operation answers. -/
abbrev Op.Answer : Op → Type
  | yield _ => Unit
  | record _ => Unit
  | currentTermination => Option TerminationTrigger
  | freshRunId => String
  | secureInvocationId => Except AikitError String
  | reserveSequence => Nat
  | deliver _ => Option String
  | runUserPromptSubmit _ => Except TerminationTrigger PromptHookOutcome
  | runPostToolUse _ => Except TerminationTrigger PostToolOutcome
  | runFailure _ => String
  | runStop _ _ => Except AikitError Unit
  | authorize _ => Except TerminationTrigger AuthorizationReport
  | clearRunPermissions _ => Except AikitError Unit
  | newTracker => Except AikitError Unit
  | recordUsage _ => BudgetAnswer
  | compact _ => Option (List Message)
  | openStream _ => Except TerminationTrigger (Except AikitError (List StreamDelta))
  | awaitDelta _ => Option TerminationTrigger
  | elapsed => Nat
  | execute _ _ => Except TerminationTrigger (Except AikitError String)
  | driver call => Except DriverError call.Value
  | isPoisoned => Bool
  | snapshotStatus => Option DurableRunStatus

/-- A program of the agent loop. -/
abbrev Program (α : Type) : Type := Prog Op Op.Answer α

/-- What an agent program did. -/
abbrev Trace : Type := List (Event Op Op.Answer)

/-- Call an operation. -/
abbrev perform (op : Op) : Program op.Answer := Prog.perform op

/-- Call the driver. -/
abbrev driver (call : DriverCall) : Program (Except DriverError call.Value) := perform (.driver call)

/-! ### Code outside the repository -/

/-- `jsonschema`: a schema compiles to a validator, or does not. -/
class JsonSchema where
  validatorFor : Value → Except String (Value → Except String Unit)

/-- `DurableToolOutput`. -/
structure DurableToolOutput where
  content : String
  isError : Bool
  deriving DecidableEq

/-- `serde_json`, as far as recorded activity outputs pass through it. -/
class ActivityCodec where
  toDeltas : Value → Except String (List StreamDelta)
  ofDeltas : List StreamDelta → Except String Value
  toToolOutput : Value → Except String DurableToolOutput
  ofToolOutput : DurableToolOutput → Except String Value

end AikitRuntime.Agent
