import AikitRuntime.Agent.Preparation
import AikitRuntime.Agent.Proposals

/-!
# The observer of a run

`Watch` is what an observer of a run has seen: the deltas of the turn, the last
authorization, the calls that were executed, whether something has happened after which no
tool may run, and what would explain an outcome. `Permits` says when a tool may be executed
in the light of it, and `Explains` when an outcome may be recorded.

Each part of the loop has one lemma, `Passes`: what has been seen when it goes on, and that
it leaves the loop with a reason that is explained.
-/

namespace AikitRuntime.Agent

open Library Durability Streaming Governance

/-- What an observer of a run has seen. -/
structure Watch where
  /-- How many turns were begun. -/
  turn : Nat
  /-- The deltas of the turn. -/
  polled : List StreamDelta
  /-- The stream of the turn is over. -/
  complete : Bool
  /-- An error was shown, a record was rejected under `FailClosed`, a usage report exceeded the
  budget, a cancellation or a deadline was observed, or a denial asked for an interrupt. -/
  halted : Bool
  /-- The last authorization, if it allowed an input, and that input. -/
  granted : Option (AuthorizationContext × Value)
  /-- The authorizations whose calls were executed in the turn. -/
  executed : List AuthorizationContext
  /-- A usage report exceeded the budget, the budget was rejected, or the deadline has passed. -/
  overBudget : Bool
  /-- The caller cancelled the run, or a denial asked for an interrupt. -/
  cancelled : Bool
  /-- The durable log has said that the outcome was decided by another invocation. -/
  recovered : Bool

namespace Watch

/-- Before a run. -/
def start (cfg : RunConfig) : Watch where
  turn := 0
  polled := []
  complete := false
  halted := false
  granted := none
  executed := []
  overBudget := false
  cancelled := false
  recovered := (cfg.durableInvocation.getD .execute).terminal

/-- A turn begins. -/
def nextTurn (w : Watch) : Watch :=
  { w with turn := w.turn + 1, polled := [], complete := false, granted := none, executed := [] }

/-- Something is seen after which no tool may run, if the condition holds. -/
def haltIf (w : Watch) (condition : Bool) : Watch := { w with halted := w.halted || condition }

/-- A denial asks for an interrupt, if the condition holds. -/
def interruptIf (w : Watch) (condition : Bool) : Watch :=
  { w with halted := w.halted || condition, cancelled := w.cancelled || condition }

/-- The outcome was decided elsewhere, if the condition holds. -/
def recoverIf (w : Watch) (condition : Bool) : Watch := { w with recovered := w.recovered || condition }

/-- What ended a race or a poll, if the run did. -/
def trip (w : Watch) : Option TerminationTrigger → Watch
  | none => w
  | some .externalCancellation => { w with halted := true, cancelled := true }
  | some .budgetDeadline => { w with halted := true, overBudget := true }

/-- What the budget said, if it refused. -/
def refuse (w : Watch) : Option String → Watch
  | none => w
  | some _ => { w with halted := true, overBudget := true }

/-- The authorized call is executed. -/
def spend (w : Watch) : Watch :=
  { w with executed := w.executed ++ (w.granted.map Prod.fst).toList, granted := none }

/-- A record that is handed to the sinks, and whether its rejection is an error. -/
def deliver (w : Watch) (record : AuditRecord) (failed : Bool) : Watch :=
  match record.event with
  | .requestStarted _ _ _ _ => w.nextTurn.haltIf failed
  | _ => w.haltIf failed

/-- The input that a report allows. -/
def allowedInput (report : AuthorizationReport) : Option Value :=
  match report.authorization with
  | .allowed input => some input
  | .denied _ _ => none

/-- What an operation and its answer add. -/
def step (mode : AuditFailureMode) (w : Watch) : (op : Op) → op.Answer → Watch
  | .yield (.error _ _), _ => w.haltIf true
  | .deliver record, rejection => w.deliver record (rejection.isSome && decide (mode = .failClosed))
  | .currentTermination, trigger => w.trip trigger
  | .awaitDelta (some delta), none => { w with polled := w.polled ++ [delta] }
  | .awaitDelta none, none => { w with complete := true }
  | .awaitDelta _, some trigger => w.trip (some trigger)
  | .runUserPromptSubmit _, .error trigger => w.trip (some trigger)
  | .openStream _, .error trigger => w.trip (some trigger)
  | .openStream _, .ok (.error _) => w.haltIf true
  | .newTracker, .error _ => w.refuse (some "")
  | .recordUsage _, answer => w.refuse answer.error
  | .authorize _, .error trigger => { w with granted := none }.trip (some trigger)
  | .authorize ctx, .ok report =>
    { w with granted := (allowedInput report).map fun input => (ctx, input) }.interruptIf report.interrupt
  | .execute _ _, .error trigger => w.spend.trip (some trigger)
  | .execute _ _, .ok _ => w.spend
  | .runPostToolUse _, .error trigger => w.trip (some trigger)
  | .driver (.disposition _), .ok disposition => w.recoverIf disposition.terminal
  | .driver (.beginInvocationRunStoppedAudit _), .ok (.reuseCompleted _ _) => w.recoverIf true
  | _, _ => w

@[simp] theorem haltIf_false (w : Watch) : w.haltIf false = w := by
  unfold haltIf
  rw [Bool.or_false]

@[simp] theorem interruptIf_false (w : Watch) : w.interruptIf false = w := by
  unfold interruptIf
  rw [Bool.or_false, Bool.or_false]

@[simp] theorem recoverIf_false (w : Watch) : w.recoverIf false = w := by
  unfold recoverIf
  rw [Bool.or_false]

/-- The event does not begin a turn. -/
def Continues : AuditEvent → Prop
  | .requestStarted _ _ _ _ => False
  | _ => True

theorem deliver_eq_haltIf {record : AuditRecord} (h : Continues record.event) (w : Watch)
    (failed : Bool) : w.deliver record failed = w.haltIf failed := by
  unfold deliver
  split
  next heq =>
    rw [heq] at h
    exact h.elim
  next => rfl

/-! ### What is never forgotten -/

/-- Nothing that would explain an outcome is lost, and the turn is the same. -/
structure Grows (w w' : Watch) : Prop where
  turn : w'.turn = w.turn
  polled : w'.polled = w.polled
  complete : w'.complete = w.complete
  overBudget : w.overBudget = true → w'.overBudget = true
  cancelled : w.cancelled = true → w'.cancelled = true
  recovered : w.recovered = true → w'.recovered = true

namespace Grows

variable {w w' w'' : Watch}

theorem refl (w : Watch) : Grows w w := ⟨rfl, rfl, rfl, id, id, id⟩

theorem trans (h : Grows w w') (h' : Grows w' w'') : Grows w w'' where
  turn := h'.turn.trans h.turn
  polled := h'.polled.trans h.polled
  complete := h'.complete.trans h.complete
  overBudget := h'.overBudget ∘ h.overBudget
  cancelled := h'.cancelled ∘ h.cancelled
  recovered := h'.recovered ∘ h.recovered

theorem grant (w : Watch) (granted : Option (AuthorizationContext × Value)) :
    Grows w { w with granted } := ⟨rfl, rfl, rfl, id, id, id⟩

theorem haltIf (w : Watch) (condition : Bool) : Grows w (w.haltIf condition) := ⟨rfl, rfl, rfl, id, id, id⟩

theorem interruptIf (w : Watch) (condition : Bool) : Grows w (w.interruptIf condition) :=
  ⟨rfl, rfl, rfl, id, fun h => by simp [Watch.interruptIf, h], id⟩

theorem recoverIf (w : Watch) (condition : Bool) : Grows w (w.recoverIf condition) :=
  ⟨rfl, rfl, rfl, id, id, fun h => by simp [Watch.recoverIf, h]⟩

theorem trip (w : Watch) (trigger : Option TerminationTrigger) : Grows w (w.trip trigger) := by
  match trigger with
  | none => exact .refl w
  | some .externalCancellation => exact ⟨rfl, rfl, rfl, id, fun _ => rfl, id⟩
  | some .budgetDeadline => exact ⟨rfl, rfl, rfl, fun _ => rfl, id, id⟩

theorem refuse (w : Watch) (error : Option String) : Grows w (w.refuse error) := by
  cases error with
  | none => exact .refl w
  | some error => exact ⟨rfl, rfl, rfl, fun _ => rfl, id, id⟩

end Grows

/-- What is done at the end of a run, and in its quiet parts, loses nothing. -/
theorem grows_step {S : RunTerminalStatus → Prop} {mode : AuditFailureMode} (w : Watch) {op : Op}
    (hop : op.Closes S) (answer : op.Answer) : Grows w (w.step mode op answer) := by
  cases op with
  | yield delta =>
    cases delta with
    | error message info => exact .haltIf w true
    | _ => exact .refl w
  | deliver record =>
    have hevent : Continues record.event := by
      obtain ⟨runId, invocationId, sequence, event⟩ := record
      cases event with
      | requestStarted turn model messageCount toolCount => exact hop.elim
      | _ => trivial
    show Grows w (w.deliver record _)
    rw [deliver_eq_haltIf hevent]
    exact .haltIf w _
  | currentTermination => exact .trip w answer
  | awaitDelta next => exact hop.elim
  | execute name input => exact hop.elim
  | runUserPromptSubmit ctx =>
    cases answer with
    | error trigger => exact .trip w _
    | ok outcome => exact .refl w
  | runPostToolUse ctx =>
    cases answer with
    | error trigger => exact .trip w _
    | ok outcome => exact .refl w
  | openStream request =>
    match answer with
    | .error trigger => exact .trip w _
    | .ok (.error error) => exact .haltIf w true
    | .ok (.ok deltas) => exact .refl w
  | newTracker =>
    cases answer with
    | error error => exact .refuse w (some "")
    | ok _ => exact .refl w
  | recordUsage usage => exact .refuse w _
  | authorize ctx =>
    cases answer with
    | error trigger =>
      exact (Grows.grant w none).trans (.trip _ _)
    | ok report => exact (Grows.grant w _).trans (.interruptIf _ report.interrupt)
  | driver call =>
    cases call with
    | disposition active =>
      cases answer with
      | error error => exact .refl w
      | ok disposition => exact .recoverIf w _
    | beginInvocationRunStoppedAudit replay =>
      match answer with
      | .error error => exact .refl w
      | .ok (.execute _ _) => exact .refl w
      | .ok (.reuseCompleted _ _) => exact .recoverIf w true
    | _ => exact .refl w
  | _ => exact .refl w

end Watch

/-! ### When a tool may be executed -/

section

variable [JsonSchema]

/-- The tool has a schema among the run's tools, and both inputs fit it. -/
def FitsSchema (tools : List ToolSpec) (name : String) (proposed final : Value) : Prop :=
  ∃ tool ∈ tools, tool.name = name ∧ ∃ validator,
    JsonSchema.validatorFor tool.inputSchema = .ok validator ∧
      validator proposed = .ok () ∧ validator final = .ok ()

/-- The call an authorization is about. -/
def proposalOf (ctx : AuthorizationContext) : PendingToolCall := ⟨ctx.toolUseId, ctx.tool, some ctx.input⟩

/-- A tool may be executed with this input. -/
structure Watch.Permits (cfg : RunConfig) (w : Watch) (name : String) (input : Value) : Prop where
  running : w.halted = false
  /-- The stream of the turn is over, had no fault, and all its calls have an input. -/
  complete : w.complete = true
  faultless : Faultless w.polled
  inputs : ∀ call ∈ proposals w.polled, call.input.isSome = true
  within : w.turn ≤ cfg.maxTurns
  audited : cfg.audit.Audited
  /-- The last authorization allowed the input, for a call of this turn: with those executed so
  far it is among the calls of the stream, in their order, each at most once. -/
  granted : ∃ ctx, w.granted = some (ctx, input) ∧ ctx.tool = name ∧ ctx.turn = w.turn ∧
    ((w.executed ++ [ctx]).map proposalOf).Sublist (proposals w.polled) ∧
    FitsSchema cfg.tools name ctx.input input

end

/-! ### What explains an outcome -/

/-- The reasons that the runtime has for outcomes of its own. -/
def runtimeReasons : List String :=
  ["budget_exceeded", "budget_configuration_error", "max_turns", "approval_interrupted", "cancelled"]

namespace Watch

/-- The last turn ended without a call and without an error, and one of the runtime's own reasons was its final
stop reason. -/
structure Mimicked (w : Watch) : Prop where
  complete : w.complete = true
  faultless : Faultless w.polled
  noCalls : proposals w.polled = []
  stopReason : ∃ reason ∈ runtimeReasons, finalStopReason w.polled = some reason

/-- The last turn ended without a call and without an error, and so did the run. -/
structure Finished (w : Watch) : Prop where
  running : w.halted = false
  complete : w.complete = true
  faultless : Faultless w.polled
  noCalls : proposals w.polled = []

/-- What was seen explains an outcome of this status. -/
def Explains (cfg : RunConfig) (w : Watch) : RunTerminalStatus → Prop
  | .budgetExceeded => w.overBudget = true
  | .maxTurns => cfg.maxTurns ≤ w.turn
  | .cancelled => w.cancelled = true
  | .completed => w.Finished
  | .running | .failed => True

/-- A terminal reason is explained, or the provider's. -/
def Accounts (cfg : RunConfig) (w : Watch) (reason : String) : Prop :=
  w.Mimicked ∨ w.Explains cfg (recordedTerminalStatus reason)

/-- A terminal reason that stays explained, whatever is done at the end of the run. -/
structure Lasts (cfg : RunConfig) (w : Watch) (reason : String) : Prop where
  incomplete : recordedTerminalStatus reason ≠ .completed
  accounts : w.Accounts cfg reason

variable {cfg : RunConfig} {w w' : Watch} {reason : String}

theorem Accounts.of_failed (h : recordedTerminalStatus reason = .failed) : w.Accounts cfg reason := by
  right
  rw [h]
  trivial

theorem Lasts.of_failed (h : recordedTerminalStatus reason = .failed) : w.Lasts cfg reason where
  incomplete := by
    rw [h]
    intro heq
    cases heq
  accounts := .of_failed h

theorem Accounts.grows (h : w.Accounts cfg reason) (hincomplete : recordedTerminalStatus reason ≠ .completed)
    (hgrows : w.Grows w') : w'.Accounts cfg reason := by
  rcases h with hmimicked | h
  · left
    exact ⟨hgrows.complete ▸ hmimicked.complete, hgrows.polled ▸ hmimicked.faultless,
      hgrows.polled ▸ hmimicked.noCalls, hgrows.polled ▸ hmimicked.stopReason⟩
  right
  cases hstatus : recordedTerminalStatus reason with
  | budgetExceeded =>
    rw [hstatus] at h
    exact hgrows.overBudget h
  | maxTurns =>
    rw [hstatus] at h
    show cfg.maxTurns ≤ w'.turn
    rw [hgrows.turn]
    exact h
  | cancelled =>
    rw [hstatus] at h
    exact hgrows.cancelled h
  | completed => exact absurd hstatus hincomplete
  | running => trivial
  | failed => trivial

theorem Lasts.grows (h : w.Lasts cfg reason) (hgrows : w.Grows w') : w'.Lasts cfg reason :=
  ⟨h.incomplete, h.accounts.grows h.incomplete hgrows⟩

/-- What ended a race explains the reason it gives. -/
theorem lasts_trip (w : Watch) (trigger : TerminationTrigger) :
    (w.trip (some trigger)).Lasts cfg trigger.terminalReason := by
  cases trigger with
  | externalCancellation =>
    have hstatus : recordedTerminalStatus "cancelled" = .cancelled := by decide
    refine ⟨?_, .inr ?_⟩
    · show recordedTerminalStatus "cancelled" ≠ _
      rw [hstatus]
      intro heq
      cases heq
    · show Explains cfg _ (recordedTerminalStatus "cancelled")
      rw [hstatus]
      rfl
  | budgetDeadline =>
    have hstatus : recordedTerminalStatus "budget_exceeded" = .budgetExceeded := by decide
    refine ⟨?_, .inr ?_⟩
    · show recordedTerminalStatus "budget_exceeded" ≠ _
      rw [hstatus]
      intro heq
      cases heq
    · show Explains cfg _ (recordedTerminalStatus "budget_exceeded")
      rw [hstatus]
      rfl

/-- A denial that asks for an interrupt explains its reason. -/
theorem lasts_interrupt (w : Watch) {interrupt : Bool} (h : interrupt = true) :
    (w.interruptIf interrupt).Lasts cfg "approval_interrupted" := by
  have hstatus : recordedTerminalStatus "approval_interrupted" = .cancelled := by decide
  refine ⟨?_, .inr ?_⟩
  · rw [hstatus]
    intro heq
    cases heq
  · rw [hstatus]
    show (w.cancelled || interrupt) = true
    rw [h, Bool.or_true]

end Watch

/-- The loop may be left so: with a reason that is explained, or at a boundary that was seen. -/
def Left (cfg : RunConfig) : Stop → Watch → Prop
  | .reason reason _, w => w.Accounts cfg reason
  | .boundary disposition, w => disposition.terminal = true → w.recovered = true

variable [JsonSchema]

/-- The observer of a run, which allows a tool where it is permitted, and an outcome where it
is explained. -/
def watch (cfg : RunConfig) : Monitor Op Op.Answer Watch where
  allows w op := match op with
    | .execute name input => w.Permits cfg name input
    | .record (.complete _ status _) => w.recovered = true ∨ w.Mimicked ∨ w.Explains cfg status
    | _ => True
  admits _ _ _ := True
  step := Watch.step cfg.audit.failureMode

end AikitRuntime.Agent
