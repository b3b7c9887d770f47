import Mathlib.Data.Finset.Card
import AikitRuntime.Streaming.Deltas

/-!
# Assertions about a trace

A trace is what a run leaves behind: the events of its stream, the events of its durable log,
and its status. `evaluateTrace` checks a suite of assertions against one. Each assertion reads
the raw events from the first to the last with a few sets of its own, and knows neither the
encoder nor the state machine that made them.
-/

namespace AikitRuntime.Traces

open Durability Streaming

/-- `TraceAssertion`. -/
inductive TraceAssertion where
  | streamSequenceMonotonic
  | streamBlocksBalanced
  | durableSequenceMonotonic
  | noDuplicateActivityCompletion
  | allRequiredReconciliationsResolved
  | approvalResolved (approvalId : String) (approved : Bool)
  | runStatus (status : DurableRunStatus)
  deriving DecidableEq

/-- `EvalSuite`. -/
structure EvalSuite where
  schemaVersion : Nat
  name : String
  assertions : List TraceAssertion

/-- `EvalSuite::new`. -/
def EvalSuite.new (name : String) (assertions : List TraceAssertion) : EvalSuite where
  schemaVersion := 1
  name
  assertions

/-- `TraceInput`. -/
structure TraceInput where
  streamEvents : List StreamEvent
  durableEvents : List RunEvent
  runStatus : Option DurableRunStatus

/-- `TraceCheck`. -/
structure TraceCheck where
  assertion : String
  passed : Bool
  message : String
  deriving DecidableEq

/-- `EvalResult`. -/
structure EvalResult where
  suite : String
  passed : Bool
  passedChecks : Nat
  totalChecks : Nat
  checks : List TraceCheck
  deriving DecidableEq

/-- The numbers count up from one. -/
def consecutive (sequences : List Nat) : Bool :=
  sequences.zipIdx.all fun entry => entry.1 = entry.2 + 1

/-! ### The blocks of a stream -/

/-- What the loop over the stream keeps: the blocks that are open, and whether all was in order. -/
structure BlockCheck where
  opened : Finset String
  valid : Bool
  deriving DecidableEq

def BlockCheck.start : BlockCheck := ⟨∅, true⟩

/-- One turn of the loop. -/
def BlockCheck.step (check : BlockCheck) : StreamEventKind → BlockCheck
  | .blockStart blockId _ _ =>
    ⟨insert blockId check.opened, check.valid && decide (blockId ∉ check.opened)⟩
  | .blockDelta blockId _ => { check with valid := check.valid && decide (blockId ∈ check.opened) }
  | .blockEnd blockId _ =>
    ⟨check.opened.erase blockId, check.valid && decide (blockId ∈ check.opened)⟩
  | _ => check

/-- Every block that is started is ended, and nothing else is. -/
def blocksBalanced (kinds : List StreamEventKind) : Bool :=
  let check := kinds.foldl BlockCheck.step .start
  check.valid && decide (check.opened = ∅)

/-! ### The attempts and approvals of a log -/

/-- The loop over the completions: no attempt is among those that have completed before. -/
def completionsUnique : List RunEventKind → Finset (String × Nat) → Bool
  | [], _ => true
  | .activityAttemptCompleted activityId attempt _ _ :: rest, completed =>
    decide ((activityId, attempt) ∉ completed) &&
      completionsUnique rest (insert (activityId, attempt) completed)
  | _ :: rest, completed => completionsUnique rest completed

/-- What the loop over the reconciliations keeps. -/
structure ReconciliationCheck where
  opened : Finset (String × Nat)
  resolved : Finset (String × Nat)
  lifecycleValid : Bool
  deriving DecidableEq

def ReconciliationCheck.start : ReconciliationCheck := ⟨∅, ∅, true⟩

/-- One turn of the loop. A set is only written when the test before it held. -/
def ReconciliationCheck.step (check : ReconciliationCheck) : RunEventKind → ReconciliationCheck
  | .activityReconciliationRequired activityId attempt _ =>
    let key := (activityId, attempt)
    if key ∈ check.resolved then { check with lifecycleValid := false }
    else { check with
      opened := insert key check.opened
      lifecycleValid := check.lifecycleValid && decide (key ∉ check.opened) }
  | .activityReconciled activityId attempt _ =>
    let key := (activityId, attempt)
    if key ∈ check.opened then
      { opened := check.opened.erase key
        resolved := insert key check.resolved
        lifecycleValid := check.lifecycleValid && decide (key ∉ check.resolved) }
    else { check with lifecycleValid := false }
  | _ => check

/-- What the loop over the events of one approval keeps. -/
structure ApprovalCheck where
  requested : Bool
  resolution : Option Bool
  lifecycleValid : Bool
  deriving DecidableEq

def ApprovalCheck.start : ApprovalCheck := ⟨false, none, true⟩

/-- One turn of the loop. The first resolution is the one that counts. -/
def ApprovalCheck.step (approvalId : String) (check : ApprovalCheck) : RunEventKind → ApprovalCheck
  | .approvalRequested eventId _ _ _ _ =>
    if eventId = approvalId then
      { check with
        requested := true
        lifecycleValid := check.lifecycleValid && !check.requested && check.resolution.isNone }
    else check
  | .approvalResolved eventId approved _ =>
    if eventId = approvalId then
      { check with
        resolution := check.resolution.or (some approved)
        lifecycleValid := check.lifecycleValid && check.requested && check.resolution.isNone }
    else check
  | _ => check

/-! ### Evaluating a suite -/

/-- `{:?}` of a status. -/
def debugStatus : DurableRunStatus → String
  | .running => "Running"
  | .paused => "Paused"
  | .reconcileRequired => "ReconcileRequired"
  | .completed => "Completed"
  | .failed => "Failed"
  | .cancelled => "Cancelled"

/-- `{:?}` of an optional status. -/
def debugOptionStatus : Option DurableRunStatus → String
  | some status =>
    let name := debugStatus status
    s!"Some({name})"
  | none => "None"

/-- `evaluate_assertion`. -/
def evaluateAssertion (input : TraceInput) : TraceAssertion → TraceCheck
  | .streamSequenceMonotonic =>
    let valid := consecutive (input.streamEvents.map (·.sequence))
    { assertion := "stream_sequence_monotonic"
      passed := valid
      message := if valid then "stream sequence is consecutive"
        else "stream sequence contains a gap or duplicate" }
  | .streamBlocksBalanced =>
    let valid := blocksBalanced (input.streamEvents.map (·.kind))
    { assertion := "stream_blocks_balanced"
      passed := valid
      message := if valid then "every stream block has a valid lifecycle"
        else "stream contains an orphan, duplicate, or unclosed block" }
  | .durableSequenceMonotonic =>
    let valid := consecutive (input.durableEvents.map (·.sequence))
    { assertion := "durable_sequence_monotonic"
      passed := valid
      message := if valid then "durable sequence is consecutive"
        else "durable sequence contains a gap or duplicate" }
  | .noDuplicateActivityCompletion =>
    let valid := completionsUnique (input.durableEvents.map (·.kind)) ∅
    { assertion := "no_duplicate_activity_completion"
      passed := valid
      message := if valid then "activity completions are unique"
        else "the same activity attempt completed more than once" }
  | .allRequiredReconciliationsResolved =>
    let check := (input.durableEvents.map (·.kind)).foldl ReconciliationCheck.step .start
    let unresolved := check.opened.card
    { assertion := "all_required_reconciliations_resolved"
      passed := check.lifecycleValid && decide (unresolved = 0)
      message := if check.lifecycleValid
        then s!"{unresolved} reconciliation requirement(s) remain unresolved"
        else "reconciliation lifecycle is duplicate or out of order" }
  | .approvalResolved approvalId approved =>
    let check := (input.durableEvents.map (·.kind)).foldl (ApprovalCheck.step approvalId) .start
    let valid := check.lifecycleValid && check.requested && decide (check.resolution = some approved)
    { assertion := "approval_resolved"
      passed := valid
      message := if valid then s!"approval '{approvalId}' has the expected resolution"
        else if check.lifecycleValid = false then
          s!"approval '{approvalId}' has a duplicate or out-of-order lifecycle"
        else s!"approval '{approvalId}' is missing or has another resolution" }
  | .runStatus status =>
    let expected := debugStatus status
    let observed := debugOptionStatus input.runStatus
    { assertion := "run_status"
      passed := decide (input.runStatus = some status)
      message := s!"expected {expected}, observed {observed}" }

/-- `evaluate_trace`. -/
def evaluateTrace (suite : EvalSuite) (input : TraceInput) : EvalResult :=
  let checks := suite.assertions.map (evaluateAssertion input)
  let passedChecks := checks.countP (·.passed)
  { suite := suite.name
    passed := !checks.isEmpty && decide (passedChecks = checks.length)
    passedChecks
    totalChecks := checks.length
    checks }

/-- An assertion holds of a trace. -/
def Passes (input : TraceInput) (assertion : TraceAssertion) : Prop :=
  (evaluateAssertion input assertion).passed = true

/-! ### What the loops decide -/

theorem consecutive_iff {sequences : List Nat} :
    consecutive sequences = true ↔ sequences = List.range' 1 sequences.length := by
  unfold consecutive
  rw [List.all_eq_true]
  constructor
  · intro h
    refine List.ext_getElem (by simp) fun i hi _ => ?_
    have hentry := h (sequences[i], i) (List.mem_zipIdx_iff_getElem?.mpr (by simp [hi]))
    rw [List.getElem_range']
    have hvalue : sequences[i] = i + 1 := by simpa using hentry
    omega
  · rintro h ⟨value, i⟩ hmem
    have hget : sequences[i]? = some value := List.mem_zipIdx_iff_getElem?.mp hmem
    rw [h, List.getElem?_eq_some_iff] at hget
    obtain ⟨hi, hvalue⟩ := hget
    rw [List.getElem_range'] at hvalue
    simp only [decide_eq_true_eq]
    omega

/-- The attempt that a kind of event completes. -/
def completionOf : RunEventKind → Option (String × Nat)
  | .activityAttemptCompleted activityId attempt _ _ => some (activityId, attempt)
  | _ => none

theorem completionsUnique_iff {kinds : List RunEventKind} {completed : Finset (String × Nat)} :
    completionsUnique kinds completed = true ↔
      (kinds.filterMap completionOf).Nodup ∧ ∀ key ∈ kinds.filterMap completionOf, key ∉ completed := by
  induction kinds generalizing completed with
  | nil => simp [completionsUnique]
  | cons kind rest ih =>
    have hother (h : completionOf kind = none)
        (hskip : completionsUnique (kind :: rest) completed = completionsUnique rest completed) :
        completionsUnique (kind :: rest) completed = true ↔
          ((kind :: rest).filterMap completionOf).Nodup ∧
            ∀ key ∈ (kind :: rest).filterMap completionOf, key ∉ completed := by
      rw [hskip, List.filterMap_cons_none h]
      exact ih
    cases kind with
    | activityAttemptCompleted activityId attempt output outputHash =>
      have hcons : (RunEventKind.activityAttemptCompleted activityId attempt output outputHash ::
          rest).filterMap completionOf = (activityId, attempt) :: rest.filterMap completionOf := rfl
      rw [completionsUnique, Bool.and_eq_true, decide_eq_true_eq, ih, hcons, List.nodup_cons]
      simp only [Finset.mem_insert, not_or, List.mem_cons, forall_eq_or_imp]
      constructor
      · rintro ⟨hfresh, hnodup, hrest⟩
        exact ⟨⟨fun hmem => (hrest _ hmem).1 rfl, hnodup⟩, hfresh, fun key hkey => (hrest key hkey).2⟩
      · rintro ⟨⟨hnew, hnodup⟩, hfresh, hrest⟩
        exact ⟨hfresh, hnodup, fun key hkey => ⟨fun heq => hnew (heq ▸ hkey), hrest key hkey⟩⟩
    | _ => exact hother rfl rfl

end AikitRuntime.Traces
