import AikitRuntime.Agent.Pairing
import AikitRuntime.Agent.Preparation

/-!
# The recorded transcript

The message with the calls of a turn is recorded before the calls are run, and the message
with their results after the last of them. A run that is stopped in between leaves calls
without results in its transcript, and results that were shown but not recorded.

`Ledger` is what the recorder and the caller have seen. It considers the runs in which that
does not happen: nothing `stops` the run while the calls of a turn are run, no turn names a
call twice, and the provider sends no results of its own.
-/

namespace AikitRuntime.Agent

open Library Durability Streaming Governance

/-- What the recorder and the caller have seen. -/
structure Ledger where
  outcome : RunOutcome
  /-- The results that were shown. -/
  shown : List ContentBlock
  /-- The calls of the last message are being run. -/
  answering : Bool

namespace Ledger

def start : Ledger := ⟨.default, [], false⟩

/-- What an operation and its answer add. After a message with calls, they are being run. -/
def step (l : Ledger) : (op : Op) → op.Answer → Ledger
  | .record (.appendMessage m), _ =>
    { l with outcome := l.outcome.record (.appendMessage m), answering := !m.toolUses.isEmpty }
  | .record entry, _ => { l with outcome := l.outcome.record entry }
  | .yield (.toolResult id content isError), _ =>
    { l with shown := l.shown ++ [.toolResult id content isError] }
  | _, _ => l

end Ledger

/-- The run is stopped: it is cancelled, over its deadline or interrupted, a record is rejected
under `FailClosed`, the driver fails, a durable tool fails, or an error is shown (as when a
result exceeds the retained budget, or a recorded output cannot be decoded). -/
def stops (cfg : RunConfig) : (op : Op) → op.Answer → Bool
  | .currentTermination, trigger => trigger.isSome
  | .deliver _, rejection => rejection.isSome && decide (cfg.audit.failureMode = .failClosed)
  | .authorize _, .error _ => true
  | .authorize _, .ok report => report.interrupt
  | .execute _ _, .error _ => true
  | .execute _ _, .ok (.error _) => cfg.durable
  | .runPostToolUse _, .error _ => true
  | .driver _, .error _ => true
  | .yield (.error _ _), _ => true
  | _, _ => false

/-- The runs that are considered. -/
def Ledger.admits (cfg : RunConfig) (l : Ledger) : (op : Op) → op.Answer → Bool
  | .record (.appendMessage m), _ => decide m.toolUses.Nodup
  | .yield (.toolResult _ _ _), _ => l.answering
  | op, answer => !(l.answering && stops cfg op answer)

/-- The observer of the transcript. -/
def ledger (cfg : RunConfig) : Monitor Op Op.Answer Ledger where
  allows _ _ := True
  admits l op answer := l.admits cfg op answer = true
  step := Ledger.step

instance (cfg : RunConfig) (l : Ledger) (op : Op) (answer : op.Answer) :
    Decidable ((ledger cfg).admits l op answer) := inferInstanceAs (Decidable (_ = true))

variable {l : Ledger}

/-- Nothing stops the run while the calls are run. -/
theorem Ledger.goes_on (hl : l.answering = true) {stopped : Bool}
    (h : (!(l.answering && stopped)) = true) : stopped = false := by
  rw [hl] at h
  simpa using h

variable {cfg : RunConfig}

theorem Ledger.untriggered (hl : l.answering = true)
    {trigger : Option TerminationTrigger} (h : l.admits cfg .currentTermination trigger = true) :
    trigger = none := by
  cases trigger with
  | none => rfl
  | some trigger => exact absurd (Ledger.goes_on hl h) Bool.true_eq_false.mp

/-- Preparation changes nothing that the observer looks at. -/
theorem ledger_eq {cfg' : RunConfig} (h : Prepares cfg cfg') : ledger cfg' = ledger cfg := by
  have hstops : stops cfg' = stops cfg := by
    unfold stops
    rw [h.failureMode, h.durable]
  have hadmits : Ledger.admits cfg' = Ledger.admits cfg := by
    unfold Ledger.admits
    rw [hstops]
  unfold ledger
  rw [hadmits]

/-- The transcript is paired, has every result that was shown, and no calls are being run. -/
structure Ledger.Settled (l : Ledger) : Prop where
  paired : WellPaired l.outcome.messages
  recorded : ∀ block ∈ l.shown, ∃ m ∈ l.outcome.messages, block ∈ m.content
  idle : l.answering = false

/-! ### Parts that keep the transcript -/

/-- The recorded messages stay as they are. -/
def Op.Keeps : Op → Prop
  | .record (.begin _) | .record (.replaceMessages _) | .record (.appendMessage _) => False
  | _ => True

theorem Op.Closes.keeps {S : RunTerminalStatus → Prop} {op : Op} (h : op.Closes S) : op.Keeps := by
  cases op with
  | record entry =>
    cases entry with
    | begin messages => exact h.elim
    | replaceMessages messages => exact h.elim
    | appendMessage m => exact h.elim
    | _ => trivial
  | _ => trivial

theorem Op.Preparing.keeps {op : Op} (h : op.Preparing) : op.Keeps := by
  cases op with
  | record entry => exact h.elim
  | _ => trivial

/-- A part of the run that keeps the transcript. -/
abbrev Keeping {α : Type} (p : Program α) : Prop := Uses Op.Keeps p

section

variable {cfg : RunConfig} {l : Ledger} {c : RunContext} {turn : Nat} {α β ε : Type}

variable {p : Program α}

theorem Closing.keeping {S : RunTerminalStatus → Prop} (h : Closing S p) : Keeping p :=
  Uses.mono h fun _ hop => hop.keeps

theorem Quiet.keeping (h : Quiet p) : Keeping p := (h.closing fun _ => True).keeping

theorem Part.keeping {b : Bool} {x : Flow α} (h : Part Op.Plain b x) : Keeping x.run :=
  Quiet.keeping h.numbered

/-- While no calls are run, an operation that keeps the messages keeps the transcript settled, and
shows no result. -/
theorem Ledger.Settled.step (h : l.Settled) {op : Op} (hop : op.Keeps) {answer : op.Answer}
    (hadmits : l.admits cfg op answer = true) : (l.step op answer).Settled ∧ (l.step op answer).shown = l.shown := by
  cases op with
  | record entry =>
    cases entry with
    | begin messages => exact hop.elim
    | replaceMessages messages => exact hop.elim
    | appendMessage m => exact hop.elim
    | _ => exact ⟨⟨h.paired, h.recorded, h.idle⟩, rfl⟩
  | yield delta =>
    cases delta with
    | toolResult id content isError =>
      have hanswering : l.answering = true := hadmits
      rw [h.idle] at hanswering
      cases hanswering
    | _ => exact ⟨h, rfl⟩
  | _ => exact ⟨h, rfl⟩

theorem Keeping.shows (h : Keeping p) (hl : l.Settled) :
    Holds (ledger cfg) (fun _ l' => l'.Settled ∧ l'.shown = l.shown) p l := by
  refine Uses.holds (I := fun l' : Ledger => l'.Settled ∧ l'.shown = l.shown) h (fun l' op hl' hop => ?_) ⟨hl, rfl⟩
  refine ⟨trivial, fun answer hadmits => ?_⟩
  obtain ⟨hsettled, hshown⟩ := hl'.1.step hop hadmits
  exact ⟨hsettled, hshown.trans hl'.2⟩

theorem Keeping.settled (h : Keeping p) (hl : l.Settled) :
    Holds (ledger cfg) (fun _ l' => l'.Settled) p l :=
  (h.shows hl).mono fun _ _ => And.left

/-- A part with an early exit. -/
theorem Keeping.passes {x : ExceptT ε (Prog Op Op.Answer) α} (h : Keeping x.run) (hl : l.Settled) :
    Passes (ledger cfg) (fun _ l' => l'.Settled ∧ l'.shown = l.shown) (fun _ l' => l'.Settled) x l :=
  (h.shows hl).mono fun _ _ hl' => ⟨fun _ _ => hl', fun _ _ => hl'.1⟩

/-! ### The stream of a turn -/

theorem collect_keeping (t : Turn) (deltas : List StreamDelta) : Keeping (collect cfg turn t deltas) := by
  induction deltas generalizing t with
  | nil => exact .call trivial fun _ => trivial
  | cons delta deltas ih =>
    refine .call trivial fun trigger => ?_
    cases trigger with
    | some trigger => trivial
    | none =>
      dsimp only
      split
      · exact .call trivial fun _ => trivial
      refine (observe_quiet _ delta).keeping.bind fun observed => ?_
      obtain ⟨t', auditError⟩ := observed
      refine .call trivial fun _ => ?_
      cases auditError with
      | some error => exact .call trivial fun _ => trivial
      | none => exact ih t'

theorem emit_keeping {trail : AuditTrail} (event : AuditEvent) : Keeping (trail.emit event) :=
  emit_uses trivial fun _ _ => trivial

theorem openTurn_keeping [ActivityCodec] (messages : List Message) :
    Keeping (openTurn c turn messages).run := by
  refine .call_run trivial fun compacted => ?_
  have hstarted : ∀ event, Keeping (emitOrStop c.trail event).run := by
    intro event
    refine .lift_run (emit_keeping event) fun emitted => ?_
    cases emitted with
    | ok _ => trivial
    | error error => exact (yieldStop_quiet (b := true) _ _).keeping
  exact .then_run (hstarted _) fun _ => .then_run (beginProviderActivity_quiet _).keeping fun _ =>
    .then_run (openStream_quiet (b := true) _ _ _).keeping fun _ => trivial

end

/-! ### Parts of a call -/

section

variable {c : RunContext} {turn : Nat} {l : Ledger} {α β : Type} {Q : β → Ledger → Prop}

/-- This part of a call goes on, with nothing recorded or shown. -/
abbrev Silent (c : RunContext) (x : Flow α) (l : Ledger) : Prop :=
  Passes (ledger c.cfg) (fun _ l' => l' = l) (fun _ _ => False) x l

variable {f : α → Flow β}

theorem Silent.next {x : Flow α} (h : Silent c x l)
    (hf : ∀ a, Passes (ledger c.cfg) Q (fun _ _ => False) (f a) l) :
    Passes (ledger c.cfg) Q (fun _ _ => False) (x >>= f) l := by
  refine h.bind fun a l' heq => ?_
  subst heq
  exact hf a

/-- Neither a recording nor a result. -/
def Op.Unrecorded : Op → Prop
  | .record _ | .yield (.toolResult _ _ _) => False
  | _ => True

variable {p : Program α}

theorem same_of_uses (h : Uses Op.Unrecorded p) :
    Holds (ledger c.cfg) (fun _ l' => l' = l) p l := by
  refine Uses.holds (I := fun l' => l' = l) h (fun l' op heq hop => ⟨trivial, fun answer _ => ?_⟩) rfl
  subst heq
  cases op with
  | record entry => exact hop.elim
  | yield delta =>
    cases delta with
    | toolResult id content isError => exact hop.elim
    | _ => rfl
  | _ => rfl

/-- A program that records and shows nothing, and then the rest. -/
theorem Silent.after (h : Uses Op.Unrecorded p)
    (hf : ∀ a, Passes (ledger c.cfg) Q (fun _ _ => False) (f a) l) :
    Passes (ledger c.cfg) Q (fun _ _ => False) (liftM p >>= f) l :=
  Silent.next (Passes.lift (same_of_uses h)) hf

variable {trail : AuditTrail}

theorem emit_unrecorded (event : AuditEvent) :
    Uses Op.Unrecorded (trail.emit event) := emit_uses trivial fun _ _ => trivial

theorem runFailureHooks_unrecorded (ctx : FailureContext) (terminal : Bool) :
    Uses Op.Unrecorded (runFailureHooks trail ctx terminal) :=
  .call trivial fun _ => (emit_unrecorded _).bind fun _ => trivial

theorem failAttempt_unrecorded (attempt : Option Attempt) (why : String) (ambiguous : Bool) :
    Uses Op.Unrecorded (failAttempt attempt why ambiguous) := by
  cases attempt with
  | none => trivial
  | some attempt => exact .call trivial fun _ => trivial

/-! #### While the calls of a turn are run -/

/-- No error is shown while the calls are run. -/
theorem yieldError_passes (hl : l.answering = true) (message : String) (info : ErrorInfo)
    {f : Unit → Flow β} :
    Passes (ledger c.cfg) Q (fun _ _ => False) (liftM (yieldDelta (.error message info)) >>= f) l :=
  Passes.perform_bind trivial fun _ hadmits => absurd (Ledger.goes_on hl hadmits) Bool.true_eq_false.mp

/-- The driver does not fail while the calls are run. -/
theorem driver_passes (hl : l.answering = true) {call : DriverCall}
    {f : Except DriverError call.Value → Flow β}
    (hf : ∀ a, Passes (ledger c.cfg) Q (fun _ _ => False) (f (.ok a)) l) :
    Passes (ledger c.cfg) Q (fun _ _ => False) (liftM (driver call) >>= f) l := by
  refine Passes.perform_bind trivial fun answer hadmits => ?_
  cases answer with
  | error error => exact absurd (Ledger.goes_on hl hadmits) Bool.true_eq_false.mp
  | ok a => exact hf a

theorem stopIfTerminated_silent (hl : l.answering = true) : Silent c stopIfTerminated l := by
  refine Passes.perform_bind trivial fun trigger hadmits => ?_
  obtain rfl : trigger = none := Ledger.untriggered hl hadmits
  exact Passes.pure rfl

theorem emitOrStop_silent (hl : l.answering = true) (event : AuditEvent) :
    Silent c (emitOrStop c.trail event) l := by
  refine Silent.after (emit_unrecorded event) fun emitted => ?_
  cases emitted with
  | ok _ => exact Passes.pure rfl
  | error error => exact yieldError_passes hl _ _

theorem stopShowing_silent (hl : l.answering = true) (error : AikitError) (reason : String) :
    Passes (ledger c.cfg) Q (fun _ _ => False) (stopShowing (some error) reason) l :=
  yieldError_passes hl _ _

/-- A part that is left with an error shown is not left here. -/
theorem stopAfterFailing_silent (hl : l.answering = true) (reason : String) (attempt : Option Attempt)
    (why : String) (ambiguous : Bool) (error : AikitError) :
    Passes (ledger c.cfg) Q (fun _ _ => False)
      (stopAfterFailing reason attempt why ambiguous (some error)) l := by
  refine Silent.after (failAttempt_unrecorded attempt why ambiguous) fun failed => ?_
  cases failed with
  | ok _ => exact stopShowing_silent hl error reason
  | error commitError => exact yieldError_passes hl _ _

theorem failureMessage_silent (hl : l.answering = true) (ctx : FailureContext) (terminal : Bool) :
    Silent c (failureMessage c.trail ctx terminal) l := by
  refine Silent.after (runFailureHooks_unrecorded ctx terminal) fun failure => ?_
  obtain ⟨message, auditError⟩ := failure
  cases auditError with
  | none => exact Passes.pure rfl
  | some error => exact yieldError_passes hl _ _

theorem chargeResult_silent (hl : l.answering = true) (retained : RetainedRunBudget) (id content : String) :
    Silent c (chargeResult retained id content) l := by
  unfold chargeResult
  split
  · exact Passes.pure rfl
  · exact yieldError_passes hl _ _

theorem rejectToolInput_silent (hl : l.answering = true) (call : ToolCall) (input : Value)
    (reason source : String) : Silent c (rejectToolInput c turn call input reason source) l :=
  (failureMessage_silent hl _ _).next fun _ => (emitOrStop_silent hl _).next fun _ => Passes.pure rfl

theorem postProcess_silent (hl : l.answering = true) (call : ToolCall) (effective : Value)
    (attempt : Option Attempt) (rawOutput : String) :
    Silent c (postProcess c turn call effective attempt rawOutput) l := by
  refine Passes.perform_bind trivial fun durationMs _ => ?_
  refine Passes.perform_bind trivial fun post hadmits => ?_
  cases post with
  | error trigger => exact absurd (Ledger.goes_on hl hadmits) Bool.true_eq_false.mp
  | ok post =>
    refine Silent.after (emit_unrecorded _) fun emitted => ?_
    cases emitted with
    | error error => exact stopAfterFailing_silent hl _ _ _ _ _
    | ok _ =>
      cases post with
      | «continue» => exact Passes.pure rfl
      | rewriteOutput output => exact Passes.pure rfl
      | markError error =>
        refine Silent.after (runFailureHooks_unrecorded _ _) fun failure => ?_
        obtain ⟨message, auditError⟩ := failure
        cases auditError with
        | none => exact Passes.pure rfl
        | some error => exact stopAfterFailing_silent hl _ _ _ _ _

theorem toolFailed_silent (hl : l.answering = true) (call : ToolCall) (attempt : Option Attempt)
    (error : AikitError) : Silent c (toolFailed c turn call attempt error) l := by
  cases attempt with
  | none => exact (failureMessage_silent hl _ _).next fun _ => Passes.pure rfl
  | some attempt => exact driver_passes hl fun _ => yieldError_passes hl _ _

theorem auditCompleted_silent (hl : l.answering = true) (call : ToolCall) (ran isError : Bool)
    (content : String) : Silent c (auditCompleted c turn call ran isError content) l := by
  unfold auditCompleted
  split
  · exact emitOrStop_silent hl _
  · exact Passes.pure rfl

variable [ActivityCodec]

theorem commitToolActivity_silent (hl : l.answering = true) (attempt : Option Attempt)
    (result : String × Bool) : Silent c (commitToolActivity attempt result) l := by
  cases attempt with
  | none => exact Passes.pure rfl
  | some attempt =>
    unfold commitToolActivity
    dsimp only
    split
    · exact stopAfterFailing_silent hl _ _ _ _ _
    · exact driver_passes hl fun _ => Passes.pure rfl

theorem beginToolActivity_silent (hl : l.answering = true) (call : ToolCall) (effective : Value) :
    Silent c (beginToolActivity c turn call effective) l := by
  unfold beginToolActivity
  split
  · exact Passes.pure rfl
  refine driver_passes hl fun activity => ?_
  cases activity with
  | execute activityId attempt => exact Passes.pure rfl
  | reuseCompleted activityId output =>
    dsimp only
    split
    · exact Passes.pure rfl
    · exact yieldError_passes hl _ _

theorem execute_silent (hl : l.answering = true) (call : ToolCall) (effective : Value)
    (attempt : Option Attempt) : Silent c (execute c turn call effective attempt) l := by
  refine Passes.perform_bind trivial fun trigger hadmits => ?_
  obtain rfl : trigger = none := Ledger.untriggered hl hadmits
  refine Passes.perform_bind trivial fun execution hadmits => ?_
  have hafter : Silent c (afterExecution c turn call effective attempt execution) l := by
    match execution with
    | .error trigger => exact absurd (Ledger.goes_on hl hadmits) Bool.true_eq_false.mp
    | .ok (.ok output) => exact postProcess_silent hl _ _ _ _
    | .ok (.error error) => exact toolFailed_silent hl _ _ _
  exact hafter.next fun _ => (commitToolActivity_silent hl _ _).next fun _ => Passes.pure rfl

theorem runAllowed_silent (hl : l.answering = true) (call : ToolCall) (effective : Value)
    (report : AuthorizationReport) : Silent c (runAllowed c turn call effective report) l := by
  refine (emitOrStop_silent hl _).next fun _ => (beginToolActivity_silent hl _ _).next fun begun => ?_
  obtain ⟨attempt, reused⟩ := begun
  refine Silent.after (emit_unrecorded _) fun emitted => ?_
  cases emitted with
  | error error =>
    refine Silent.after (failAttempt_unrecorded _ _ _) fun failed => ?_
    cases failed with
    | ok _ => exact yieldError_passes hl _ _
    | error commitError => exact yieldError_passes hl _ _
  | ok _ =>
    cases reused with
    | some output => exact Passes.pure rfl
    | none => exact (execute_silent hl _ _ _).next fun _ => Passes.pure rfl

theorem authorizeCall_silent (hl : l.answering = true) (call : ToolCall)
    (validator : Value → Except String Unit) : Silent c (authorizeCall c turn call validator) l := by
  refine Passes.perform_bind trivial fun answer hadmits => ?_
  cases answer with
  | error trigger => exact absurd (Ledger.goes_on hl hadmits) Bool.true_eq_false.mp
  | ok report =>
    have hinterrupt : report.interrupt = false := Ledger.goes_on hl hadmits
    refine (stopIfTerminated_silent hl).next fun _ => (emitOrStop_silent hl _).next fun _ => ?_
    rw [hinterrupt, if_neg Bool.false_ne_true]
    unfold applyAuthorization
    split
    · exact (failureMessage_silent hl _ _).next fun _ => (emitOrStop_silent hl _).next fun _ =>
        Passes.pure rfl
    · refine (stopIfTerminated_silent hl).next fun _ => ?_
      split
      · exact (rejectToolInput_silent hl _ _ _ _).next fun _ => Passes.pure rfl
      · exact runAllowed_silent hl _ _ _

/-! #### Results -/

/-- More results are shown. -/
def Ledger.showing (l : Ledger) (blocks : List ContentBlock) : Ledger := { l with shown := l.shown ++ blocks }

/-- These calls were answered by these blocks, each of which was shown. -/
structure Answered (l : Ledger) (calls : List ToolCall) (blocks : List ContentBlock) (l' : Ledger) : Prop where
  ids : blocks.filterMap Message.resultId = calls.map ToolCall.id
  ledger : l' = l.showing blocks

omit [ActivityCodec] in
theorem yieldResult_answers (call : ToolCall) (content : String)
    (isError : Bool) {f : ContentBlock → Flow β}
    (hf : ∀ block l', Answered l [call] [block] l' →
      Passes (ledger c.cfg) Q (fun _ _ => False) (f block) l') :
    Passes (ledger c.cfg) Q (fun _ _ => False) (yieldResult call content isError >>= f) l :=
  Passes.perform_bind trivial fun _ _ => hf _ _ ⟨rfl, rfl⟩

/-- **One call** is answered by one result. -/
theorem runCall_answers (hl : l.answering = true) (call : ToolCall) (retained : RetainedRunBudget) :
    Passes (ledger c.cfg) (fun r l' => Answered l [call] [r.1] l') (fun _ _ => False)
      (runCall c turn call retained) l := by
  refine (stopIfTerminated_silent hl).next fun _ => ?_
  split
  · exact (failureMessage_silent hl _ _).next fun _ => (chargeResult_silent hl _ _ _).next fun _ =>
      (emitOrStop_silent hl _).next fun _ => yieldResult_answers _ _ _ fun _ _ h => Passes.pure h
  split
  · exact (rejectToolInput_silent hl _ _ _ _).next fun _ => (chargeResult_silent hl _ _ _).next fun _ =>
      yieldResult_answers _ _ _ fun _ _ h => Passes.pure h
  · exact (authorizeCall_silent hl _ _).next fun _ => (chargeResult_silent hl _ _ _).next fun _ =>
      (auditCompleted_silent hl _ _ _ _).next fun _ =>
        yieldResult_answers _ _ _ fun _ _ h => Passes.pure h

/-- **The calls of a turn**, by induction. -/
theorem runCalls_answers (hl : l.answering = true) (calls : List ToolCall) (retained : RetainedRunBudget) :
    Passes (ledger c.cfg) (fun r l' => Answered l calls r.1 l') (fun _ _ => False)
      (runCalls c turn calls retained) l := by
  induction calls generalizing l retained with
  | nil =>
    refine Passes.pure ⟨rfl, ?_⟩
    unfold Ledger.showing
    rw [List.append_nil]
  | cons call calls ih =>
    refine (runCall_answers hl call retained).bind fun result l' hcall => ?_
    obtain ⟨block, retained⟩ := result
    obtain ⟨hid, rfl⟩ := hcall
    refine (ih (l := l.showing [block]) hl retained).bind fun results l' hcalls => ?_
    obtain ⟨blocks, retained⟩ := results
    obtain ⟨hids, rfl⟩ := hcalls
    refine Passes.pure ⟨?_, ?_⟩
    · show ([block] ++ blocks).filterMap _ = [call.id] ++ calls.map ToolCall.id
      rw [List.filterMap_append, hid, hids]
      rfl
    · show Ledger.showing (Ledger.showing l [block]) blocks = l.showing ([block] ++ blocks)
      unfold Ledger.showing
      rw [List.append_assoc]

end

/-! ### Turns -/

variable {α β γ : Type}

theorem filterMap_map_nil {f : β → Option γ} {g : α → β} (h : ∀ a, f (g a) = none) (as : List α) :
    (as.map g).filterMap f = [] := by
  rw [List.filterMap_map]
  exact List.filterMap_eq_nil_iff.mpr fun a _ => h a

/-- An assistant message has the calls of its turn, and no results. -/
theorem assistantMessage_sides (cfg : RunConfig) (t : Turn) (calls : List ToolCall) :
    (assistantMessage cfg t calls).sides = (calls.map ToolCall.id, []) := by
  have hread : ∀ read : ContentBlock → Option String, (∀ text, read (.text text) = none) →
      (∀ text signature provider opaqueData, read (.reasoning text signature provider opaqueData) = none) →
      (∀ text source metadata, read (.citation text source metadata) = none) →
      (assistantMessage cfg t calls).content.filterMap read =
        (calls.map fun call => ContentBlock.toolUse call.id call.name call.input).filterMap read := by
    intro read htext hreasoning hcitation
    have hplain : (if t.text = "" then [] else [ContentBlock.text t.text]).filterMap read = [] := by
      split
      · rfl
      · rw [List.filterMap_cons_none (htext t.text), List.filterMap_nil]
    unfold assistantMessage
    dsimp only
    rw [List.filterMap_append, List.filterMap_append, List.filterMap_append, hplain,
      filterMap_map_nil fun _ => hreasoning _ _ _ _, filterMap_map_nil fun _ => hcitation _ _ _]
    rfl
  refine Prod.ext ?_ ?_
  · refine (hread Message.useId (fun _ => rfl) (fun _ _ _ _ => rfl) fun _ _ _ => rfl).trans ?_
    rw [List.filterMap_map]
    exact congrFun (List.filterMap_eq_map (f := ToolCall.id)) calls
  · exact (hread Message.resultId (fun _ => rfl) (fun _ _ _ _ => rfl) fun _ _ _ => rfl).trans
      (filterMap_map_nil (fun _ => rfl) calls)

section

variable {c : RunContext} {turn : Nat} {l : Ledger}

variable {calls : List String} {m : Message}

/-- A settled transcript goes on with a message that has no results. -/
theorem Ledger.Settled.append (h : l.Settled)
    (hsides : m.sides = (calls, [])) (hcalls : calls = []) :
    (l.step (.record (.appendMessage m)) ()).Settled := by
  obtain ⟨huses, hresults⟩ := Prod.mk.inj hsides
  refine ⟨?_, fun block hblock => ?_, ?_⟩
  · refine WellPaired.append h.paired ⟨?_, ?_⟩
    · rw [hresults]
      exact answers_nil.mpr rfl
    · rw [huses]
      exact hcalls
  · obtain ⟨m', hm', hmem⟩ := h.recorded block hblock
    exact ⟨m', List.mem_append_left _ hm', hmem⟩
  · show (!m.toolUses.isEmpty) = false
    rw [huses, hcalls]
    rfl

/-- A message with calls, and then the message with their results. -/
theorem Ledger.Settled.answer (h : l.Settled)
    (hsides : m.sides = (calls, [])) (hdistinct : calls.Nodup) {blocks : List ContentBlock}
    (hids : blocks.filterMap Message.resultId = calls) :
    (((l.step (.record (.appendMessage m)) ()).showing blocks).step
      (.record (.appendMessage ⟨.tool, blocks⟩)) ()).Settled := by
  obtain ⟨huses, hresults⟩ := Prod.mk.inj hsides
  refine ⟨?_, fun block hblock => ?_, rfl⟩
  · show WellPaired (l.outcome.messages ++ [m] ++ [⟨.tool, blocks⟩])
    rw [List.append_assoc]
    refine WellPaired.append h.paired ⟨?_, ?_, rfl⟩
    · rw [hresults]
      exact answers_nil.mpr rfl
    · show Answers m.toolUses (blocks.filterMap Message.resultId)
      rw [huses, hids]
      exact answers_self hdistinct
  · show ∃ m' ∈ l.outcome.messages ++ [m] ++ [⟨.tool, blocks⟩], block ∈ m'.content
    rcases List.mem_append.mp hblock with hshown | hnew
    · obtain ⟨m', hm', hmem⟩ := h.recorded block hshown
      exact ⟨m', List.mem_append_left _ (List.mem_append_left _ hm'), hmem⟩
    · exact ⟨⟨.tool, blocks⟩, List.mem_append_right _ List.mem_cons_self, hnew⟩

variable [ActivityCodec]

theorem runTools_settles (hl : l.Settled) (messages : List Message) (t : Turn) (calls : List ToolCall) :
    Passes (ledger c.cfg) (fun _ l' => l'.Settled) (fun _ l' => l'.Settled)
      (runTools c turn messages t calls) l := by
  have hsides := assistantMessage_sides c.cfg t calls
  refine Passes.perform_bind trivial fun _ hadmits => ?_
  have huses : (assistantMessage c.cfg t calls).toolUses = calls.map ToolCall.id :=
    congrArg Prod.fst hsides
  have hdistinct : (calls.map ToolCall.id).Nodup := huses ▸ of_decide_eq_true hadmits
  by_cases hcalls : calls = []
  · rw [if_pos hcalls]
    have hsettled := hl.append hsides (by rw [hcalls]; rfl)
    exact Passes.perform_bind trivial fun _ _ => Passes.throw ⟨hsettled.1, hsettled.2, hsettled.3⟩
  · rw [if_neg hcalls]
    have hanswering : (l.step (.record (.appendMessage (assistantMessage c.cfg t calls))) ()).answering = true := by
      show (!(assistantMessage c.cfg t calls).toolUses.isEmpty) = true
      rw [huses]
      simpa using hcalls
    refine ((runCalls_answers hanswering calls t.retained).weaken fun _ _ => False.elim).bind fun results l' h => ?_
    obtain ⟨blocks, retained⟩ := results
    obtain ⟨hids, rfl⟩ := h
    exact Passes.perform_bind trivial fun _ _ => Passes.pure (hl.answer hsides hdistinct hids)

/-- **One turn** leaves the transcript settled, however it ends. -/
theorem runTurn_settles (hl : l.Settled) (vars : Vars) :
    Holds (ledger c.cfg) (fun _ l' => l'.Settled) (runTurn c turn vars) l := by
  refine Passes.run_bind ((openTurn_keeping vars.messages).passes hl) (fun opened l' hl' => ?_)
    fun stop l' hl' => Holds.pure hl'
  obtain ⟨messages, attempt, deltas⟩ := opened
  refine Holds.bind ((collect_keeping _ deltas).settled hl'.1) fun collected l' hl' => ?_
  obtain ⟨t, trigger⟩ := collected
  have hended : Passes (ledger c.cfg) (fun _ l' => l'.Settled) (fun _ l' => l'.Settled) (do
      let calls ← finishStream c turn attempt t trigger
      runTools c turn messages t calls) l' :=
    Passes.bind ((finishStream_quiet (b := true) attempt t trigger).keeping.passes hl') fun calls _ hl'' =>
      runTools_settles hl''.1 messages t calls
  exact Passes.run_bind hended (fun _ _ hl'' => Holds.pure hl'') fun _ _ hl'' => Holds.pure hl''

/-- **The loop**, by induction on the turns that may still be run. -/
theorem agentLoop_settles (hl : l.Settled) (remaining : Nat) (vars : Vars) :
    Holds (ledger c.cfg) (fun _ l' => l'.Settled) (agentLoop c remaining vars) l := by
  induction remaining generalizing vars l with
  | zero =>
    unfold agentLoop
    refine Passes.run_bind ((stopIfTerminated_quiet (b := true)).keeping.passes hl) (fun _ l' hl' => ?_)
      fun stop l' hl' => Holds.pure hl'
    exact Holds.bind (exceedMaxTurns_quiet.keeping.settled hl'.1) fun _ _ hl'' => Holds.pure hl''
  | succ remaining ih =>
    unfold agentLoop
    refine Passes.run_bind ((stopIfTerminated_quiet (b := true)).keeping.passes hl) (fun _ l' hl' => ?_)
      fun stop l' hl' => Holds.pure hl'
    refine Holds.bind (runTurn_settles hl'.1 vars) fun ended l'' hl'' => ?_
    cases ended with
    | error exit => exact Holds.pure hl''
    | ok vars' => exact ih hl'' vars'

end

/-! ### The whole run -/

section

variable {cfg : RunConfig} {lifecycle : Option Lifecycle} {l : Ledger}

theorem emitRunStarted_keeping : Keeping (emitRunStarted cfg lifecycle) := by
  refine (emit_keeping _).bind fun emitted => ?_
  cases emitted with
  | ok _ => trivial
  | error error =>
    refine .call trivial fun _ => ?_
    cases lifecycle with
    | none => trivial
    | some lifecycle =>
      refine .call trivial fun failed => ?_
      cases failed with
      | ok _ => trivial
      | error commitError => exact .call trivial fun _ => trivial

theorem startTools_keeping [JsonSchema] : Keeping (startTools cfg) := by
  unfold startTools
  split
  · trivial
  · exact (terminalFailure_quiet _ _ _).keeping.bind fun _ => .call trivial fun _ => trivial

theorem startBudget_keeping : Keeping startBudget := by
  refine .call trivial fun tracker => ?_
  cases tracker with
  | ok _ => trivial
  | error error => exact .call trivial fun _ => trivial

/-- The prompt is rewritten before any result is shown. -/
theorem startPrompt_settles (hl : l.Settled) (hshown : l.shown = []) (hpaired : WellPaired cfg.messages) :
    Holds (ledger cfg) (fun _ l' => l'.Settled) (startPrompt cfg) l := by
  unfold startPrompt
  split
  · exact Holds.pure hl
  refine Holds.perform_bind trivial fun outcome _ => ?_
  match outcome with
  | .error trigger => exact Holds.pure hl
  | .ok .continue => exact Holds.pure hl
  | .ok (.rewrite replacement) =>
    refine Holds.perform_bind trivial fun _ _ => Holds.pure ⟨wellPaired_rewrite replacement hpaired, ?_, hl.idle⟩
    show ∀ block ∈ l.shown, _
    rw [hshown]
    exact fun _ hblock => absurd hblock List.not_mem_nil
  | .ok (.block reason) =>
    refine Holds.bind ((terminalFailure_quiet _ _ _).keeping.settled hl) fun failure l' hl' => ?_
    exact Holds.perform_bind trivial fun _ _ => Holds.pure hl'

theorem openLifecycle_keeping : Keeping (openLifecycle cfg) := by
  have hfailed : ∀ error, Keeping (preflightFailed error) := fun error =>
    (failOutcome_closing (S := fun _ => True) trivial error _).keeping.bind fun _ => trivial
  unfold openLifecycle
  split
  · exact hfailed _
  refine .call trivial fun begun => ?_
  match begun with
  | .error error => exact hfailed _
  | .ok (.reuseCompleted _ _) => exact hfailed _
  | .ok (.execute activityId attempt) =>
    refine .call trivial fun disposition => ?_
    have hclosed : ∀ disposition : Disposition, Keeping (do
        closeUnstarted ⟨activityId, attempt⟩ disposition
        pure (none : Option Lifecycle)) := fun disposition =>
      (closeUnstarted_closing (S := fun _ => True) trivial fun _ _ => trivial).keeping.bind fun _ => trivial
    cases disposition with
    | error error => exact hfailed _
    | ok disposition =>
      have hend := hclosed disposition
      cases disposition with
      | execute => trivial
      | _ => exact hend

variable [JsonSchema] [ActivityCodec]

theorem runLoop_settles (hl : l.Settled) (hshown : l.shown = []) (hpaired : WellPaired cfg.messages) :
    Holds (ledger cfg) (fun _ l' => l'.Settled) (runLoop cfg lifecycle) l := by
  have hstart : Passes (ledger cfg) (fun _ l' => l'.Settled) (fun _ l' => l'.Settled)
      (startRun cfg lifecycle) l := by
    refine (Keeping.passes (x := ExceptT.mk (emitRunStarted cfg lifecycle)) emitRunStarted_keeping hl).bind
      fun _ l' hl' => ?_
    refine (Keeping.passes (x := ExceptT.mk (startTools cfg)) startTools_keeping hl'.1).bind
      fun validators l'' hl'' => ?_
    refine (Keeping.passes (x := ExceptT.mk startBudget) startBudget_keeping hl''.1).bind
      fun _ l3 hl3 => ?_
    refine Passes.perform_bind trivial fun trigger _ => ?_
    cases trigger with
    | some trigger => exact Passes.throw hl3.1
    | none =>
      have hunshown : l3.shown = [] := by rw [hl3.2, hl''.2, hl'.2, hshown]
      have hprompt := startPrompt_settles hl3.1 hunshown hpaired
      exact Passes.bind (Holds.mono hprompt fun _ _ h => ⟨fun _ _ => h, fun _ _ => h⟩) fun _ _ h => Passes.pure h
  refine Passes.run_bind hstart (fun started l' hl' => ?_) fun reason l' hl' => Holds.pure hl'
  exact agentLoop_settles (c := ⟨cfg, lifecycle, started.1⟩) hl' _ _

theorem runExecuting_settles (hl : l.Settled) (hshown : l.shown = []) (hpaired : WellPaired cfg.messages) :
    Holds (ledger cfg) (fun _ l' => l'.Settled) (runExecuting cfg) l := by
  have hend : ∀ (lifecycle : Option Lifecycle) (exit : Exit), Keeping (closeRun cfg lifecycle exit) :=
    fun lifecycle exit => (closeRun_closing (S := fun _ => True) (fun _ => trivial) exit).keeping
  unfold runExecuting
  split
  · refine Holds.bind (openLifecycle_keeping.shows hl) fun lifecycle l' hl' => ?_
    cases lifecycle with
    | none => exact Holds.pure hl'.1
    | some lifecycle =>
      exact Holds.bind (runLoop_settles hl'.1 (hl'.2.trans hshown) hpaired) fun exit _ hl'' =>
        (hend _ exit).settled hl''
  · exact Holds.bind (runLoop_settles hl hshown hpaired) fun exit _ hl'' => (hend _ exit).settled hl''

theorem runPrepared_settles (hl : l.Settled) (hshown : l.shown = []) (hpaired : WellPaired cfg.messages) :
    Holds (ledger cfg) (fun _ l' => l'.Settled) (runPrepared cfg) l := by
  unfold runPrepared
  split
  · exact (failOutcome_closing (S := fun _ => True) trivial _ _).keeping.settled hl
  split
  · exact runExecuting_settles hl hshown hpaired
  · exact (endUnstarted_closing (S := fun _ => True) trivial fun _ _ => trivial).keeping.settled hl

theorem runAgent_settles (hpaired : WellPaired cfg.messages) :
    Holds (ledger cfg) (fun _ l' => l'.Settled) (runAgent cfg) .start := by
  refine Holds.perform_bind trivial fun _ _ => ?_
  have hbegun : Ledger.Settled (.step .start (.record (.begin cfg.messages)) ()) :=
    ⟨hpaired, fun _ hblock => absurd hblock List.not_mem_nil, rfl⟩
  have hclaimed : Holds (ledger cfg) (fun _ l' => l'.Settled) (runClaimed cfg)
      (.step .start (.record (.begin cfg.messages)) ()) := by
    have hclassify : Keeping (classify cfg) := classify_uses.mono fun _ => Op.Preparing.keeps
    refine Holds.bind ((hclassify.shows hbegun).and_returns classify_returns) fun cfg' l' h => ?_
    obtain ⟨⟨hl', hshown⟩, hprepares⟩ := h
    rw [← ledger_eq hprepares]
    exact runPrepared_settles hl' hshown (hprepares.messages ▸ hpaired)
  split
  · refine Holds.perform_bind trivial fun claimed _ => ?_
    cases claimed with
    | error error => exact (failOutcome_closing (S := fun _ => True) trivial _ _).keeping.settled hbegun
    | ok _ => exact hclaimed
  · exact hclaimed

/-- **The recorded transcript**: a run that nothing stops while the calls of a turn are run, whose
turns name their calls apart and whose provider sends no results, leaves a paired transcript
with every result that was shown. -/
theorem transcript_wellPaired (cfg : RunConfig) (hpaired : WellPaired cfg.messages) {tr : Trace}
    (h : Path Prog.Step (runAgent cfg) tr (.ret ())) (hruns : (ledger cfg).Admitted .start tr) :
    WellPaired ((ledger cfg).after .start tr).outcome.messages ∧
      ∀ block ∈ ((ledger cfg).after .start tr).shown,
        ∃ m ∈ ((ledger cfg).after .start tr).outcome.messages, block ∈ m.content := by
  have hsettled := (runAgent_settles hpaired).result h hruns
  exact ⟨hsettled.paired, hsettled.recorded⟩

end

/-- A result was shown. -/
def answered (tr : Trace) : Bool := tr.any fun event => match event.op with
  | .yield (.toolResult _ _ _) => true
  | _ => false

/-- The sample run with its two turns: one with a call, and one without. -/
def sampleTurns : Trace × Program Unit :=
  Prog.exec (fun tr op => some (smooth (if answered tr then plainDeltas "end_turn" else sampleDeltas) op))
    (sampleRun sampleConfig) []

theorem transcript_wellPaired_sample :
    WellPaired ((ledger sampleConfig).after .start sampleTurns.1).outcome.messages := by
  have hpath : Path Prog.Step (sampleRun sampleConfig) sampleTurns.1 sampleTurns.2 := Prog.exec_path _ _
  have hret : sampleTurns.2 = .ret () := Prog.eq_ret_of_isRet (by decide +kernel)
  rw [hret] at hpath
  exact (@transcript_wellPaired emptySchema noCodec sampleConfig (by decide) _ hpath (by decide +kernel)).1

/-- A turn with two calls. -/
def twoCalls : List StreamDelta :=
  [.toolCallStart "call-1" "echo", .toolCallInput "call-1" (.string "hi"),
    .toolCallStart "call-2" "echo", .toolCallInput "call-2" (.string "ho"), .messageStop "tool_use"]

/-- A caller that cancels when it has seen a result. -/
def cancelsAfterResult (tr : Trace) : (op : Op) → op.Answer
  | .currentTermination => if answered tr then some .externalCancellation else none
  | op => smooth twoCalls op

/-- The sample run with such a caller. -/
def sampleCancelled : Trace × Program Unit :=
  Prog.exec (fun tr op => some (cancelsAfterResult tr op)) (sampleRun sampleConfig) []

/-- **A stop between the calls and their results**: the transcript of a run that is cancelled after
the first of two calls has two calls and no results, and misses the one that was shown. -/
theorem not_transcript_wellPaired :
    (¬ ∀ (cfg : RunConfig) (tr : Trace), WellPaired cfg.messages →
      Path Prog.Step (sampleRun cfg) tr (.ret ()) →
      WellPaired ((ledger cfg).after .start tr).outcome.messages) ∧
    ¬ ∀ (cfg : RunConfig) (tr : Trace), WellPaired cfg.messages →
      Path Prog.Step (sampleRun cfg) tr (.ret ()) →
      ∀ block ∈ ((ledger cfg).after .start tr).shown,
        ∃ m ∈ ((ledger cfg).after .start tr).outcome.messages, block ∈ m.content := by
  have hpath : Path Prog.Step (sampleRun sampleConfig) sampleCancelled.1 sampleCancelled.2 :=
    Prog.exec_path _ _
  have hret : sampleCancelled.2 = .ret () := Prog.eq_ret_of_isRet (by decide +kernel)
  rw [hret] at hpath
  refine ⟨fun h => ?_, fun h => ?_⟩
  · exact absurd (h sampleConfig _ (by decide) hpath) (by decide +kernel)
  · exact absurd (h sampleConfig _ (by decide) hpath) (by decide +kernel)

end AikitRuntime.Agent
