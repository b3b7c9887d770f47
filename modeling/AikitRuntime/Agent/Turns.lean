import AikitRuntime.Agent.Safety

/-!
# The turns of a run

The stream of a turn, the turn, and the loop, in the eyes of the observer. While a stream is
consumed its faults are only noted in the variables (`Polling`); they are looked at when it is
over, and a turn that goes on to its calls had none.
-/

namespace AikitRuntime.Agent

open Library Durability Streaming Governance

variable [JsonSchema] [ActivityCodec] {c : RunContext} {turn : Nat} {w : Watch}

/-! ### The stream of a turn -/

/-- The stream of a turn is being consumed. -/
structure Polling (turn : Nat) (t : Turn) (w : Watch) : Prop where
  tracks : Tracks t
  polled : w.polled = t.deltas
  /-- Every fault is in the variables, to be looked at when the stream is over. -/
  running : t.streamError = none → t.budgetError = none → w.halted = false
  refused : t.budgetError.isSome = true → w.overBudget = true
  atTurn : w.turn = turn
  executed : w.executed = []

/-- The stream is over, or the run was ended first. -/
def Collected (cfg : RunConfig) (turn : Nat) : Turn × Option TerminationTrigger → Watch → Prop
  | (_, some trigger), w => w.Lasts cfg trigger.terminalReason
  | (t, none), w => t.streamError = none → Polling turn t w ∧ w.complete = true

variable {cfg : RunConfig} {t : Turn}

omit [JsonSchema] [ActivityCodec] in
theorem Collected.of_error {error : String × ErrorInfo}
    (h : t.streamError = some error) : Collected cfg turn (t, none) w := by
  intro hnone
  rw [h] at hnone
  cases hnone

omit [JsonSchema] [ActivityCodec] in
theorem Polling.absorb (h : Polling turn t w) (cfg : RunConfig) (delta : StreamDelta)
    (retained : RetainedRunBudget) :
    Polling turn (Turn.absorb cfg { t with deltas := t.deltas ++ [delta], retained } delta)
      { w with polled := w.polled ++ [delta] } where
  tracks := h.tracks.absorb delta retained
  polled := by rw [Turn.absorb_deltas, h.polled]
  running hstream hbudget := by
    rw [Turn.absorb_budgetError] at hbudget
    have hclean := Turn.streamError_of_absorb hstream
    exact h.running hclean hbudget
  refused := by
    rw [Turn.absorb_budgetError]
    exact h.refused
  atTurn := h.atTurn
  executed := h.executed

omit [JsonSchema] [ActivityCodec] in
/-- A delta that proposes nothing, and the budget error it may bring. -/
theorem Polling.plain {t' : Turn} {delta : StreamDelta} (h : Polling turn t w)
    (hplain : PlainDelta delta) (hdeltas : t'.deltas = t.deltas ++ [delta])
    (hcalls : t'.toolCalls = t.toolCalls) (hindex : t'.indexById = t.indexById)
    (herror : t'.streamError = none → t.streamError = none ∧ ∀ calls, ¬ FaultyDelta calls delta)
    (hstop : t'.modelStopReason = (stopReasonOf delta).or t.modelStopReason)
    (refused : Option String) (hbudget : t'.budgetError = refused.or t.budgetError) :
    Polling turn t' (Watch.refuse { w with polled := w.polled ++ [delta] } refused) := by
  have htracks := h.tracks.plain hplain hdeltas hcalls hindex herror hstop
  have hpolled : w.polled ++ [delta] = t'.deltas := by rw [hdeltas, h.polled]
  cases refused with
  | none =>
    refine ⟨htracks, hpolled, fun hstream hnone => ?_, fun hsome => ?_, h.atTurn, h.executed⟩
    · exact h.running (herror hstream).1 (by rwa [hbudget] at hnone)
    · exact h.refused (by rwa [hbudget] at hsome)
  | some error =>
    refine ⟨htracks, hpolled, fun _ hnone => ?_, fun _ => rfl, h.atTurn, h.executed⟩
    rw [hbudget] at hnone
    cases hnone

omit [ActivityCodec] in
/-- A usage report: whether it was audited, and whether it exceeded the budget. -/
theorem reportUsage_holds {trail : AuditTrail}
    (hmode : trail.failureMode = cfg.audit.failureMode) (usage : Usage) :
    Holds (watch cfg) (fun r w' => r.1 = none → w' = w.refuse r.2)
      (reportUsage trail turn usage) w := by
  have husage : (AuditEvent.usage turn usage).Plain := trivial
  refine Holds.bind (emit_succeeds hmode husage) fun emitted w' h => ?_
  cases emitted with
  | error error => exact Holds.pure fun hnone => by cases hnone
  | ok _ =>
    obtain rfl := h.2 _ rfl
    refine Holds.perform_bind trivial fun answer _ => ?_
    refine Holds.bind (emit_succeeds hmode (by trivial)) fun emitted w'' h => ?_
    cases emitted with
    | error error => exact Holds.pure fun hnone => by cases hnone
    | ok _ => exact Holds.pure fun _ => h.2 _ rfl

omit [ActivityCodec] in
theorem observe_holds {retained : RetainedRunBudget} (h : Polling turn t w)
    (delta : StreamDelta) :
    Holds (watch c.cfg) (fun r w' => r.2 = none → Polling turn r.1 w' ∧
        ∀ message info, delta = .error message info → r.1.streamError ≠ none)
      (observe c.cfg turn { t with deltas := t.deltas ++ [delta], retained } delta)
      { w with polled := w.polled ++ [delta] } := by
  have hsame : ∀ t' : Turn, t'.deltas = t.deltas ++ [delta] → t'.toolCalls = t.toolCalls →
      t'.indexById = t.indexById → t'.streamError = t.streamError → t'.budgetError = t.budgetError →
      t'.modelStopReason = (stopReasonOf delta).or t.modelStopReason → PlainDelta delta → (∀ calls, ¬ FaultyDelta calls delta) →
      Polling turn t' { w with polled := w.polled ++ [delta] } := by
    intro t' hdeltas hcalls hindex hstream hbudget hstop hplain hfault
    exact h.plain hplain hdeltas hcalls hindex (fun hnone => ⟨hstream ▸ hnone, hfault⟩) hstop none hbudget
  have habsorb := h.absorb c.cfg delta retained
  cases delta with
  | messageStart model =>
    show Holds _ _ (if _ then _ else _) _
    split
    · refine Holds.pure fun _ => ⟨?_, fun _ _ heq => by cases heq⟩
      exact hsame _ rfl rfl rfl rfl rfl rfl (by trivial) fun _ => not_false
    · refine Holds.perform_bind trivial fun _ _ => Holds.pure fun _ => ⟨?_, fun _ _ heq => by cases heq⟩
      exact hsame _ rfl rfl rfl rfl rfl rfl (by trivial) fun _ => not_false
  | providerMetadata provider metadata =>
    refine Holds.perform_bind trivial fun _ _ => Holds.pure fun _ => ⟨?_, fun _ _ heq => by cases heq⟩
    exact hsame _ rfl rfl rfl rfl rfl rfl (by trivial) fun _ => not_false
  | warning warning =>
    refine Holds.perform_bind trivial fun _ _ => Holds.pure fun _ => ⟨?_, fun _ _ heq => by cases heq⟩
    exact hsame _ rfl rfl rfl rfl rfl rfl (by trivial) fun _ => not_false
  | usage usage =>
    refine Holds.bind (reportUsage_holds rfl usage) fun report w' hreport => ?_
    obtain ⟨auditError, budgetError⟩ := report
    refine Holds.pure fun hnone => ⟨?_, fun _ _ heq => by cases heq⟩
    rw [hreport hnone]
    have hclean : ∀ calls, ¬ FaultyDelta calls (.usage usage) := fun _ => not_false
    refine h.plain ?_ ?_ ?_ ?_ ?_ ?_ budgetError ?_
    · trivial
    · rfl
    · rfl
    · rfl
    · exact fun hstream => ⟨hstream, hclean⟩
    · rfl
    · rfl
  | error message info =>
    refine Holds.pure fun _ => ⟨habsorb, fun _ _ _ hnone => by cases hnone⟩
  | _ => exact Holds.pure fun _ => ⟨habsorb, fun _ _ heq => by cases heq⟩

omit [JsonSchema] [ActivityCodec] in
/-- The delta is forwarded. An error is in the variables by then. -/
theorem Polling.forward (h : Polling turn t w) (mode : AuditFailureMode)
    {delta : StreamDelta} (herror : ∀ message info, delta = .error message info → t.streamError ≠ none) :
    Polling turn t (w.step mode (.yield delta) ()) := by
  cases delta with
  | error message info => exact ⟨h.1, h.2, fun hnone _ => (herror _ _ rfl hnone).elim, h.4, h.5, h.6⟩
  | _ => exact h

omit [ActivityCodec] in
/-- **The stream loop**, by induction on the deltas that are left. -/
theorem collect_holds (h : Polling turn t w) (deltas : List StreamDelta) :
    Holds (watch c.cfg) (Collected c.cfg turn) (collect c.cfg turn t deltas) w := by
  induction deltas generalizing t w with
  | nil =>
    refine Holds.perform_bind trivial fun trigger _ => ?_
    cases trigger with
    | some trigger => exact Holds.pure (w.lasts_trip trigger)
    | none => exact Holds.pure fun _ => ⟨⟨h.1, h.2, h.3, h.4, h.5, h.6⟩, rfl⟩
  | cons delta deltas ih =>
    refine Holds.perform_bind trivial fun trigger _ => ?_
    cases trigger with
    | some trigger => exact Holds.pure (w.lasts_trip trigger)
    | none =>
      dsimp only
      split
      · exact Holds.perform_bind trivial fun _ _ => Holds.pure (Collected.of_error rfl)
      next retained _ =>
        refine Holds.bind (observe_holds h delta) fun result w' hobserved => ?_
        obtain ⟨t', auditError⟩ := result
        refine Holds.perform_bind trivial fun _ _ => ?_
        cases auditError with
        | some error => exact Holds.perform_bind trivial fun _ _ => Holds.pure (Collected.of_error rfl)
        | none =>
          obtain ⟨hpolling, herror⟩ := hobserved rfl
          exact ih (hpolling.forward _ herror)

theorem settleProviderActivity_holds (attempt : Attempt) (t : Turn) :
    Holds (watch c.cfg) (fun _ w' => w' = w) (settleProviderActivity attempt t) w := by
  unfold settleProviderActivity
  split
  · exact Holds.perform_bind trivial fun _ _ => Holds.pure rfl
  split
  · exact Holds.pure rfl
  · exact Holds.perform_bind trivial fun _ _ => Holds.pure rfl

theorem commitProviderActivity_keeps (attempt : Option Attempt) (t : Turn) :
    Keeps c.cfg (commitProviderActivity attempt t) w := by
  cases attempt with
  | none => exact Passes.pure rfl
  | some attempt =>
    refine Passes.bind (Passes.lift (settleProviderActivity_holds attempt t)) fun committed w' heq => ?_
    cases committed with
    | ok _ => exact Passes.pure heq
    | error error => exact failStop_passes (by decide) _

omit [ActivityCodec] in
theorem recordModelAttempt_holds (t : Turn) :
    Holds (watch c.cfg) (fun _ w' => w' = w) (recordModelAttempt c.cfg t) w := by
  unfold recordModelAttempt
  split
  · exact Holds.pure rfl
  · exact Holds.perform trivial fun _ _ => rfl

omit [JsonSchema] [ActivityCodec] in
/-- A budget error explains its reason. -/
theorem lasts_budget (h : w.overBudget = true) : w.Lasts cfg "budget_exceeded" := by
  have hstatus : recordedTerminalStatus "budget_exceeded" = .budgetExceeded := by decide
  refine ⟨?_, .inr ?_⟩
  · rw [hstatus]
    intro heq
    cases heq
  · rw [hstatus]
    exact h

omit [ActivityCodec] in
theorem stopWithStreamError_passes {α : Type} {Q : α → Watch → Prop} (rawError : String)
    (info : ErrorInfo) :
    Passes (watch c.cfg) Q (Left c.cfg) (stopWithStreamError c turn rawError info) w := by
  have hfailed : w.Lasts c.cfg "provider_stream_error" := .of_failed (by decide)
  refine Passes.bind (Passes.lift (terminalFailure_holds hfailed _ info)) fun failure w' h => ?_
  refine (showReworded_quiet _ _).next fun _ w'' hgrows => stopWith_passes ?_
  split
  · exact .of_failed (by decide)
  · exact (h.2.grows hgrows).accounts

/-- A turn may run these calls, and its stop reason is the final one of its deltas. -/
def Checked (c : RunContext) (turn : Nat) (t : Turn) (calls : List ToolCall) (w : Watch) : Prop :=
  Ready c turn [] calls w ∧ t.modelStopReason = finalStopReason w.polled

omit [ActivityCodec] in
/-- A turn whose stream is over without an error is ready for its calls. -/
theorem turnCalls_passes (h : Collected c.cfg turn (t, none) w)
    (hwithin : turn ≤ c.cfg.maxTurns) :
    Passes (watch c.cfg) (Checked c turn t) (Left c.cfg) (turnCalls c turn t) w := by
  unfold turnCalls
  split
  · exact stopWithStreamError_passes _ _
  next hstream =>
    obtain ⟨hpolling, hcomplete⟩ := h hstream
    split
    next error hbudget =>
      exact stopWithFailure_passes (lasts_budget (hpolling.refused (by rw [hbudget]; rfl))) _ _ _
    next hbudget =>
      split
      next calls hcalls =>
        refine Passes.pure ⟨⟨hpolling.running hstream hbudget, hcomplete, ?_, ?_, hpolling.atTurn, hwithin, ?_⟩, ?_⟩
        · rw [hpolling.polled]
          exact hpolling.tracks.faultless hstream
        · rw [hpolling.polled, ← hpolling.tracks.calls]
          exact completeCalls_eq_ok hcalls
        · rw [hpolling.executed]
          exact List.Sublist.refl _
        · rw [hpolling.polled]
          exact hpolling.tracks.stopReason
      · exact stopWithFailure_passes (.of_failed (by decide)) _ _ _

theorem finishStream_passes {trigger : Option TerminationTrigger}
    (h : Collected c.cfg turn (t, trigger) w) (hwithin : turn ≤ c.cfg.maxTurns) (attempt : Option Attempt) :
    Passes (watch c.cfg) (Checked c turn t) (Left c.cfg) (finishStream c turn attempt t trigger) w := by
  cases trigger with
  | some trigger => exact stopAfterFailing_passes h _ _ _ _
  | none =>
    refine (commitProviderActivity_keeps attempt t).next fun _ => ?_
    refine Passes.bind (Passes.lift (recordModelAttempt_holds t)) fun _ w' heq => ?_
    subst heq
    exact stopIfTerminated_keeps.next fun _ => turnCalls_passes h hwithin

theorem beginProviderActivity_keeps (request : ProviderRequest) :
    Keeps c.cfg (beginProviderActivity c turn request) w := by
  unfold beginProviderActivity
  split
  · exact Passes.pure rfl
  refine Passes.perform_bind trivial fun begun _ => ?_
  cases begun with
  | error error => exact stopAtBoundary_passes _ _
  | ok activity =>
    cases activity with
    | execute activityId attempt => exact Passes.pure rfl
    | reuseCompleted activityId output =>
      dsimp only
      split
      · exact Passes.pure rfl
      · exact failStop_passes (by decide) _

omit [ActivityCodec] in
theorem openStream_keeps (request : ProviderRequest) (attempt : Option Attempt)
    (reused : Option (List StreamDelta)) : Keeps c.cfg (openStream c turn request attempt reused) w := by
  cases reused with
  | some deltas => exact Passes.pure rfl
  | none =>
    refine Passes.perform_bind trivial fun opened _ => ?_
    match opened with
    | .error trigger => exact stopAfterFailing_passes (w.lasts_trip trigger) _ _ _ _
    | .ok (.ok deltas) => exact Passes.pure rfl
    | .ok (.error error) =>
      refine (failAttempt_quiet _ _ _).next fun failed w' _ => ?_
      cases failed with
      | error commitError => exact failStop_passes (by decide) _
      | ok _ => exact stopWithFailure_passes (.of_failed (by decide)) _ _ _

theorem openTurn_passes (messages : List Message) :
    Passes (watch c.cfg) (fun _ w' => w' = w.nextTurn) (Left c.cfg) (openTurn c turn messages) w := by
  refine Passes.perform_bind trivial fun compacted _ => ?_
  have hstarted : Passes (watch c.cfg) (fun _ w' => w' = w.nextTurn) (Left c.cfg) (emitOrStop c.trail
      (.requestStarted turn c.cfg.model (compacted.getD messages).length c.cfg.tools.length)) w := by
    refine Passes.bind (Passes.lift (emit_holds rfl _)) fun emitted w' h => ?_
    cases emitted with
    | error error => exact failStop_passes (by decide) _
    | ok _ =>
      obtain ⟨record, hevent, rfl⟩ := h _ rfl
      refine Passes.pure ?_
      unfold Watch.deliver
      rw [hevent]
      exact Watch.haltIf_false _
  refine hstarted.bind fun _ w' heq => ?_
  subst heq
  exact (beginProviderActivity_keeps _).next fun _ => (openStream_keeps _ _ _).next fun _ => Passes.pure rfl

/-! ### Turns -/

/-- A turn has ended with its results, and the next may begin. -/
structure Idle (turn : Nat) (w : Watch) : Prop where
  running : w.halted = false
  atTurn : w.turn = turn

omit [JsonSchema] [ActivityCodec] in
/-- The provider's stop reason, when the turn has no calls. -/
theorem accounts_stopReason (hfinished : w.Finished) {reason : String}
    (hreason : reason = "end_turn" ∨ finalStopReason w.polled = some reason) : w.Accounts cfg reason := by
  by_cases hown : reason ∈ runtimeReasons
  · rcases hreason with rfl | hfinal
    · exact absurd hown (by decide)
    · exact .inl ⟨hfinished.complete, hfinished.faultless, hfinished.noCalls, reason, hown, hfinal⟩
  · right
    simp only [runtimeReasons, List.mem_cons, List.not_mem_nil, or_false, not_or] at hown
    unfold recordedTerminalStatus
    split
    · exact hfinished
    · rw [if_neg (by tauto), if_neg (by tauto), if_neg (by tauto)]
      trivial

theorem runTools_passes {calls : List ToolCall} (h : Checked c turn t calls w)
    (hstarted : Started c) (messages : List Message) :
    Passes (watch c.cfg) (fun vars w' => vars.turn = turn ∧ Idle turn w') (Left c.cfg)
      (runTools c turn messages t calls) w := by
  obtain ⟨hready, hstop⟩ := h
  refine Passes.perform_bind trivial fun _ _ => ?_
  by_cases hcalls : calls = []
  · rw [if_pos hcalls]
    refine Passes.perform_bind trivial fun _ _ => stopWith_passes (accounts_stopReason ?_ ?_)
    · subst hcalls
      exact ⟨hready.running, hready.complete, hready.faultless, hready.proposed⟩
    · cases hreason : t.modelStopReason with
      | none => exact .inl rfl
      | some reason => exact .inr (hstop.symm.trans hreason)
  · rw [if_neg hcalls]
    refine Passes.bind (runCalls_passes hready hstarted t.retained) fun results w' hdone => ?_
    exact Passes.perform_bind trivial fun _ _ => Passes.pure ⟨rfl, hdone.running, hdone.atTurn⟩

/-- **One turn**. -/
theorem runTurn_holds (h : Idle turn w) (hwithin : turn + 1 ≤ c.cfg.maxTurns) (hstarted : Started c)
    (vars : Vars) :
    Holds (watch c.cfg) (fun r w' => (∀ exit, r = .error exit → Left c.cfg exit.stop w') ∧
        ∀ vars', r = .ok vars' → vars'.turn = turn + 1 ∧ Idle (turn + 1) w')
      (runTurn c (turn + 1) vars) w := by
  refine Passes.run_bind (openTurn_passes vars.messages) (fun opened w' hopened => ?_)
    fun stop w' hleft => Holds.pure ⟨fun _ heq => ?_, fun _ heq => ?_⟩
  · obtain ⟨messages, attempt, deltas⟩ := opened
    subst hopened
    have hpolling : Polling (turn + 1) (.start vars.retained vars.usage) w.nextTurn :=
      ⟨.start _ _, rfl, fun _ _ => h.running, (fun hsome => by cases hsome), congrArg Nat.succ h.atTurn, rfl⟩
    refine Holds.bind (collect_holds hpolling deltas) fun collected w'' hcollected => ?_
    obtain ⟨t, trigger⟩ := collected
    have hended := Passes.bind (finishStream_passes hcollected hwithin attempt) fun calls _ hchecked =>
      runTools_passes hchecked hstarted messages
    refine Passes.run_bind hended (fun vars' _ hidle => Holds.pure ⟨fun _ heq => ?_, fun _ heq => ?_⟩)
      fun stop _ hleft => Holds.pure ⟨fun _ heq => ?_, fun _ heq => ?_⟩
    · cases heq
    · cases heq
      exact hidle
    · cases heq
      exact hleft
    · cases heq
  · cases heq
    exact hleft
  · cases heq

omit [ActivityCodec] in
/-- The turn after the last one. -/
theorem exceedMaxTurns_holds (h : c.cfg.maxTurns ≤ w.turn) :
    Holds (watch c.cfg) (fun stop w' => Left c.cfg stop w') (exceedMaxTurns c turn) w := by
  have hlasts : w.Lasts c.cfg "max_turns" := by
    have hstatus : recordedTerminalStatus "max_turns" = .maxTurns := by decide
    refine ⟨?_, .inr ?_⟩
    · rw [hstatus]
      intro heq
      cases heq
    · rw [hstatus]
      exact h
  refine Holds.bind (terminalFailure_holds hlasts _ _) fun failure w' hfailure => ?_
  refine Holds.bind (yieldError_quiet _ _).holds fun _ w'' hgrows => Holds.pure ?_
  show Watch.Accounts _ _ (if _ then _ else _)
  split
  · exact .of_failed (by decide)
  · exact (hfailure.2.grows hgrows).accounts

/-- **The loop**, by induction on the turns that may still be run. -/
theorem agentLoop_holds (hstarted : Started c) {remaining : Nat} {vars : Vars}
    (h : Idle vars.turn w) (hremaining : vars.turn + remaining = c.cfg.maxTurns) :
    Holds (watch c.cfg) (fun exit w' => Left c.cfg exit.stop w') (agentLoop c remaining vars) w := by
  induction remaining generalizing vars w with
  | zero =>
    unfold agentLoop
    refine Passes.run_bind stopIfTerminated_keeps (fun _ w' heq => ?_) fun stop w' hleft => Holds.pure hleft
    subst heq
    refine Holds.bind (exceedMaxTurns_holds ?_) fun stop _ hleft => Holds.pure hleft
    rw [h.atTurn]
    omega
  | succ remaining ih =>
    unfold agentLoop
    refine Passes.run_bind stopIfTerminated_keeps (fun _ w' heq => ?_) fun stop w' hleft => Holds.pure hleft
    subst heq
    refine Holds.bind (runTurn_holds h (by omega) hstarted vars) fun ended w'' hended => ?_
    cases ended with
    | error exit => exact Holds.pure (hended.1 exit rfl)
    | ok vars' =>
      obtain ⟨hturn, hidle⟩ := hended.2 vars' rfl
      exact ih (hturn ▸ hidle) (by omega)

end AikitRuntime.Agent
