import AikitRuntime.Agent.Turns

/-!
# Outcomes

The whole of a run in the eyes of its observer: its preparation, its start, the loop, and
its end.
-/

namespace AikitRuntime.Agent

open Library Durability Streaming Governance

variable [JsonSchema] {w : Watch}

/-! ### Starting a run -/

section

variable {cfg : RunConfig} {α : Type} {Q : α → Watch → Prop} {lifecycle : Option Lifecycle}

/-- A part of the start goes on with `Q`, or the run ends with a reason that is explained. -/
abbrev Starts (cfg : RunConfig) (Q : α → Watch → Prop) (p : Program (Except String α)) (w : Watch) : Prop :=
  Passes (watch cfg) Q (fun reason w' => w'.Accounts cfg reason) (ExceptT.mk p) w

theorem Starts.ok {a : α} (h : Q a w) : Starts cfg Q (pure (.ok a)) w := Passes.pure h

variable {reason : String}

theorem Starts.error (h : w.Accounts cfg reason) :
    Starts cfg Q (pure (.error reason)) w := Passes.throw h

theorem emitRunStarted_starts :
    Starts cfg (fun _ w' => w' = w ∧ cfg.audit.Audited) (emitRunStarted cfg lifecycle) w := by
  have hmode : cfg.audit.failureMode = cfg.audit.failureMode := rfl
  refine Holds.bind ((emit_holds hmode _).and_returns (AuditTrail.emit_audited _)) fun emitted w' h => ?_
  cases emitted with
  | ok _ =>
    obtain ⟨record, hevent, rfl⟩ := h.1 _ rfl
    refine Starts.ok ⟨?_, h.2 _ rfl⟩
    rw [Watch.deliver_eq_haltIf (hevent ▸ trivial), Watch.haltIf_false]
  | error error =>
    refine Holds.perform_bind trivial fun _ _ => ?_
    cases lifecycle with
    | none => exact Starts.error (.of_failed (by decide))
    | some lifecycle =>
      refine Holds.perform_bind trivial fun failed _ => ?_
      cases failed with
      | ok _ => exact Starts.error (.of_failed (by decide))
      | error error => exact Holds.perform_bind trivial fun _ _ => Starts.error (.of_failed (by decide))

/-- A failure that ends the run before its first turn. -/
theorem failure_starts (h : recordedTerminalStatus reason = .failed)
    (ctx : FailureContext) (info : ErrorInfo) :
    Starts cfg Q (do
      let failure ← terminalFailure cfg.audit ctx info reason
      yieldDelta (.error failure.message failure.info)
      pure (.error failure.reason)) w := by
  have hlasts : w.Lasts cfg reason := .of_failed h
  refine Holds.bind (terminalFailure_holds hlasts ctx info) fun failure w' hfailure => ?_
  refine Holds.bind (yieldError_quiet _ _).holds fun _ w'' hgrows => Starts.error ?_
  exact (hfailure.2.grows hgrows).accounts

theorem startTools_starts :
    Starts cfg (fun validators w' => w' = w ∧ Compiled cfg.tools validators) (startTools cfg) w := by
  unfold startTools
  split
  next validators hcompiled => exact Starts.ok ⟨rfl, compileToolValidators_compiled hcompiled⟩
  next error _ => exact failure_starts (by decide) _ _

theorem startBudget_starts : Starts cfg (fun _ w' => w' = w) startBudget w := by
  refine Holds.perform_bind trivial fun tracker _ => ?_
  cases tracker with
  | ok _ => exact Starts.ok rfl
  | error error =>
    refine Holds.perform_bind trivial fun _ _ => Starts.error (.inr ?_)
    have hstatus : recordedTerminalStatus "budget_configuration_error" = .budgetExceeded := by decide
    rw [hstatus]
    rfl

theorem startPrompt_starts : Starts cfg (fun _ w' => w' = w) (startPrompt cfg) w := by
  unfold startPrompt
  split
  · exact Starts.ok rfl
  refine Holds.perform_bind trivial fun outcome _ => ?_
  match outcome with
  | .error trigger => exact Starts.error (w.lasts_trip trigger).accounts
  | .ok .continue => exact Starts.ok rfl
  | .ok (.rewrite replacement) => exact Holds.perform_bind trivial fun _ _ => Starts.ok rfl
  | .ok (.block reason) => exact failure_starts (by decide) _ _

/-- A run that starts has kept what was seen, and its tools are compiled. -/
theorem startRun_passes :
    Passes (watch cfg) (fun started w' => w' = w ∧ Started ⟨cfg, lifecycle, started.1⟩)
      (fun reason w' => w'.Accounts cfg reason) (startRun cfg lifecycle) w := by
  refine Passes.bind emitRunStarted_starts fun _ w' h => ?_
  obtain ⟨rfl, haudited⟩ := h
  refine Passes.bind startTools_starts fun validators w' h => ?_
  obtain ⟨rfl, hcompiled⟩ := h
  refine Passes.bind startBudget_starts fun _ w' heq => ?_
  subst heq
  refine Passes.perform_bind trivial fun trigger _ => ?_
  cases trigger with
  | some trigger => exact Passes.throw (Watch.lasts_trip _ trigger).accounts
  | none => exact Passes.bind startPrompt_starts fun messages w'' heq => Passes.pure ⟨heq, hcompiled, haudited⟩

theorem runLoop_holds [ActivityCodec] (h : Idle 0 w) :
    Holds (watch cfg) (fun exit w' => Left cfg exit.stop w') (runLoop cfg lifecycle) w := by
  refine Passes.run_bind startRun_passes (fun started w' hstarted => ?_) fun reason w' haccounts =>
    Holds.pure haccounts
  obtain ⟨validators, messages⟩ := started
  obtain ⟨heq, hloop⟩ := hstarted
  subst heq
  exact agentLoop_holds hloop h (Nat.zero_add _)

/-! ### Ending a run -/

variable {p : Program α}

/-- A program of the end of a run that only records failures. -/
theorem Closing.fails (h : Closing (fun status => status = .failed) p) :
    Holds (watch cfg) (fun _ _ => True) p w := by
  refine Holds.mono (h.holds fun w' _ status hstatus => ?_) fun _ _ _ => trivial
  rw [hstatus]
  exact .inr (.inr trivial)

/-- A program of the end of a run, where the outcome may have been decided elsewhere. -/
theorem Closing.recovers {terminal : Prop} (h : terminal → w.recovered = true)
    (hp : ∀ S : RunTerminalStatus → Prop, S .failed → (terminal → ∀ status, S status) → Closing S p) :
    Holds (watch cfg) (fun _ _ => True) p w := by
  have hclosing := hp (fun status => status = .failed ∨ w.recovered = true) (.inl rfl)
    fun hterminal _ => .inr (h hterminal)
  refine Holds.mono (hclosing.holds fun w' hgrows status hstatus => ?_) fun _ _ _ => trivial
  rcases hstatus with rfl | hrecovered
  · exact .inr (.inr trivial)
  · exact .inl (hgrows.recovered hrecovered)

variable {turns : Nat} {usage : Usage}

variable {disposition : Disposition} {fence : Attempt}

theorem closeAtBoundary_holds
    (h : disposition.terminal = true → w.recovered = true) :
    Holds (watch cfg) (fun _ _ => True) (closeAtBoundary cfg fence turns usage disposition) w :=
  Closing.recovers h fun _ hfailed hall => closeAtBoundary_closing hfailed hall

theorem completeAs_holds (h : w.Accounts cfg reason) :
    Holds (watch cfg) (fun _ _ => True) (completeAs usage reason) w := ⟨.inr h, fun _ _ => trivial⟩

theorem failAs_holds (error : AikitError)
    (h : recordedTerminalStatus reason = .failed) :
    Holds (watch cfg) (fun _ _ => True) (do yieldDelta (fromError error); completeAs usage reason) w :=
  Holds.perform_bind trivial fun _ _ => completeAs_holds (.of_failed h)

variable {c : RunContext}

theorem emitRunStopped_holds (h : w.Accounts c.cfg reason) :
    Holds (watch c.cfg) (fun reason' w' => w'.Accounts c.cfg reason') (emitRunStopped c.trail turns reason)
      w := by
  refine Holds.bind (emit_holds rfl (.runStopped turns reason)) fun emitted w' hemitted => ?_
  cases emitted with
  | ok _ =>
    obtain ⟨record, hevent, rfl⟩ := hemitted _ rfl
    refine Holds.pure ?_
    rw [Watch.deliver_eq_haltIf (hevent ▸ trivial), Watch.haltIf_false]
    exact h
  | error error => exact Holds.perform_bind trivial fun _ _ => Holds.pure (.of_failed (by decide))

variable {receipt : RunStoppedReceipt}

theorem durableRunStoppedReplay_holds {kind : RunStoppedAuditKind} :
    Holds (watch c.cfg) (fun r w' => w' = w ∧ ∀ replay record, r = .ok (replay, record) →
        Describes c.trail receipt turns reason replay record)
      (durableRunStoppedReplay c.trail kind receipt turns reason) w := by
  refine Holds.and_returns ?_ (durableRunStoppedReplay_returns kind receipt reason)
  unfold durableRunStoppedReplay
  split
  · exact Holds.pure rfl
  unfold AuditTrail.prepareEvent
  split
  · exact Holds.pure rfl
  · exact Holds.perform_bind trivial fun _ _ => Holds.pure rfl

theorem deliverCanonical_holds {audit : Attempt} {replay : RunStoppedAuditReplayEnvelope}
    {record : AuditRecord} (h : w.Accounts c.cfg replay.terminalReceipt.reason)
    (hrecord : Watch.Continues record.event) :
    Holds (watch c.cfg) (fun _ _ => True) (deliverCanonical c.trail fence audit replay record) w := by
  refine Holds.bind (emitPrepared_holds rfl record) fun emitted w' hemitted => ?_
  cases emitted with
  | ok _ =>
    obtain rfl := hemitted _ rfl
    rw [Watch.deliver_eq_haltIf hrecord, Watch.haltIf_false]
    refine Holds.perform_bind trivial fun closed _ => ?_
    cases closed with
    | error error => exact failAs_holds _ (by decide)
    | ok _ =>
      refine Holds.perform_bind trivial fun persisted _ => ?_
      cases persisted with
      | ok _ => exact completeAs_holds h
      | error error => exact failAs_holds _ (by decide)
  | error error =>
    refine Holds.perform_bind trivial fun _ _ => Holds.perform_bind trivial fun failed _ => ?_
    cases failed with
    | ok _ => exact completeAs_holds (.of_failed (by decide))
    | error error => exact failAs_holds _ (by decide)

theorem closeCanonically_holds {lifecycle : Lifecycle}
    (h : w.Accounts c.cfg receipt.reason) :
    Holds (watch c.cfg) (fun _ _ => True) (closeCanonically c lifecycle receipt) w := by
  refine Holds.bind durableRunStoppedReplay_holds fun prepared w' hprepared => ?_
  obtain ⟨rfl, hdescribes⟩ := hprepared
  cases prepared with
  | error error =>
    refine Closing.fails (fromError_closing _ ((emitRunStopped_closing _).bind fun _ => ?_))
    exact complete_closing rfl _
  | ok prepared =>
    obtain ⟨replay, record⟩ := prepared
    have hrecord := hdescribes replay record rfl
    refine Holds.perform_bind trivial fun begun _ => ?_
    match begun with
    | .ok (.execute activityId attempt) =>
      refine deliverCanonical_holds ?_ (hrecord.event ▸ trivial)
      rw [hrecord.receipt]
      exact h
    | .ok (.reuseCompleted activityId output) =>
      -- the outcome of another invocation is recorded
      have hrecovered : True → (w'.recoverIf true).recovered = true := by
        intro _
        show (w'.recovered || true) = true
        rw [Bool.or_true]
      refine Closing.recovers hrecovered fun S hfailed hall => ?_
      dsimp only
      split
      · exact closeSuperseded_closing (hall trivial) _
      · refine fromError_closing _ (emitted_closing (emit_closing _ _) ?_ fun error => ?_)
        · exact complete_closing hfailed _
        · exact failOutcome_closing hfailed _ _
    | .error error =>
      refine Holds.bind (resolveDurableActivityBoundary_holds error _) fun resolved w' hresolved => ?_
      cases resolved with
      | ok disposition => exact closeAtBoundary_holds (hresolved.2 disposition rfl)
      | error error => exact failAs_holds _ (by decide)

theorem closeInvocation_holds (h : w.Accounts c.cfg receipt.reason) :
    Holds (watch c.cfg) (fun _ _ => True) (closeInvocation c receipt) w := by
  have hplain : ∀ {reason : String}, w.Accounts c.cfg reason → Holds (watch c.cfg) (fun _ _ => True) (do
      let reason ← emitRunStopped c.trail receipt.turns reason
      completeAs receipt.usage reason) w :=
    fun haccounts => Holds.bind (emitRunStopped_holds haccounts) fun _ _ => completeAs_holds
  unfold closeInvocation
  split
  · split
    · exact Closing.fails (failOutcome_closing rfl _ _)
    next lifecycle _ =>
      refine Holds.perform_bind trivial fun poisoned _ => Holds.perform_bind trivial fun status _ => ?_
      cases poisoned with
      | true =>
        show Holds (watch c.cfg) _ (if "durable_commit_failure" = _ ∨ _ then _ else _) w
        rw [if_pos (.inl rfl)]
        exact @hplain "durable_commit_failure" (.of_failed (by decide))
      | false =>
        show Holds (watch c.cfg) _ (if receipt.reason = _ ∨ _ then _ else _) w
        split
        · exact hplain h
        · exact closeCanonically_holds h
  · exact hplain h

/-! ### The end of the loop -/

theorem reportEnd_holds {emitted : Bool} (h : w.Accounts cfg reason) :
    Holds (watch cfg) (fun reason' w' => w'.Accounts cfg reason') (reportEnd cfg turns reason emitted) w := by
  unfold reportEnd
  split
  next hbudget =>
    obtain ⟨rfl, -⟩ := hbudget
    refine Holds.bind (terminalFailure_holds ⟨by decide, h⟩ _ _) fun failure w' hfailure => ?_
    refine Holds.bind (yieldError_quiet _ _).holds fun _ w'' hgrows => Holds.pure ?_
    exact (hfailure.2.grows hgrows).accounts
  split
  next hcancelled =>
    subst hcancelled
    refine Holds.bind (fromError_quiet _).holds fun _ w' hgrows => Holds.pure ?_
    exact h.grows (by decide) hgrows
  · exact Holds.pure h

theorem clearPermissions_holds (h : w.Accounts cfg reason) :
    Holds (watch cfg) (fun reason' w' => w'.Accounts cfg reason') (clearPermissions cfg reason) w := by
  refine Holds.perform_bind trivial fun cleared _ => ?_
  cases cleared with
  | ok _ => exact Holds.pure h
  | error error => exact Holds.perform_bind trivial fun _ _ => Holds.pure (.of_failed (by decide))

theorem runStopHooks_holds (h : w.Accounts cfg reason) :
    Holds (watch cfg) (fun reason' w' => w'.Accounts cfg reason') (runStopHooks cfg turns reason usage) w := by
  refine Holds.perform_bind trivial fun stopped _ => ?_
  cases stopped with
  | ok _ => exact Holds.pure h
  | error error => exact Holds.perform_bind trivial fun _ _ => Holds.pure (.of_failed (by decide))

/-- **The end of a run** that was left with a reason which is explained. -/
theorem closeRun_holds {exit : Exit} (h : Left cfg exit.stop w) :
    Holds (watch cfg) (fun _ _ => True) (closeRun cfg lifecycle exit) w := by
  obtain ⟨turn, usage, stop⟩ := exit
  cases stop with
  | reason reason emitted =>
    refine Holds.bind (reportEnd_holds h) fun reason' w' h' => ?_
    refine Holds.bind (clearPermissions_holds h') fun reason'' w'' h'' => ?_
    refine Holds.bind (runStopHooks_holds h'') fun reason₃ w₃ h₃ => ?_
    exact closeInvocation_holds (c := ⟨cfg, lifecycle, []⟩) h₃
  | boundary disposition =>
    cases lifecycle with
    | none => exact Closing.fails (failOutcome_closing rfl _ _)
    | some lifecycle => exact closeAtBoundary_holds h

/-! ### Preparation -/

/-- Before its first turn, a run has seen nothing that stops it; and if its outcome was decided
elsewhere, it knows. -/
structure Fresh (cfg : RunConfig) (w : Watch) : Prop where
  idle : Idle 0 w
  recovered : (cfg.durableInvocation.getD .execute).terminal = true → w.recovered = true

omit [JsonSchema] in
theorem fresh_start : Fresh cfg (.start cfg) := ⟨⟨rfl, rfl⟩, id⟩

variable {cfg' : RunConfig}

/-- The observer only looks at what preparation keeps. -/
theorem watch_eq (h : Prepares cfg cfg') : watch cfg' = watch cfg := by
  have haudited : cfg'.audit.Audited ↔ cfg.audit.Audited := by
    unfold AuditTrail.Audited
    rw [h.failureMode, h.sinkCount]
  have hpermits : ∀ w name input, Watch.Permits cfg' w name input ↔ Watch.Permits cfg w name input := by
    refine fun w name input => ⟨fun hp => ?_, fun hp => ?_⟩
    · exact ⟨hp.1, hp.2, hp.3, hp.4, h.maxTurns ▸ hp.5, haudited.mp hp.6, h.tools ▸ hp.7⟩
    · exact ⟨hp.1, hp.2, hp.3, hp.4, h.maxTurns ▸ hp.5, haudited.mpr hp.6, h.tools ▸ hp.7⟩
  have hexplains : ∀ w status, Watch.Explains cfg' w status ↔ Watch.Explains cfg w status := by
    intro w status
    cases status with
    | maxTurns =>
      show cfg'.maxTurns ≤ _ ↔ _
      rw [h.maxTurns]
      rfl
    | _ => rfl
  unfold watch
  rw [h.failureMode]
  congr
  funext w op
  cases op with
  | execute name input => exact propext (hpermits w name input)
  | record entry =>
    cases entry with
    | complete usage status reason =>
      exact propext (or_congr_right (or_congr_right (hexplains w status)))
    | _ => rfl
  | _ => rfl

/-- Naming a run shows the observer nothing. -/
theorem naming_holds (h : Uses Op.Naming p) :
    Holds (watch cfg) (fun _ w' => w' = w) p w := by
  refine Uses.holds (I := fun w' => w' = w) h (fun w' op heq hop => ?_) rfl
  cases op with
  | driver call =>
    cases call with
    | runId => exact ⟨trivial, fun _ _ => heq⟩
    | _ => exact hop.elim
  | freshRunId => exact ⟨trivial, fun _ _ => heq⟩
  | secureInvocationId => exact ⟨trivial, fun _ _ => heq⟩
  | _ => exact hop.elim

variable {cfg'' : RunConfig}

omit [JsonSchema] in
/-- The driver classifies the invocation. -/
theorem Fresh.classified (h : Fresh cfg' w)
    (hcfg : cfg''.durableInvocation = some disposition) :
    Fresh cfg'' (w.recoverIf disposition.terminal) where
  idle := ⟨h.idle.running, h.idle.atTurn⟩
  recovered hterminal := by
    rw [hcfg] at hterminal
    show (w.recovered || disposition.terminal) = true
    rw [show disposition.terminal = true from hterminal, Bool.or_true]

omit [JsonSchema] in
/-- The same classification, in another configuration. -/
theorem Fresh.same (h : Fresh cfg' w)
    (hcfg : cfg''.durableInvocation = cfg'.durableInvocation) : Fresh cfg'' w :=
  ⟨h.idle, by
    rw [hcfg]
    exact h.recovered⟩

theorem prepareInvocation_fresh (h : Fresh cfg' w) :
    Holds (watch cfg) (fun cfg'' w' => Fresh cfg'' w') (prepareInvocation cfg') w := by
  unfold prepareInvocation
  split
  · exact Holds.pure h
  split
  · refine Holds.perform_bind trivial fun attached _ => ?_
    cases attached with
    | error error => exact Holds.pure (h.same rfl)
    | ok _ =>
      refine Holds.perform_bind trivial fun disposition _ => ?_
      cases disposition with
      | error error => exact Holds.pure (h.same rfl)
      | ok disposition =>
        refine Holds.bind (naming_holds (prepareAudit_uses disposition)) fun prepared w' heq => ?_
        subst heq
        cases prepared with
        | error error => exact Holds.pure (h.classified rfl)
        | ok audit => exact Holds.pure (h.classified rfl)
  · exact Holds.perform_bind trivial fun runId _ => Holds.pure (h.same rfl)

theorem revalidate_fresh (h : Fresh cfg' w) :
    Holds (watch cfg) (fun cfg'' w' => Fresh cfg'' w') (revalidate cfg') w := by
  refine Holds.perform_bind trivial fun disposition _ => ?_
  cases disposition with
  | error error => exact Holds.pure (h.same rfl)
  | ok disposition =>
    refine Holds.bind (naming_holds (checkAudit_uses disposition)) fun checked w' heq => ?_
    subst heq
    cases checked with
    | error error => exact Holds.pure (h.classified rfl)
    | ok audit => exact Holds.pure (h.classified rfl)

theorem classify_holds (h : Fresh cfg w) :
    Holds (watch cfg) (fun cfg' w' => Fresh cfg' w' ∧ Prepares cfg cfg') (classify cfg) w := by
  refine Holds.and_returns ?_ classify_returns
  refine Holds.bind (prepareInvocation_fresh h) fun cfg' w' h' => ?_
  show Holds _ _ (if _ then _ else _) _
  split
  · exact revalidate_fresh h'
  · exact Holds.pure h'

/-! ### The whole run -/

theorem openLifecycle_holds :
    Holds (watch cfg) (fun r w' => ∀ lifecycle, r = some lifecycle → w' = w) (openLifecycle cfg) w := by
  have hfailed : ∀ (error : AikitError) (w' : Watch), Holds (watch cfg)
      (fun r w'' => ∀ lifecycle, r = some lifecycle → w'' = w) (preflightFailed error) w' :=
    fun error w' => Holds.bind (Closing.fails (failOutcome_closing rfl error _)) fun _ _ _ =>
      Holds.pure fun _ heq => by cases heq
  unfold openLifecycle
  split
  · exact hfailed _ _
  refine Holds.perform_bind trivial fun begun _ => ?_
  match begun with
  | .error error => exact hfailed _ _
  | .ok (.reuseCompleted _ _) => exact hfailed _ _
  | .ok (.execute activityId attempt) =>
    refine Holds.perform_bind trivial fun answer _ => ?_
    have hclosed : ∀ disposition : Disposition, Holds (watch cfg)
        (fun r w'' => ∀ lifecycle, r = some lifecycle → w'' = w) (do
          closeUnstarted ⟨activityId, attempt⟩ disposition
          pure (none : Option Lifecycle)) (w.recoverIf disposition.terminal) := by
      intro disposition
      have hrecovered : disposition.terminal = true → (w.recoverIf disposition.terminal).recovered = true := by
        intro hterminal
        show (w.recovered || disposition.terminal) = true
        rw [hterminal, Bool.or_true]
      refine Holds.bind (Closing.recovers hrecovered fun S hfailed hall =>
        closeUnstarted_closing hfailed hall) fun _ _ _ => Holds.pure fun _ heq => by cases heq
    cases answer with
    | error error => exact hfailed _ _
    | ok disposition =>
      have hend := hclosed disposition
      cases disposition with
      | execute => exact Holds.pure fun _ _ => w.recoverIf_false
      | _ => exact hend

variable [ActivityCodec]

theorem runExecuting_holds (h : Idle 0 w) : Holds (watch cfg) (fun _ _ => True) (runExecuting cfg) w := by
  unfold runExecuting
  split
  · refine Holds.bind openLifecycle_holds fun lifecycle w' hopened => ?_
    cases lifecycle with
    | none => exact Holds.pure trivial
    | some lifecycle =>
      obtain rfl := hopened _ rfl
      exact Holds.bind (runLoop_holds h) fun exit _ hleft => closeRun_holds hleft
  · exact Holds.bind (runLoop_holds h) fun exit _ hleft => closeRun_holds hleft

theorem runPrepared_holds (h : Fresh cfg w) : Holds (watch cfg) (fun _ _ => True) (runPrepared cfg) w := by
  unfold runPrepared
  split
  · exact Closing.fails (failOutcome_closing rfl _ _)
  split
  · exact runExecuting_holds h.idle
  · exact Closing.recovers h.recovered fun S hfailed hall => endUnstarted_closing hfailed hall

theorem runAgent_holds (cfg : RunConfig) :
    Holds (watch cfg) (fun _ _ => True) (runAgent cfg) (.start cfg) := by
  have hclaimed : Holds (watch cfg) (fun _ _ => True) (runClaimed cfg) (.start cfg) := by
    refine Holds.bind (classify_holds fresh_start) fun cfg' w' hclassified => ?_
    rw [← watch_eq hclassified.2]
    exact runPrepared_holds hclassified.1
  refine Holds.perform_bind trivial fun _ _ => ?_
  split
  · refine Holds.perform_bind trivial fun claimed _ => ?_
    cases claimed with
    | error error => exact Closing.fails (failOutcome_closing rfl _ _)
    | ok _ => exact hclaimed
  · exact hclaimed

end

/-! ### No tool without an authorization -/

variable [ActivityCodec]

/-- **No tool without an authorization**: whatever the provider, the hooks, governance, the
sinks, the driver and the caller do, a tool is executed only where it is permitted. -/
theorem execute_permitted (cfg : RunConfig) {tr : Trace} {name : String} {input : Value}
    {next : Op.Answer (.execute name input) → Program Unit}
    (h : Path Prog.Step (runAgent cfg) tr (.call (.execute name input) next)) :
    Watch.Permits cfg ((watch cfg).after (.start cfg) tr) name input :=
  (runAgent_holds cfg).allowed h ((watch cfg).admitted_of_forall (fun _ _ _ => trivial) _ _)

/-- The tool that a program calls next. -/
def nextTool : Program Unit → Option (String × Value)
  | .call (.execute name input) _ => some (name, input)
  | _ => none

variable {p : Program Unit}

omit [JsonSchema] [ActivityCodec] in
theorem nextTool_eq_some {name : String} {input : Value}
    (h : nextTool p = some (name, input)) : ∃ next, p = .call (.execute name input) next := by
  cases p with
  | ret a => cases h
  | call op next =>
    cases op with
    | execute name input =>
      cases h
      exact ⟨next, rfl⟩
    | _ => cases h

/-- The sample run, up to its tool. -/
def sampleUntilTool : Trace × Program Unit :=
  Prog.exec (fun _ op => match op with
    | .execute _ _ => none
    | op => some (smooth sampleDeltas op)) (sampleRun sampleConfig) []

omit [JsonSchema] [ActivityCodec] in
theorem execute_permitted_sample :
    @Watch.Permits emptySchema sampleConfig
      ((@watch emptySchema sampleConfig).after (.start sampleConfig) sampleUntilTool.1) "echo" (.string "hi") := by
  have htool : nextTool sampleUntilTool.2 = some ("echo", .string "hi") := by decide +kernel
  obtain ⟨next, hnext⟩ := nextTool_eq_some htool
  have hpath : Path Prog.Step (sampleRun sampleConfig) sampleUntilTool.1 sampleUntilTool.2 :=
    Prog.exec_path _ _
  rw [hnext] at hpath
  exact @execute_permitted emptySchema noCodec sampleConfig _ _ _ next hpath

/-! ### Explained outcomes -/

/-- **Explained outcomes**: an outcome that the run decided itself, after a last turn that did not end with one of
the runtime's words as its stop reason, is explained by what was seen. -/
theorem outcome_explained (cfg : RunConfig) {tr : Trace} {usage : Usage} {status : RunTerminalStatus}
    {reason : String} {next : Unit → Program Unit}
    (h : Path Prog.Step (runAgent cfg) tr (.call (.record (.complete usage status reason)) next))
    (hown : ((watch cfg).after (.start cfg) tr).recovered = false)
    (hwords : ¬ ((watch cfg).after (.start cfg) tr).Mimicked) :
    ((watch cfg).after (.start cfg) tr).Explains cfg status := by
  have hallowed := (runAgent_holds cfg).allowed h ((watch cfg).admitted_of_forall (fun _ _ _ => trivial) _ _)
  rcases hallowed with hrecovered | hmimicked | hexplains
  · rw [hown] at hrecovered
    cases hrecovered
  · exact absurd hmimicked hwords
  · exact hexplains

/-- The status of the outcome that a program records next. -/
def nextOutcome : Program Unit → Option RunTerminalStatus
  | .call (.record (.complete _ status _)) _ => some status
  | _ => none

omit [JsonSchema] [ActivityCodec] in
theorem nextOutcome_eq_some {status : RunTerminalStatus}
    (h : nextOutcome p = some status) :
    ∃ usage reason next, p = .call (.record (.complete usage status reason)) next := by
  cases p with
  | ret a => cases h
  | call op next =>
    cases op with
    | record entry =>
      cases entry with
      | complete usage status reason =>
        cases h
        exact ⟨usage, reason, next, rfl⟩
      | _ => cases h
    | _ => cases h

/-- A run in an environment that answers by the operation, up to its outcome. -/
def sampleUntilOutcome (cfg : RunConfig) (env : (op : Op) → op.Answer) : Trace × Program Unit :=
  Prog.exec (fun _ op => match op with
    | .record (.complete _ _ _) => none
    | op => some (env op)) (sampleRun cfg) []

omit [JsonSchema] [ActivityCodec] in
theorem sampleUntilOutcome_path {cfg : RunConfig} {env : (op : Op) → op.Answer}
    {status : RunTerminalStatus} (h : nextOutcome (sampleUntilOutcome cfg env).2 = some status) :
    ∃ usage reason next, Path Prog.Step (sampleRun cfg) (sampleUntilOutcome cfg env).1
      (.call (.record (.complete usage status reason)) next) := by
  obtain ⟨usage, reason, next, heq⟩ := nextOutcome_eq_some h
  refine ⟨usage, reason, next, ?_⟩
  rw [← heq]
  exact Prog.exec_path _ _

/-- What is seen in such a run. -/
def sampleWatch (cfg : RunConfig) (env : (op : Op) → op.Answer) : Watch :=
  (@watch emptySchema cfg).after (.start cfg) (sampleUntilOutcome cfg env).1

omit [JsonSchema] [ActivityCodec] in
theorem outcome_explained_sample :
    (sampleWatch sampleConfig (smooth (.messageStop "max_turns" :: plainDeltas "end_turn"))).Explains sampleConfig
      .completed := by
  obtain ⟨usage, reason, next, hpath⟩ := @sampleUntilOutcome_path sampleConfig
    (smooth (.messageStop "max_turns" :: plainDeltas "end_turn")) .completed (by decide +kernel)
  exact @outcome_explained emptySchema noCodec sampleConfig _ usage _ reason next hpath
    (by decide +kernel) fun hmimicked => absurd hmimicked.stopReason (by decide +kernel)

/-- A driver that knows the run to be cancelled. -/
def cancelledDriver : (op : Op) → op.Answer
  | .driver .claimInvocation => .ok ()
  | .driver .attachGovernance => .ok ()
  | .driver (.disposition _) => .ok (.alreadyTerminal .cancelled none)
  | .driver .runId => .ok "run"
  | op => smooth [] op

omit [JsonSchema] [ActivityCodec] in
/-- Neither condition can be dropped: a provider that says `max_turns` ends its first turn with
`MaxTurns`, and a run that was cancelled in the durable log is `Cancelled` without a cancellation. -/
theorem not_outcome_explained :
    (¬ ∀ (cfg : RunConfig) (tr : Trace) (usage : Usage) (status : RunTerminalStatus) (reason : String)
        (next : Unit → Program Unit),
      Path Prog.Step (sampleRun cfg) tr (.call (.record (.complete usage status reason)) next) →
      ((@watch emptySchema cfg).after (.start cfg) tr).recovered = false →
      ((@watch emptySchema cfg).after (.start cfg) tr).Explains cfg status) ∧
    ¬ ∀ (cfg : RunConfig) (tr : Trace) (usage : Usage) (status : RunTerminalStatus) (reason : String)
        (next : Unit → Program Unit),
      Path Prog.Step (sampleRun cfg) tr (.call (.record (.complete usage status reason)) next) →
      ¬ ((@watch emptySchema cfg).after (.start cfg) tr).Mimicked →
      ((@watch emptySchema cfg).after (.start cfg) tr).Explains cfg status := by
  refine ⟨fun h => ?_, fun h => ?_⟩
  · obtain ⟨usage, reason, next, hpath⟩ := @sampleUntilOutcome_path sampleConfig
      (smooth (plainDeltas "max_turns")) .maxTurns (by decide +kernel)
    have hlimit : sampleConfig.maxTurns ≤ (sampleWatch sampleConfig (smooth (plainDeltas "max_turns"))).turn :=
      h _ _ _ _ _ _ hpath (by decide +kernel)
    exact absurd hlimit (by decide +kernel)
  · obtain ⟨usage, reason, next, hpath⟩ := @sampleUntilOutcome_path
      { sampleConfig with durable := true } cancelledDriver .cancelled (by decide +kernel)
    have hcancelled : (sampleWatch { sampleConfig with durable := true } cancelledDriver).cancelled = true :=
      h _ _ _ _ _ _ hpath fun hmimicked => absurd hmimicked.complete (by decide +kernel)
    exact absurd hcancelled (by decide +kernel)

end AikitRuntime.Agent
