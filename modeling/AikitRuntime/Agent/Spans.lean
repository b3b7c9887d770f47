import AikitRuntime.Agent.Preparation
import AikitRuntime.Agent.Working

/-!
# Audit spans

`RunStarted` opens a span in the sinks of an invocation, and `RunStopped` closes it. `AuditLog`
is what the sinks were handed, with the numbers that were reserved. The span of a run that was
started is closed by its last record, unless the durable log says that its `RunStopped` was
delivered before.

A run whose store fails can miss this: `close_superseded` returns without a record when one of
its first two calls fails, and so does the canonical audit when it cannot begin and the
boundary cannot be resolved.
-/

namespace AikitRuntime.Agent

open Library Durability Streaming Governance

/-- The run starts. -/
def AuditRecord.starts (record : AuditRecord) : Bool := match record.event with
  | .runStarted _ => true
  | _ => false

/-- The run stops. -/
def AuditRecord.stops (record : AuditRecord) : Bool := match record.event with
  | .runStopped _ _ => true
  | _ => false

/-- What the sinks were handed. -/
structure AuditLog where
  records : List AuditRecord
  /-- The number that was reserved last. -/
  reserved : Nat
  /-- The terminal audit of the run was begun. -/
  closing : Bool
  /-- The durable log has said that `RunStopped` was delivered before. -/
  delivered : Bool
  /-- The `RunStopped` of an earlier invocation is replayed. -/
  replaying : Bool

namespace AuditLog

def start : AuditLog := ⟨[], 0, false, false, false⟩

/-- The run has said that it started. -/
def started (log : AuditLog) : Bool := log.records.any AuditRecord.starts

/-- What an operation and its answer add. -/
def step (log : AuditLog) : (op : Op) → op.Answer → AuditLog
  | .deliver audited, _ => { log with records := log.records ++ [audited] }
  | .reserveSequence, sequence => { log with reserved := sequence }
  | .driver (.beginInvocationRunStoppedAudit _), _ => { log with closing := true }
  | .driver (.closeActiveLifecycleFromMatchingCompletedCanonicalReplay _), .ok true =>
    { log with delivered := true }
  | .driver (.beginRecoveryRunStoppedAudit _), .ok (.reuseCompleted _ _) => { log with delivered := true }
  | .driver (.beginTerminalAuditRetry _), .ok _ => { log with replaying := true }
  | _, _ => log

/-- The sinks accept every record, and numbers are reserved in order. -/
def expects (log : AuditLog) : (op : Op) → op.Answer → Bool
  | .deliver _, rejection => rejection.isNone
  | .reserveSequence, sequence => decide (log.reserved < sequence)
  | _, _ => true

/-- A classification that does not leave a started run without a way to be closed: it does not ask
for a terminal audit to be retried, and where the terminal audit was refused, there is one. -/
def resolves (log : AuditLog) : Except DriverError Disposition → Bool
  | .error _ => !log.closing
  | .ok .execute => !log.closing
  | .ok (.retryTerminalAudit _) => false
  | .ok _ => true

/-- The calls of the terminal audit do not fail before its record is handed over. -/
def completes (log : AuditLog) : (op : Op) → op.Answer → Bool
  | .driver (.closeActiveLifecycleFromMatchingCompletedCanonicalReplay _), answer => answer.isOk
  | .driver (.beginRecoveryRunStoppedAudit _), answer => answer.isOk
  | .driver (.beginInvocationRunStoppedAudit _), .error error => error.recoveryRequired
  | .driver (.disposition _), answer => !log.started || log.resolves answer
  | _, _ => true

end AuditLog

/-- The observer of the sinks. -/
def audits : Monitor Op Op.Answer AuditLog where
  allows _ _ := True
  admits log op answer := log.expects op answer = true
  step := AuditLog.step

/-- The observer of the sinks, of runs whose terminal audit does not fail. -/
def closes : Monitor Op Op.Answer AuditLog where
  allows _ _ := True
  admits log op answer := log.expects op answer = true ∧ log.completes op answer = true
  step := AuditLog.step

instance (log : AuditLog) (op : Op) (answer : op.Answer) : Decidable (audits.admits log op answer) :=
  inferInstanceAs (Decidable (_ = true))

instance (log : AuditLog) (op : Op) (answer : op.Answer) : Decidable (closes.admits log op answer) :=
  inferInstanceAs (Decidable (_ ∧ _))

/-! ### Spans -/

namespace AuditLog

/-- The last record says that the run stopped, none before it does, and it has the largest number. -/
def Closed (log : AuditLog) : Prop :=
  ∃ before last, log.records = before ++ [last] ∧ last.stops = true ∧
    ∀ r ∈ before, r.stops = false ∧ r.sequence < last.sequence

/-- What is asked of the records of a whole run. -/
structure Whole (log : AuditLog) : Prop where
  /-- A run that has started says once that it stopped, unless that was delivered before. -/
  closed : log.started = true → log.delivered = false → log.Closed
  /-- A run that has not started hands over nothing, unless it replays. -/
  silent : log.started = false → log.replaying = false → log.records = []
  /-- Then its only record is the `RunStopped` that it delivers again. -/
  replayed : log.started = false → log.replaying = true →
    log.records = [] ∨ ∃ record, log.records = [record] ∧ record.stops = true

/-- The run goes on. -/
structure Open (log : AuditLog) : Prop where
  started : log.started = true
  unstopped : ∀ r ∈ log.records, r.stops = false
  numbered : ∀ r ∈ log.records, r.sequence ≤ log.reserved
  undelivered : log.delivered = false

/-- The run goes on, and this was the last event: a number is the one reserved last, and the driver
has not asked for a terminal audit to be retried. -/
structure Working (last : Option (Event Op Op.Answer)) (log : AuditLog) : Prop extends Open log where
  reserved : ∀ sequence, last = some ⟨.reserveSequence, sequence⟩ → sequence ≤ log.reserved
  classified : ∀ active replay,
    last ≠ some ⟨.driver (.disposition active), .ok (.retryTerminalAudit replay)⟩

/-- The span is closed, or was before. -/
structure Ended (log : AuditLog) : Prop where
  started : log.started = true
  closed : log.delivered = false → log.Closed

/-- The record is the last one of the span. -/
structure Ready (trail : AuditTrail) (record : AuditRecord) (log : AuditLog) : Prop extends Open log where
  stops : record.stops = true
  last : ∀ r ∈ log.records, r.sequence < record.sequence
  runId : record.runId = trail.runId
  invocationId : record.invocationId = trail.invocationId

end AuditLog

/-! ### The run goes on -/

section

variable {log : AuditLog} {last : Option (Event Op Op.Answer)} {α ε : Type} {p : Program α}

theorem AuditLog.Open.working (h : log.Open) : log.Working none :=
  ⟨h, (fun _ heq => by cases heq), fun _ _ heq => by cases heq⟩

theorem AuditRecord.stops_of_inner {record : AuditRecord} (h : record.event.Inner) : record.stops = false := by
  obtain ⟨runId, invocationId, sequence, event⟩ := record
  cases event with
  | runStopped turns reason => exact h.elim
  | _ => rfl

/-- One more record. -/
theorem AuditLog.Open.deliver (h : log.Open) {record : AuditRecord} (hinner : record.event.Inner)
    (hsequence : record.sequence ≤ log.reserved) :
    AuditLog.Open { log with records := log.records ++ [record] } where
  started := by
    unfold AuditLog.started
    rw [List.any_append, show log.records.any _ = true from h.started, Bool.true_or]
  unstopped := List.forall_mem_append.mpr
    ⟨h.unstopped, List.forall_mem_singleton.mpr (AuditRecord.stops_of_inner hinner)⟩
  numbered := List.forall_mem_append.mpr ⟨h.numbered, List.forall_mem_singleton.mpr hsequence⟩
  undelivered := h.undelivered

/-- **One step** of the loop. -/
theorem AuditLog.Working.step (h : log.Working last) {op : Op} (hop : (numbers Op.Works).allows last op)
    {answer : op.Answer} (hadmits : closes.admits log op answer) :
    AuditLog.Working (some ⟨op, answer⟩) (log.step op answer) := by
  cases op with
  | deliver record =>
    have hsequence := h.reserved record.sequence hop.1
    exact ⟨h.toOpen.deliver hop.2 hsequence, (fun _ heq => by cases heq), fun _ _ heq => by cases heq⟩
  | reserveSequence =>
    have hlater : log.reserved < answer := of_decide_eq_true hadmits.1
    have hnumbered : ∀ r ∈ log.records, r.sequence ≤ answer := fun r hr => by
      have := h.numbered r hr
      omega
    refine ⟨⟨h.started, h.unstopped, hnumbered, h.undelivered⟩, fun sequence heq => ?_, fun _ _ heq => by cases heq⟩
    cases heq
    exact Nat.le_refl _
  | driver call =>
    cases call with
    | disposition active =>
      refine ⟨h.toOpen, (fun _ heq => by cases heq), fun _ _ heq => ?_⟩
      cases heq
      have hresolves := hadmits.2
      simp [AuditLog.completes, AuditLog.resolves, h.started] at hresolves
    | beginInvocationRunStoppedAudit replay => exact hop.elim
    | beginRecoveryRunStoppedAudit replay => exact hop.elim
    | beginTerminalAuditRetry replay => exact hop.elim
    | closeActiveLifecycleFromMatchingCompletedCanonicalReplay fence => exact hop.elim
    | _ => exact ⟨h.toOpen, (fun _ heq => by cases heq), fun _ _ heq => by cases heq⟩
  | _ => exact ⟨h.toOpen, (fun _ heq => by cases heq), fun _ _ heq => by cases heq⟩

/-- **A part of the loop** keeps the span open. -/
theorem AuditLog.Working.holds {Q : α → Option (Event Op Op.Answer) → Prop} (h : log.Working last)
    (hp : Holds (numbers Op.Works) Q p last) :
    Holds closes (fun a log' => ∃ last', Q a last' ∧ log'.Working last') p log :=
  hp.simulate (R := fun last (log : AuditLog) => log.Working last) h fun _ _ _ hworking hop =>
    ⟨trivial, fun _ hadmits => ⟨trivial, hworking.step hop hadmits⟩⟩

theorem AuditLog.Open.keeps (h : log.Open) (hp : Numbered Op.Works p) :
    Holds closes (fun _ log' => log'.Open) p log :=
  (h.working.holds hp).mono fun _ _ ⟨_, _, hworking⟩ => hworking.toOpen

/-! ### The run says nothing -/

/-- No record is handed to the sinks, and no terminal audit is done. -/
def Op.Unheard : Op → Prop
  | .deliver _ => False
  | .driver call => call.Plain
  | _ => True

/-- A program that hands no record to the sinks. -/
abbrev Unheard (p : Program α) : Prop := Uses Op.Unheard p

theorem AuditLog.step_unheard (log : AuditLog) {op : Op} (hop : op.Unheard) (answer : op.Answer) :
    (log.step op answer).records = log.records ∧ (log.step op answer).delivered = log.delivered := by
  unfold AuditLog.step
  split
  · exact hop.elim
  · exact ⟨rfl, rfl⟩
  · exact hop.elim
  · exact hop.elim
  · exact hop.elim
  · exact hop.elim
  · exact ⟨rfl, rfl⟩

theorem Unheard.keeps (h : Unheard p) :
    Holds closes (fun _ log' => log'.records = log.records ∧ log'.delivered = log.delivered) p log := by
  refine Uses.holds (I := fun log' : AuditLog => log'.records = log.records ∧ log'.delivered = log.delivered)
    h (fun log' op hsame hop => ⟨trivial, fun answer _ => ?_⟩) ⟨rfl, rfl⟩
  obtain ⟨hrecords, hdelivered⟩ := log'.step_unheard hop answer
  exact ⟨hrecords.trans hsame.1, hdelivered.trans hsame.2⟩

theorem Unheard.ended (h : Unheard p) (hlog : log.Ended) : Holds closes (fun _ log' => log'.Ended) p log := by
  refine h.keeps.mono fun _ log' hsame => ⟨?_, fun hdelivered => ?_⟩
  · unfold AuditLog.started
    rw [hsame.1]
    exact hlog.started
  · unfold AuditLog.Closed
    rw [hsame.1]
    exact hlog.closed (hsame.2 ▸ hdelivered)

/-- A run that replays a record. -/
structure AuditLog.Replays (log : AuditLog) : Prop where
  replaying : log.replaying = true
  records : log.records = [] ∨ ∃ record, log.records = [record] ∧ record.stops = true

theorem AuditLog.Replays.whole (h : log.Replays) : log.Whole where
  closed hstarted := by
    have hunstarted : log.started = false := by
      unfold AuditLog.started
      rcases h.records with hempty | ⟨record, hrecord, hstops⟩
      · rw [hempty]
        rfl
      · rw [hrecord]
        obtain ⟨runId, invocationId, sequence, event⟩ := record
        cases event with
        | runStarted model => cases hstops
        | _ => rfl
    rw [hunstarted] at hstarted
    cases hstarted
  silent _ hnot := by
    rw [h.replaying] at hnot
    cases hnot
  replayed _ _ := h.records

theorem AuditLog.step_replaying (log : AuditLog) (op : Op) (answer : op.Answer) (h : log.replaying = true) :
    (log.step op answer).replaying = true := by
  unfold AuditLog.step
  split
  all_goals first | exact h | rfl

/-- What says nothing leaves the replayed record the only one. -/
theorem Unheard.replays {p : Program Unit} (hp : Unheard p) (h : log.Replays) :
    Holds closes (fun _ log' => log'.Whole) p log := by
  refine Holds.mono (Q := fun _ log' => log'.Replays) ?_ fun _ _ hlog' => hlog'.whole
  refine Uses.holds (I := AuditLog.Replays) hp (fun log' op hlog' hop => ⟨trivial, fun answer _ => ?_⟩) h
  refine ⟨log'.step_replaying op answer hlog'.replaying, ?_⟩
  show (log'.step op answer).records = [] ∨ ∃ record, (log'.step op answer).records = [record] ∧ record.stops = true
  rw [(log'.step_unheard hop answer).1]
  exact hlog'.records

end

/-! ### Closing a span -/

section

variable {trail : AuditTrail} {cfg : RunConfig} {c : RunContext} {log : AuditLog} {fence : Attempt}
  {turns : Nat} {usage : Usage} {reason : String}

/-- A record that says that the run stopped is ready, with its new number. -/
theorem prepareEvent_ready (haudited : trail.Audited) (h : log.Open) :
    Holds closes (fun r log' => ∃ record, r = .ok record ∧ log'.Ready trail record)
      (trail.prepareEvent (.runStopped turns reason)) log := by
  unfold AuditTrail.prepareEvent
  rw [if_neg fun hnone => haudited hnone.2 hnone.1]
  refine Holds.perform_bind trivial fun sequence hadmits => Holds.pure ⟨_, rfl, ?_⟩
  have hlater : log.reserved < sequence := of_decide_eq_true hadmits.1
  have hlast : ∀ r ∈ log.records, r.sequence < sequence := fun r hr => by
    have := h.numbered r hr
    omega
  exact ⟨⟨h.started, h.unstopped, fun r hr => Nat.le_of_lt (hlast r hr), h.undelivered⟩, rfl, hlast, rfl, rfl⟩

variable {record : AuditRecord}

/-- A record that is ready ends the span. -/
theorem AuditLog.Ready.holds (h : log.Ready trail record) :
    Holds closes (fun r log' => r = .ok () ∧ log'.Ended) (trail.emitPrepared record) log := by
  unfold AuditTrail.emitPrepared
  rw [if_neg fun hother => hother.elim (fun hne => hne h.runId) fun hne => hne h.invocationId]
  refine Holds.perform_bind trivial fun rejection hadmits => ?_
  obtain rfl : rejection = none := Option.isNone_iff_eq_none.mp hadmits.1
  refine Holds.pure ⟨rfl, ?_, fun _ => ⟨log.records, record, rfl, h.stops, fun r hr => ⟨h.unstopped r hr, h.last r hr⟩⟩⟩
  show (log.records ++ [record]).any _ = true
  rw [List.any_append, show log.records.any _ = true from h.started, Bool.true_or]

theorem emit_ends (haudited : trail.Audited) (h : log.Open) :
    Holds closes (fun r log' => r = .ok () ∧ log'.Ended) (trail.emit (.runStopped turns reason)) log := by
  refine Holds.bind (prepareEvent_ready haudited h) fun prepared log' hprepared => ?_
  obtain ⟨record, rfl, hready⟩ := hprepared
  exact hready.holds

theorem durableRunStoppedReplay_ready (haudited : trail.Audited) (hnamed : trail.invocationId.isSome = true)
    (kind : RunStoppedAuditKind) (receipt : RunStoppedReceipt) (h : log.Open) :
    Holds closes (fun r log' => ∃ replay record, r = .ok (replay, record) ∧ log'.Ready trail record)
      (durableRunStoppedReplay trail kind receipt turns reason) log := by
  unfold durableRunStoppedReplay
  split
  next hnone =>
    rw [hnone] at hnamed
    cases hnamed
  · refine Holds.bind (prepareEvent_ready haudited h) fun prepared log' hprepared => ?_
    obtain ⟨record, rfl, hready⟩ := hprepared
    exact Holds.pure ⟨_, record, rfl, hready⟩

/-! #### After the last record -/

theorem failOutcome_unheard (error : AikitError) (reason : String) : Unheard (failOutcome error usage reason) :=
  .call trivial fun _ => .perform trivial

theorem finalizeReceipt_unheard (receipt : RunStoppedReceipt) : Unheard (finalizeReceipt receipt) := by
  refine .call trivial fun persisted => ?_
  cases persisted with
  | error error => exact failOutcome_unheard _ _
  | ok _ => exact .perform trivial

theorem nonexecutingOutcome_unheard (auditClosed : Bool) (disposition : Disposition) :
    Unheard (nonexecutingOutcome usage auditClosed disposition) := by
  unfold nonexecutingOutcome
  split
  · exact failOutcome_unheard _ _
  · split
    · trivial
    · exact .ite (.perform trivial) (.perform trivial)
  · exact failOutcome_unheard _ _
  · exact failOutcome_unheard _ _

/-- A call of the driver, after the last record. -/
theorem driver_unheard {β : Type} {call : DriverCall} {f : Except DriverError call.Value → Program β}
    (hcall : call.Plain) (hok : ∀ a, Unheard (f (.ok a))) (herror : ∀ error, Unheard (f (.error error))) :
    Unheard (driver call >>= f) := by
  refine .call hcall fun answer => ?_
  cases answer with
  | ok a => exact hok a
  | error error => exact herror error

/-- A record that is ready is handed over, and then the rest. -/
theorem AuditLog.Ready.ends (h : log.Ready trail record)
    {f : Except AikitError Unit → Program Unit} (hf : Unheard (f (.ok ()))) :
    Holds closes (fun _ log' => log'.Ended) (trail.emitPrepared record >>= f) log := by
  refine Holds.bind h.holds fun emitted log' hemitted => ?_
  obtain ⟨rfl, hended⟩ := hemitted
  exact hf.ended hended

/-! #### Beside another invocation -/

theorem closeByRecovery_ends (receipt : RunStoppedReceipt) (audit : Attempt)
    (replay : RunStoppedAuditReplayEnvelope) (h : log.Ready cfg.audit record) :
    Holds closes (fun _ log' => log'.Ended) (closeByRecovery cfg fence receipt (some audit) replay record)
      log :=
  h.ends (driver_unheard (by trivial) (fun _ => finalizeReceipt_unheard _) fun _ => failOutcome_unheard _ _)

/-- The recovery audit was delivered before. -/
theorem closeByRecovery_unheard (receipt : RunStoppedReceipt) (replay : RunStoppedAuditReplayEnvelope)
    (record : AuditRecord) : Unheard (closeByRecovery cfg fence receipt none replay record) :=
  driver_unheard (by trivial) (fun _ => finalizeReceipt_unheard _) fun _ => failOutcome_unheard _ _

theorem closeSuperseded_ends (haudited : cfg.audit.Audited) (hnamed : cfg.audit.invocationId.isSome = true)
    (receipt : RunStoppedReceipt) (h : log.Open) :
    Holds closes (fun _ log' => log'.Ended) (closeSuperseded cfg fence turns receipt) log := by
  refine Holds.perform_bind trivial fun closed hadmits => ?_
  match closed with
  | .error error => exact absurd hadmits.2 Bool.false_ne_true
  | .ok true => exact (finalizeReceipt_unheard receipt).ended ⟨h.started, fun hnot => by cases hnot⟩
  | .ok false =>
    refine Holds.bind (durableRunStoppedReplay_ready haudited hnamed _ _ h) fun prepared log' hprepared => ?_
    obtain ⟨replay, record, rfl, hready⟩ := hprepared
    refine Holds.perform_bind trivial fun begun hadmits => ?_
    match begun with
    | .error error => exact absurd hadmits.2 Bool.false_ne_true
    | .ok (.execute activityId attempt) => exact closeByRecovery_ends _ _ _ hready
    | .ok (.reuseCompleted activityId output) =>
      exact (closeByRecovery_unheard _ _ _).ended ⟨hready.started, fun hnot => by cases hnot⟩

/-! #### At a boundary -/

theorem closeForReason_ends (haudited : cfg.audit.Audited) (hnamed : cfg.audit.invocationId.isSome = true)
    (disposition : Disposition) (h : log.Open) :
    Holds closes (fun _ log' => log'.Ended) (closeForReason cfg fence turns usage disposition reason) log := by
  refine Holds.bind (durableRunStoppedReplay_ready haudited hnamed _ _ h) fun prepared log' hprepared => ?_
  obtain ⟨replay, record, rfl, hready⟩ := hprepared
  exact hready.ends (driver_unheard (by trivial) (fun _ => nonexecutingOutcome_unheard _ _) fun _ =>
    .call trivial fun _ => nonexecutingOutcome_unheard _ _)

/-- **A boundary**, other than a terminal audit to be retried. -/
theorem closeAtBoundary_ends (haudited : cfg.audit.Audited) (hnamed : cfg.audit.invocationId.isSome = true)
    {disposition : Disposition} (hretry : ∀ replay, disposition ≠ .retryTerminalAudit replay) (h : log.Open) :
    Holds closes (fun _ log' => log'.Ended) (closeAtBoundary cfg fence turns usage disposition) log := by
  cases disposition with
  | finalizeTerminal receipt => exact closeSuperseded_ends haudited hnamed receipt h
  | retryTerminalAudit replay => exact absurd rfl (hretry replay)
  | _ => exact closeForReason_ends haudited hnamed _ h

/-! #### The terminal audit of this invocation -/

theorem emitRunStopped_ends (haudited : trail.Audited) (h : log.Open) {f : String → Program Unit}
    (hf : ∀ reason, Unheard (f reason)) :
    Holds closes (fun _ log' => log'.Ended) (emitRunStopped trail turns reason >>= f) log := by
  have hemit : Holds closes (fun _ log' => log'.Ended) (emitRunStopped trail turns reason) log := by
    refine Holds.bind (emit_ends haudited h) fun emitted log' hemitted => ?_
    obtain ⟨rfl, hended⟩ := hemitted
    exact Holds.pure hended
  exact Holds.bind hemit fun reason log' hended => (hf reason).ended hended

theorem completeAs_unheard (reason : String) : Unheard (completeAs usage reason) := .perform trivial

theorem deliverCanonical_ends (audit : Attempt) (replay : RunStoppedAuditReplayEnvelope) (h : log.Ready trail record) :
    Holds closes (fun _ log' => log'.Ended) (deliverCanonical trail fence audit replay record) log := by
  refine h.ends (driver_unheard (by trivial) (fun _ => driver_unheard (by trivial) (fun _ => completeAs_unheard _) fun _ => ?_) fun _ => ?_)
  · exact .call trivial fun _ => completeAs_unheard _
  · exact .call trivial fun _ => completeAs_unheard _

/-- A canonical audit that is refused leads to a boundary. -/
theorem resolveRefused_holds {β : Type} {Q : β → AuditLog → Prop} {error : DriverError}
    {active : Option String} {f : Except AikitError Disposition → Program β} (h : log.Open)
    (hclosing : log.closing = true) (hrecovery : error.recoveryRequired = true)
    (hf : ∀ disposition, (∀ replay, disposition ≠ .retryTerminalAudit replay) →
      Holds closes Q (f (.ok disposition)) log) :
    Holds closes Q (resolveDurableActivityBoundary error active >>= f) log := by
  unfold resolveDurableActivityBoundary
  rw [if_neg (by rw [hrecovery]; exact Bool.true_eq_false.mp)]
  refine Holds.perform_bind trivial fun answer hadmits => ?_
  have hresolves : log.resolves answer = true := by
    have hcompletes : (!log.started || log.resolves answer) = true := hadmits.2
    rw [h.started] at hcompletes
    exact hcompletes
  unfold AuditLog.resolves at hresolves
  rw [hclosing] at hresolves
  match answer with
  | .error error => exact absurd hresolves Bool.false_ne_true
  | .ok .execute => exact absurd hresolves Bool.false_ne_true
  | .ok (.retryTerminalAudit replay) => exact absurd hresolves Bool.false_ne_true
  | .ok (.finalizeTerminal receipt) => exact hf _ fun _ heq => by cases heq
  | .ok (.awaitingResume reason) => exact hf _ fun _ heq => by cases heq
  | .ok (.reconcileRequired reason) => exact hf _ fun _ heq => by cases heq
  | .ok (.alreadyTerminal status reason) => exact hf _ fun _ heq => by cases heq

theorem closeCanonically_ends (haudited : c.cfg.audit.Audited)
    (hnamed : c.cfg.audit.invocationId.isSome = true) (lifecycle : Lifecycle) (receipt : RunStoppedReceipt)
    (h : log.Open) : Holds closes (fun _ log' => log'.Ended) (closeCanonically c lifecycle receipt) log := by
  refine Holds.bind (durableRunStoppedReplay_ready haudited hnamed _ _ h) fun prepared log' hprepared => ?_
  obtain ⟨replay, record, rfl, hready⟩ := hprepared
  refine Holds.perform_bind trivial fun begun hadmits => ?_
  have hopen : AuditLog.Open { log' with closing := true } :=
    ⟨hready.started, hready.unstopped, hready.numbered, hready.undelivered⟩
  match begun with
  | .ok (.execute activityId attempt) =>
    exact deliverCanonical_ends ⟨activityId, attempt⟩ replay ⟨hopen, hready.stops, hready.last, hready.runId, hready.invocationId⟩
  | .ok (.reuseCompleted activityId output) =>
    dsimp only
    split
    · exact closeSuperseded_ends haudited hnamed _ hopen
    · refine Holds.perform_bind trivial fun _ _ => Holds.bind (emit_ends haudited hopen) fun emitted log'' hemitted => ?_
      obtain ⟨rfl, hended⟩ := hemitted
      exact Unheard.ended (.perform trivial) hended
  | .error error =>
    have hrecovery : error.recoveryRequired = true := hadmits.2
    exact resolveRefused_holds hopen rfl hrecovery fun disposition hretry =>
      closeAtBoundary_ends haudited hnamed hretry hopen

theorem closeInvocation_ends (haudited : c.cfg.audit.Audited)
    (hfenced : c.cfg.durable = true → c.lifecycle.isSome = true ∧ c.cfg.audit.invocationId.isSome = true)
    (receipt : RunStoppedReceipt) (h : log.Open) :
    Holds closes (fun _ log' => log'.Ended) (closeInvocation c receipt) log := by
  unfold closeInvocation
  split
  next hdurable =>
    obtain ⟨hlifecycle, hnamed⟩ := hfenced hdurable
    split
    next hnone =>
      rw [hnone] at hlifecycle
      cases hlifecycle
    next lifecycle _ =>
      refine Holds.perform_bind trivial fun poisoned _ => Holds.perform_bind trivial fun status _ => ?_
      refine Holds.ite (fun _ => ?_) fun _ => closeCanonically_ends haudited hnamed lifecycle receipt h
      exact emitRunStopped_ends haudited h fun _ => completeAs_unheard _
  · exact emitRunStopped_ends haudited h fun _ => completeAs_unheard _

end

/-! ### A run without a sink -/

section

variable {trail : AuditTrail} {c : RunContext} {turns : Nat} {usage : Usage} {reason : String}

/-- Where a sink is needed and there is none, no record is handed over. -/
theorem prepareEvent_mute (h : ¬ trail.Audited) (event : AuditEvent) :
    ∃ error, trail.prepareEvent event = pure (.error error) := by
  unfold AuditTrail.Audited at h
  push Not at h
  exact ⟨_, if_pos ⟨h.2, h.1⟩⟩

theorem emit_mute (h : ¬ trail.Audited) (event : AuditEvent) :
    ∃ error, trail.emit event = pure (.error error) := by
  obtain ⟨error, heq⟩ := prepareEvent_mute h event
  refine ⟨error, ?_⟩
  unfold AuditTrail.emit
  rw [heq]
  rfl

theorem emitRunStopped_mute (h : ¬ trail.Audited) : Unheard (emitRunStopped trail turns reason) := by
  obtain ⟨error, heq⟩ := emit_mute h (.runStopped turns reason)
  unfold emitRunStopped
  rw [heq]
  exact .call trivial fun _ => trivial

theorem durableRunStoppedReplay_mute (h : ¬ trail.Audited) (kind : RunStoppedAuditKind)
    (receipt : RunStoppedReceipt) :
    ∃ error, durableRunStoppedReplay trail kind receipt turns reason = pure (.error error) := by
  unfold durableRunStoppedReplay
  split
  · exact ⟨_, rfl⟩
  · obtain ⟨error, heq⟩ := prepareEvent_mute h (.runStopped turns reason)
    refine ⟨error, ?_⟩
    rw [heq]
    rfl

theorem closeInvocation_mute (h : ¬ c.cfg.audit.Audited) (receipt : RunStoppedReceipt) :
    Unheard (closeInvocation c receipt) := by
  have hplain : ∀ reason, Unheard (do
      let reason ← emitRunStopped c.trail receipt.turns reason
      completeAs receipt.usage reason) :=
    fun reason => (emitRunStopped_mute h).bind fun _ => completeAs_unheard _
  unfold closeInvocation
  split
  · split
    · exact failOutcome_unheard _ _
    · refine .call trivial fun poisoned => .call trivial fun status => .ite (hplain _) ?_
      obtain ⟨error, heq⟩ := @durableRunStoppedReplay_mute c.trail receipt.turns receipt.reason h .canonical receipt
      unfold closeCanonically
      rw [heq]
      exact .call trivial fun _ => (emitRunStopped_mute h).bind fun _ => .perform trivial
  · exact hplain _

end

/-! ### The whole run -/

section

variable {cfg : RunConfig} {log : AuditLog} {lifecycle : Option Lifecycle}

/-- The fence of a durable run is open, and the invocation has a name. -/
def Fenced (cfg : RunConfig) (lifecycle : Option Lifecycle) : Prop :=
  cfg.durable = true → lifecycle.isSome = true ∧ cfg.audit.invocationId.isSome = true

/-- How the loop was left: the span is open, or the run did not start for want of a sink. -/
def AuditLog.LeftBy (cfg : RunConfig) (stop : Stop) (log : AuditLog) : Prop :=
  (cfg.audit.Audited ∧ ∃ last, stop.Seen cfg.durable last ∧ log.Working last) ∨
    (¬ cfg.audit.Audited ∧ log.records = [] ∧
      ∃ reason, stop = .reason reason false ∧ reason ≠ "budget_exceeded" ∧ reason ≠ "cancelled")

theorem AuditLog.Open.leftBy (h : log.Open) (haudited : cfg.audit.Audited) (reason : String) (emitted : Bool) :
    log.LeftBy cfg (.reason reason emitted) := .inl ⟨haudited, none, Stop.seen_reason, h.working⟩

theorem finishRun_ends (haudited : cfg.audit.Audited) (hfenced : Fenced cfg lifecycle) (turn : Nat)
    (usage : Usage) (reason : String) (emitted : Bool) (h : log.Open) :
    Holds closes (fun _ log' => log'.Ended) (finishRun cfg lifecycle turn usage reason emitted) log := by
  refine Holds.bind (h.keeps (reportEnd_quiet _ _).works) fun reason log' h' => ?_
  refine Holds.bind (h'.keeps (clearPermissions_quiet _).works) fun reason log'' h'' => ?_
  refine Holds.bind (h''.keeps (runStopHooks_quiet _).works) fun reason log3 h3 => ?_
  exact closeInvocation_ends (c := ⟨cfg, lifecycle, []⟩) haudited hfenced _ h3

theorem finishRun_mute (h : ¬ cfg.audit.Audited) {reason : String} (hbudget : reason ≠ "budget_exceeded")
    (hcancelled : reason ≠ "cancelled") (turn : Nat) (usage : Usage) (emitted : Bool) :
    Unheard (finishRun cfg lifecycle turn usage reason emitted) := by
  have hreport : Unheard (reportEnd cfg (min turn cfg.maxTurns) reason emitted) := by
    unfold reportEnd
    rw [if_neg fun hstop => hbudget hstop.1, if_neg hcancelled]
    trivial
  have hclear : ∀ reason, Unheard (clearPermissions cfg reason) := fun reason => by
    refine .call trivial fun cleared => ?_
    cases cleared with
    | ok _ => trivial
    | error error => exact .call trivial fun _ => trivial
  have hhooks : ∀ reason, Unheard (runStopHooks cfg (min turn cfg.maxTurns) reason usage) := fun reason => by
    refine .call trivial fun stopped => ?_
    cases stopped with
    | ok _ => trivial
    | error error => exact .call trivial fun _ => trivial
  exact hreport.bind fun _ => (hclear _).bind fun _ => (hhooks _).bind fun _ =>
    closeInvocation_mute (c := ⟨cfg, lifecycle, []⟩) h _

theorem AuditLog.Ended.whole (h : log.Ended) : log.Whole where
  closed _ := h.closed
  silent hnot := by
    rw [h.started] at hnot
    cases hnot
  replayed hnot := by
    rw [h.started] at hnot
    cases hnot

theorem AuditLog.whole_of_empty (h : log.records = []) : log.Whole where
  closed hstarted := by
    rw [show log.started = false from congrArg (List.any · _) h] at hstarted
    cases hstarted
  silent _ _ := h
  replayed _ _ := .inl h

theorem closeRun_whole (hfenced : Fenced cfg lifecycle) (exit : Exit) (h : log.LeftBy cfg exit.stop) :
    Holds closes (fun _ log' => log'.Whole) (closeRun cfg lifecycle exit) log := by
  obtain ⟨turn, usage, stop⟩ := exit
  rcases h with ⟨haudited, last, hseen, hworking⟩ | ⟨hmute, hempty, reason, heq, hbudget, hcancelled⟩
  · refine Holds.mono (Q := fun _ log' => log'.Ended) ?_ fun _ _ hended => hended.whole
    cases stop with
    | reason reason emitted => exact finishRun_ends haudited hfenced _ _ _ _ hworking.toOpen
    | boundary disposition =>
      obtain ⟨hdurable, active, hlast⟩ := hseen disposition rfl
      obtain ⟨hlifecycle, hnamed⟩ := hfenced hdurable
      obtain ⟨lifecycle, rfl⟩ := Option.isSome_iff_exists.mp hlifecycle
      refine closeAtBoundary_ends haudited hnamed (fun replay heq => ?_) hworking.toOpen
      subst heq
      exact hworking.classified active replay hlast
  · obtain rfl : stop = .reason reason false := heq
    exact Holds.mono (finishRun_mute hmute hbudget hcancelled turn usage false).keeps
      fun _ _ hsame => AuditLog.whole_of_empty (hsame.1.trans hempty)

/-- A run that starts says so, and one that cannot says nothing. -/
theorem emitRunStarted_holds (h : log.records = []) (hdelivered : log.delivered = false) :
    Holds closes (fun r log' => (∀ a, r = .ok a → cfg.audit.Audited ∧ log'.Open) ∧
        ∀ reason, r = .error reason → log'.LeftBy cfg (.reason reason false))
      (emitRunStarted cfg lifecycle) log := by
  by_cases haudited : cfg.audit.Audited
  · unfold emitRunStarted AuditTrail.emit AuditTrail.prepareEvent
    rw [if_neg fun hnone => haudited hnone.2 hnone.1]
    refine Holds.perform_bind trivial fun sequence _ => ?_
    show Holds _ _ (cfg.audit.emitPrepared ⟨_, _, sequence, _⟩ >>= _) _
    unfold AuditTrail.emitPrepared
    rw [if_neg fun hother => hother.elim (fun hne => hne rfl) fun hne => hne rfl]
    refine Holds.perform_bind trivial fun rejection hadmits => ?_
    obtain rfl : rejection = none := Option.isNone_iff_eq_none.mp hadmits.1
    refine Holds.pure ⟨fun _ _ => ⟨haudited, ?_⟩, fun _ heq => by cases heq⟩
    have hrecords : (closes.step (closes.step log .reserveSequence sequence)
        (.deliver ⟨cfg.audit.runId, cfg.audit.invocationId, sequence, .runStarted cfg.model⟩) none).records =
        [⟨cfg.audit.runId, cfg.audit.invocationId, sequence, .runStarted cfg.model⟩] := by
      show log.records ++ _ = _
      rw [h]
      rfl
    refine ⟨?_, ?_, ?_, hdelivered⟩
    · show List.any _ _ = true
      rw [hrecords]
      rfl
    · rw [hrecords]
      exact List.forall_mem_singleton.mpr rfl
    · rw [hrecords]
      exact List.forall_mem_singleton.mpr (Nat.le_refl sequence)
  · obtain ⟨error, heq⟩ := emit_mute haudited (.runStarted cfg.model)
    have hleft : ∀ (log' : AuditLog) (reason : String), log'.records = [] → reason ≠ "budget_exceeded" →
        reason ≠ "cancelled" → log'.LeftBy cfg (.reason reason false) :=
      fun _ reason hempty hbudget hcancelled => .inr ⟨haudited, hempty, reason, rfl, hbudget, hcancelled⟩
    have hfail : ∀ (log' : AuditLog) (reason : String), log'.records = [] → reason ≠ "budget_exceeded" →
        reason ≠ "cancelled" → Holds closes (fun r log' => (∀ a, r = .ok a → cfg.audit.Audited ∧ log'.Open) ∧
          ∀ reason, r = .error reason → log'.LeftBy cfg (.reason reason false))
          (pure (.error reason) : Program (Except String Unit)) log' := by
      refine fun log' reason hempty hbudget hcancelled => Holds.pure ⟨(fun _ heq => by cases heq), fun _ heq => ?_⟩
      cases heq
      exact hleft _ _ hempty hbudget hcancelled
    unfold emitRunStarted
    rw [heq]
    refine Holds.perform_bind trivial fun _ _ => ?_
    cases lifecycle with
    | none => exact hfail _ _ h (by decide) (by decide)
    | some lifecycle =>
      refine Holds.perform_bind trivial fun failed _ => ?_
      cases failed with
      | ok _ => exact hfail _ _ h (by decide) (by decide)
      | error commitError =>
        exact Holds.perform_bind trivial fun _ _ => hfail _ _ h (by decide) (by decide)

theorem startTools_works [JsonSchema] : Numbered Op.Works (startTools cfg) := by
  unfold startTools
  split
  · trivial
  · exact (terminalFailure_quiet _ _ _).works.bind fun _ => .call trivial fun _ => trivial

theorem startBudget_works : Numbered Op.Works startBudget := by
  refine .call trivial fun tracker => ?_
  cases tracker with
  | ok _ => trivial
  | error error => exact .call trivial fun _ => trivial

theorem startPrompt_works : Numbered Op.Works (startPrompt cfg) := by
  unfold startPrompt
  split
  · trivial
  refine .call trivial fun outcome => ?_
  match outcome with
  | .error trigger => trivial
  | .ok .continue => trivial
  | .ok (.rewrite replacement) => exact .call trivial fun _ => trivial
  | .ok (.block reason) =>
    exact (terminalFailure_quiet _ _ _).works.bind fun _ => .call trivial fun _ => trivial

variable [JsonSchema] [ActivityCodec]

theorem runLoop_leaves (h : log.records = []) (hdelivered : log.delivered = false) :
    Holds closes (fun exit log' => log'.LeftBy cfg exit.stop) (runLoop cfg lifecycle) log := by
  -- a part of the start that is left with a reason, while the span is open
  have hopen : ∀ {α : Type} {p : Program (Except String α)} {log : AuditLog}, cfg.audit.Audited → log.Open →
      Numbered Op.Works p → Passes closes (fun _ log' => cfg.audit.Audited ∧ log'.Open)
        (fun reason log' => log'.LeftBy cfg (.reason reason false)) (ExceptT.mk p) log :=
    fun haudited hlog hp => Holds.mono (hlog.keeps hp) fun _ _ hlog' =>
      ⟨fun _ _ => ⟨haudited, hlog'⟩, fun _ _ => hlog'.leftBy haudited _ _⟩
  have hstart : Passes closes (fun _ log' => cfg.audit.Audited ∧ log'.Open)
      (fun reason log' => log'.LeftBy cfg (.reason reason false)) (startRun cfg lifecycle) log := by
    have hstarted : Passes closes (fun _ log' => cfg.audit.Audited ∧ log'.Open)
        (fun reason log' => log'.LeftBy cfg (.reason reason false))
        (ExceptT.mk (emitRunStarted cfg lifecycle)) log := emitRunStarted_holds h hdelivered
    refine hstarted.bind fun _ log1 h1 => (hopen h1.1 h1.2 startTools_works).bind fun _ log2 h2 => ?_
    refine (hopen h2.1 h2.2 startBudget_works).bind fun _ log3 h3 => ?_
    refine Passes.perform_bind trivial fun trigger _ => ?_
    cases trigger with
    | some trigger => exact Passes.throw (h3.2.leftBy h3.1 _ _)
    | none => exact (hopen h3.1 h3.2 startPrompt_works).bind fun _ _ h4 => Passes.pure h4
  refine Passes.run_bind hstart (fun started log' h' => ?_) fun reason log' hleft => Holds.pure hleft
  obtain ⟨haudited, hlog'⟩ := h'
  refine Holds.mono (hlog'.working.holds (@agentLoop_works ⟨cfg, lifecycle, started.1⟩ _ _ _ none)) fun exit log'' hloop => ?_
  obtain ⟨last, hseen, hworking⟩ := hloop
  exact .inl ⟨haudited, last, hseen, hworking⟩

/-! #### Before the start -/

omit [JsonSchema] [ActivityCodec] in
theorem unstartedOutcome_unheard (disposition : Disposition) : Unheard (unstartedOutcome disposition) := by
  unfold unstartedOutcome
  split
  · trivial
  · exact failOutcome_unheard _ _

omit [JsonSchema] [ActivityCodec] in
theorem closeUnstarted_unheard (fence : Attempt) (disposition : Disposition) :
    Unheard (closeUnstarted fence disposition) := by
  unfold closeUnstarted
  split
  · exact driver_unheard (by trivial) (fun _ => finalizeReceipt_unheard _) fun _ => failOutcome_unheard _ _
  · exact driver_unheard (by trivial) (fun _ => unstartedOutcome_unheard _) fun _ => failOutcome_unheard _ _

omit [JsonSchema] [ActivityCodec] in
theorem openLifecycle_unheard : Unheard (openLifecycle cfg) := by
  have hfailed : ∀ error, Unheard (preflightFailed error) := fun error =>
    (failOutcome_unheard error _).bind fun _ => trivial
  unfold openLifecycle
  split
  · exact hfailed _
  refine .call trivial fun begun => ?_
  match begun with
  | .error error => exact hfailed _
  | .ok (.reuseCompleted _ _) => exact hfailed _
  | .ok (.execute activityId attempt) =>
    refine .call trivial fun disposition => ?_
    have hclosed : ∀ disposition : Disposition, Unheard (do
        closeUnstarted ⟨activityId, attempt⟩ disposition
        pure (none : Option Lifecycle)) := fun disposition =>
      (closeUnstarted_unheard _ _).bind fun _ => trivial
    cases disposition with
    | error error => exact hfailed _
    | ok disposition =>
      have hend := hclosed disposition
      cases disposition with
      | execute => trivial
      | _ => exact hend

omit [JsonSchema] [ActivityCodec] in
/-- A fence is opened for an invocation with a name. -/
theorem openLifecycle_named :
    Returns (fun r => r.isSome = true → cfg.audit.invocationId.isSome = true) (openLifecycle cfg) := by
  unfold openLifecycle
  split
  · exact Returns.bind (Returns.trivial _) fun _ _ => Returns.pure fun hsome => by cases hsome
  next invocationId hnamed => exact Returns.mono (Returns.trivial _) fun _ _ _ => by rw [hnamed]; rfl

theorem runExecuting_whole (h : log.records = []) (hdelivered : log.delivered = false) :
    Holds closes (fun _ log' => log'.Whole) (runExecuting cfg) log := by
  unfold runExecuting
  split
  next hdurable =>
    refine Holds.bind (openLifecycle_unheard.keeps.and_returns openLifecycle_named) fun lifecycle log' hopened => ?_
    obtain ⟨⟨hrecords, hsame⟩, hnamed⟩ := hopened
    cases lifecycle with
    | none => exact Holds.pure (AuditLog.whole_of_empty (hrecords.trans h))
    | some lifecycle =>
      refine Holds.bind (runLoop_leaves (hrecords.trans h) (hsame.trans hdelivered)) fun exit _ hleft => ?_
      exact closeRun_whole (fun _ => ⟨rfl, hnamed rfl⟩) exit hleft
  next hdurable =>
    refine Holds.bind (runLoop_leaves h hdelivered) fun exit _ hleft => ?_
    exact closeRun_whole (fun hnot => absurd hnot hdurable) exit hleft

omit [JsonSchema] [ActivityCodec] in
/-- **A replay** hands over one record at most. -/
theorem replay_whole {trail : AuditTrail} {turns : Nat} {reason : String}
    {f : Except AikitError Unit → Program Unit} (hf : ∀ emitted, Unheard (f emitted))
    (h : log.records = []) (hreplaying : log.replaying = true) :
    Holds closes (fun _ log' => log'.Whole) (trail.emit (.runStopped turns reason) >>= f) log := by
  by_cases haudited : trail.Audited
  · unfold AuditTrail.emit AuditTrail.prepareEvent
    rw [if_neg fun hnone => haudited hnone.2 hnone.1]
    refine Holds.perform_bind trivial fun sequence _ => ?_
    show Holds _ _ (trail.emitPrepared ⟨_, _, sequence, _⟩ >>= _) _
    unfold AuditTrail.emitPrepared
    rw [if_neg fun hother => hother.elim (fun hne => hne rfl) fun hne => hne rfl]
    refine Holds.perform_bind trivial fun rejection hadmits => ?_
    obtain rfl : rejection = none := Option.isNone_iff_eq_none.mp hadmits.1
    refine (hf (.ok ())).replays ⟨hreplaying, .inr
      ⟨⟨trail.runId, trail.invocationId, sequence, .runStopped turns reason⟩, ?_, rfl⟩⟩
    show log.records ++ _ = _
    rw [h]
    rfl
  · obtain ⟨error, heq⟩ := emit_mute haudited (.runStopped turns reason)
    rw [heq]
    exact (hf (.error error)).replays ⟨hreplaying, .inl h⟩

omit [JsonSchema] [ActivityCodec] in
theorem endUnstarted_whole (disposition : Disposition) (h : log.records = []) :
    Holds closes (fun _ log' => log'.Whole) (endUnstarted cfg disposition) log := by
  have hunheard : ∀ {p : Program Unit}, Unheard p → Holds closes (fun _ log' => log'.Whole) p log :=
    fun hp => hp.keeps.mono fun _ _ hsame => AuditLog.whole_of_empty (hsame.1.trans h)
  unfold endUnstarted
  split
  · exact hunheard trivial
  next replay =>
    split
    · refine ⟨trivial, fun begun _ => ?_⟩
      cases begun with
      | error error => exact hunheard (failOutcome_unheard _ _)
      | ok retry =>
        refine replay_whole (fun emitted => ?_) h rfl
        cases emitted with
        | error error =>
          refine .call trivial fun _ => driver_unheard trivial (fun _ => ?_) fun _ => failOutcome_unheard _ _
          exact .perform trivial
        | ok _ => exact driver_unheard trivial (fun _ => finalizeReceipt_unheard _) fun _ => failOutcome_unheard _ _
    · exact hunheard (failOutcome_unheard _ _)
  · exact hunheard (failOutcome_unheard _ _)
  · exact hunheard (failOutcome_unheard _ _)
  · split
    · exact hunheard trivial
    · exact hunheard (.perform trivial)
  · split
    · exact hunheard (finalizeReceipt_unheard _)
    · exact hunheard (failOutcome_unheard _ _)

theorem runPrepared_whole (h : log.records = []) (hdelivered : log.delivered = false) :
    Holds closes (fun _ log' => log'.Whole) (runPrepared cfg) log := by
  unfold runPrepared
  split
  · exact (failOutcome_unheard _ _).keeps.mono fun _ _ hsame => AuditLog.whole_of_empty (hsame.1.trans h)
  split
  · exact runExecuting_whole h hdelivered
  · exact endUnstarted_whole _ h

theorem runAgent_whole (cfg : RunConfig) : Holds closes (fun _ log' => log'.Whole) (runAgent cfg) .start := by
  have hclaimed : ∀ log : AuditLog, log.records = [] → log.delivered = false →
      Holds closes (fun _ log' => log'.Whole) (runClaimed cfg) log := by
    intro log h hdelivered
    have hclassify : Unheard (classify cfg) := classify_uses.mono fun op hop => by
      cases op with
      | deliver record => exact hop.elim
      | driver call => exact hop
      | _ => trivial
    refine Holds.bind hclassify.keeps fun cfg' log' hsame => ?_
    exact runPrepared_whole (hsame.1.trans h) (hsame.2.trans hdelivered)
  refine Holds.perform_bind trivial fun _ _ => ?_
  split
  · refine Holds.perform_bind trivial fun claimed _ => ?_
    cases claimed with
    | error error =>
      exact (failOutcome_unheard _ _).keeps.mono fun _ _ hsame => AuditLog.whole_of_empty hsame.1
    | ok _ => exact hclaimed _ rfl rfl
  · exact hclaimed _ rfl rfl

/-- **Audit spans**: a run whose terminal audit does not fail, and that started, says once and last
that it stopped, with its largest number, unless that was delivered before. A run that did not
start says nothing of its own: it hands over no record, or the one `RunStopped` that it replays. -/
theorem span_closed (cfg : RunConfig) {tr : Trace} (h : Path Prog.Step (runAgent cfg) tr (.ret ()))
    (hruns : closes.Admitted .start tr) : (closes.after .start tr).Whole :=
  (runAgent_whole cfg).result h hruns

end

/-- A codec that remembers nothing. -/
@[reducible] def nullCodec : ActivityCodec where
  toDeltas _ := .error "nothing is recorded"
  ofDeltas _ := .ok .null
  toToolOutput _ := .error "nothing is recorded"
  ofToolOutput _ := .ok .null

/-- A driver of a new run, which answers this when the terminal audit begins. -/
def newRun (begun : Except DriverError DurableActivity) (tr : Trace) : (op : Op) → op.Answer
  | .reserveSequence => tr.length + 1
  | .driver .claimInvocation => .ok ()
  | .driver .attachGovernance => .ok ()
  | .driver .runId => .ok "run"
  | .driver (.disposition _) => .ok .execute
  | .driver (.beginInvocationLifecycle _) => .ok (.execute "lifecycle" 1)
  | .driver (.beginActivity _ _ _) => .ok (.execute "activity" 1)
  | .driver (.completeActivity _ _) => .ok ()
  | .driver (.beginInvocationRunStoppedAudit _) => begun
  | .driver (.completeRunStoppedAuditAndInvocationLifecycle _ _ _) => .ok ()
  | .driver (.finalizeRunStoppedReceipt _) => .ok ()
  | op => smooth (plainDeltas "end_turn") op

/-- A durable run with a model that answers at once. -/
def sampleDurable (begun : Except DriverError DurableActivity) : Trace × Program Unit :=
  Prog.exec (fun tr op => some (newRun begun tr op))
    (@runAgent emptySchema nullCodec { sampleConfig with durable := true }) []

/-- The terminal audit begins. -/
def auditBegins : Except DriverError DurableActivity := .ok (.execute "audit" 1)

/-- The store fails. -/
def storeFails : Except DriverError DurableActivity := .error ⟨.conflict "the store failed", false⟩

theorem span_closed_sample : (closes.after .start (sampleDurable auditBegins).1).Whole := by
  have hpath : Path Prog.Step (@runAgent emptySchema nullCodec { sampleConfig with durable := true })
      (sampleDurable auditBegins).1 (sampleDurable auditBegins).2 := Prog.exec_path _ _
  have hret : (sampleDurable auditBegins).2 = .ret () := Prog.eq_ret_of_isRet (by decide +kernel)
  rw [hret] at hpath
  exact @span_closed emptySchema nullCodec { sampleConfig with durable := true } _ hpath (by decide +kernel)

/-- **A span that stays open**: the store fails when the terminal audit begins, the sinks accept
every record, and the run says that it started but not that it stopped. -/
theorem not_span_closed :
    ¬ ∀ (cfg : RunConfig) (tr : Trace),
      Path Prog.Step (@runAgent emptySchema nullCodec cfg) tr (.ret ()) → audits.Admitted .start tr →
      (audits.after .start tr).Whole := by
  intro h
  have hpath : Path Prog.Step (@runAgent emptySchema nullCodec { sampleConfig with durable := true })
      (sampleDurable storeFails).1 (sampleDurable storeFails).2 := Prog.exec_path _ _
  have hret : (sampleDurable storeFails).2 = .ret () := Prog.eq_ret_of_isRet (by decide +kernel)
  rw [hret] at hpath
  have hwhole := h _ _ hpath (by decide +kernel)
  obtain ⟨before, last, hrecords, hstops, -⟩ := hwhole.closed (by decide +kernel) (by decide +kernel)
  have hopen : ∀ r ∈ (audits.after .start (sampleDurable storeFails).1).records, r.stops = false := by
    decide +kernel
  rw [hopen last (by rw [hrecords]; exact List.mem_append_right _ List.mem_cons_self)] at hstops
  cases hstops

end AikitRuntime.Agent
