import AikitRuntime.Traces.Runs
import AikitRuntime.Traces.Streams

/-!
# Traces agree with the runs that left them

A run of the typed operations, and of events that a caller builds under the identities that
those operations derive, is judged by the assertions as its state machine judges it, as long as
no rewind takes back what the log has told. A rewind that does leaves the two apart at once: the
loops over the log know of no branches.
-/

namespace AikitRuntime.Traces

open Library Durability Durability.RunState
open Streaming StreamEventEncoder

section
variable [Digest] {s t : RunState} {e : RunEvent}

/-! ### The runs -/

/-- The runs that start as new ones. A caller's own events carry the identities that the
operations give such events. -/
inductive TraceRun : RunState → Prop where
  | new {s : RunState} {sessionId runId : String} {durability : DurabilityMode}
      (h : RunState.new sessionId runId durability = .ok s) : TraceRun s
  | typed {s : RunState} (hs : TraceRun s) (call : TypedCall) : TraceRun (s.afterCall (.typed call))
  | appended {s : RunState} (hs : TraceRun s) {event : RunEvent} (hnamed : Named event) :
      TraceRun (s.afterCall (.appendEvent event))

/-- The typed operations give their events their identities. -/
theorem named_of_issues {eventId : String} {kind : RunEventKind} (h : s.Issues eventId kind) :
    Named (s.nextEvent eventId kind) := by
  cases h <;> first | rfl | trivial

theorem Plain.accepts (hs : Plain s) (h : Accepts s e t)
    (hversion : e.schemaVersion = durabilitySchemaVersion) (hnamed : Named e) : Plain t := by
  obtain ⟨first, rest, sessionId, durability, branchId, hopens, hkind⟩ := hs.opens
  refine ⟨⟨first, rest ++ [e], sessionId, durability, branchId, ?_, hkind⟩, ?_, ?_⟩
  · rw [h.events, hopens]
    rfl
  · intro e' he'
    rw [h.events, List.mem_append, List.mem_singleton] at he'
    rcases he' with hold | rfl
    · exact hs.current e' hold
    · exact hversion
  · intro e' he'
    rw [h.events, List.mem_append, List.mem_singleton] at he'
    rcases he' with hold | rfl
    · exact hs.named e' hold
    · exact hnamed

theorem Plain.typedStep (hs : Plain s) (h : TypedStep s t) : Plain t := by
  cases h with
  | issued hissues h => exact hs.accepts h rfl (named_of_issues hissues)
  | failed _ h => exact hs.accepts h rfl trivial
  | failedAmbiguously _ _ hfailed h => exact (hs.accepts hfailed rfl trivial).accepts h rfl rfl

theorem Plain.typedExtends (hs : Plain s) (h : TypedExtends s t) : Plain t := by
  induction h with
  | refl => exact hs
  | tail _ hstep ih => exact ih.typedStep hstep

theorem Plain.appended (hs : Plain s) (hnamed : Named e) :
    Plain (s.afterCall (.appendEvent e)) := by
  show Plain (after ((answered (appendEvent e)).run s))
  unfold answered
  cases h : (appendEvent e).run s with
  | ok outcome t =>
    rw [Method.run_bind_ok h]
    obtain ⟨hversion, hrun⟩ := run_appendEvent_eq_ok.mp h
    rcases tryAppend_eq_ok.mp hrun with ⟨_, _, _, _, _, _, rfl⟩ | ⟨haccepts, _⟩
    · exact hs
    · exact hs.accepts haccepts hversion hnamed
  | error error t =>
    rw [Method.run_bind_error h, after_error, appendEvent_failsClean error t h]
    exact hs

theorem plain_of_new {sessionId runId : String} {durability : DurabilityMode}
    (h : RunState.new sessionId runId durability = .ok s) : Plain s := by
  obtain ⟨hopens, -, haccepts⟩ := new_spec h
  have hlog : s.events = [startEvent sessionId runId durability] := by
    rw [haccepts.events, hopens.events]
    rfl
  refine ⟨⟨_, [], sessionId, durability, _, hlog, rfl⟩, ?_, ?_⟩
  · intro e he
    rw [hlog, List.mem_singleton] at he
    rw [he]
    rfl
  · intro e he
    rw [hlog, List.mem_singleton] at he
    rw [he]
    trivial

/-- **The log of such a run is plain**, and accepted event by event. -/
theorem TraceRun.plain (hs : TraceRun s) : Plain s ∧ Logged s := by
  induction hs with
  | new h => exact ⟨plain_of_new h, logged_of_new h⟩
  | @typed s hs call ih =>
    exact ⟨ih.1.typedExtends (call.leads s), ih.2.extends (Call.leads (.typed call) s)⟩
  | @appended s hs event hnamed ih =>
    exact ⟨ih.1.appended hnamed, ih.2.extends (Call.leads (.appendEvent event) s)⟩

/-! ### The assertions about a run -/

/-- No attempt of the projection awaits reconciliation. -/
def NothingAwaits (p : RunProjection) : Prop :=
  ∀ (id : String) (r : ActivityRecord), p.activities[id]? = some r →
    ∀ a ∈ r.attempts, a.status ≠ .reconcileRequired

omit [Digest] in
theorem nothingAwaits_iff {p : RunProjection} : NothingAwaits p ↔ ∀ key, ¬ p.Awaits key := by
  constructor
  · rintro h ⟨id, n⟩ ⟨r, hget, a, ha, -, hstatus⟩
    exact h id r hget a ha hstatus
  · exact fun h id r hget a ha hstatus => h (id, a.attempt) ⟨r, hget, a, ha, rfl, hstatus⟩

/-- **The assertions say of a run's log and status what the run's projection says.** -/
structure Agrees (s : RunState) (input : TraceInput) : Prop where
  sequence : Passes input .durableSequenceMonotonic
  completion : Passes input .noDuplicateActivityCompletion
  reconciliation : Passes input .allRequiredReconciliationsResolved ↔ NothingAwaits s.projection
  approval : ∀ approvalId approved,
    Passes input (.approvalResolved approvalId approved) ↔ s.projection.Resolves approvalId approved
  status : ∀ status, Passes input (.runStatus status) ↔ s.projection.status = status

/-- The input is the trace that a run leaves. -/
def TraceOf (s : RunState) (input : TraceInput) : Prop :=
  input.durableEvents = s.events ∧ input.runStatus = some s.projection.status

/-- The numbers of a log count up from one. -/
theorem sequences_eq (hs : Logged s) :
    s.events.map (·.sequence) = List.range' 1 s.events.length := by
  induction hs with
  | opened ho h =>
    have hnext := h.2.next
    rw [nextSequence_of_nil ho.events] at hnext
    rw [h.2.events, ho.events]
    simp [hnext]
  | @extended s t e hs h ih =>
    have hnext := h.2.next
    rw [hs.nextSequence] at hnext
    rw [h.2.events, List.map_append, ih, List.length_append, List.length_singleton,
      List.range'_1_concat]
    simp [hnext, Nat.add_comm]

theorem agrees_of_inStep {input : TraceInput} (hs : Logged s) (hin : InStep s)
    (htrace : TraceOf s input) : Agrees s input := by
  obtain ⟨hevents, hstatus⟩ := htrace
  constructor
  · show consecutive (input.durableEvents.map _) = true
    rw [hevents, consecutive_iff, sequences_eq hs, List.length_range']
  · show completionsUnique (input.durableEvents.map _) ∅ = true
    rw [hevents, completionsUnique_iff]
    exact ⟨hin.completed, fun key _ => Finset.notMem_empty key⟩
  · show ((reconciliationsOf input.durableEvents).lifecycleValid &&
      decide ((reconciliationsOf input.durableEvents).opened.card = 0)) = true ↔ _
    rw [hevents, hin.reconciles.valid, Bool.true_and, decide_eq_true_eq, Finset.card_eq_zero,
      nothingAwaits_iff, Finset.eq_empty_iff_forall_notMem]
    exact forall_congr' fun key => not_congr (hin.reconciles.opened key)
  · intro a b
    show ((approvalOf a input.durableEvents).lifecycleValid &&
      (approvalOf a input.durableEvents).requested &&
      decide ((approvalOf a input.durableEvents).resolution = some b)) = true ↔ _
    rw [hevents, hin.decides.valid, Bool.true_and, Bool.and_eq_true, decide_eq_true_eq]
    constructor
    · exact fun h => hin.decides.resolved a b h.2
    · intro h
      exact ⟨hin.decides.requested a (resolves_knows h), hin.decides.resolution a b h⟩
  · intro status
    show decide (input.runStatus = some status) = true ↔ _
    rw [hstatus, decide_eq_true_eq, Option.some.injEq]

/-- **The assertions agree with every run whose rewinds take nothing back.** -/
theorem TraceRun.agrees {input : TraceInput} (hs : TraceRun s) (hkeeps : RewindsKeep s)
    (htrace : TraceOf s input) : Agrees s input :=
  agrees_of_inStep hs.plain.2 (inStep_of_logged hs.plain.2 hs.plain.1 hkeeps) htrace

/-! ### The two kinds of traces -/

/-- The assertions agree with every run. -/
def RunsAgree : Prop := ∀ s, TraceRun s → ∀ input, TraceOf s input → Agrees s input

/-- Every stream that is fed to its end passes. -/
def StreamsPass : Prop :=
  ∀ (responseId : String) (deltas : List StreamDelta) (delta : StreamDelta), IsLast delta →
    ∃ events e, (pushAll (deltas ++ [delta])).run (new responseId) = .ok events e ∧
      ∀ input : TraceInput, input.streamEvents = events →
        Passes input .streamSequenceMonotonic ∧ Passes input .streamBlocksBalanced

/-- **Traces agree with what left them**: with a run while no rewind of it takes back a requirement,
a reconciliation or a resolution, and with a stream exactly while no push of it abandons a block. -/
theorem traces_agree :
    (∀ s, TraceRun s → RewindsKeep s → ∀ input, TraceOf s input → Agrees s input) ∧
    ∀ (responseId : String) (deltas : List StreamDelta) (delta : StreamDelta), IsLast delta →
      ∃ events e, (pushAll (deltas ++ [delta])).run (new responseId) = .ok events e ∧
        ∀ input : TraceInput, input.streamEvents = events →
          Passes input .streamSequenceMonotonic ∧
          (Passes input .streamBlocksBalanced ↔
            NeverAbandons (deltas ++ [delta]) (new responseId)) :=
  ⟨fun _ hs hkeeps _ htrace => hs.agrees hkeeps htrace, stream_passes⟩

/-- A run without rewinds. -/
theorem rewindsKeep_of_forall (h : ∀ e ∈ s.events, ¬ e.kind.IsRewind) : RewindsKeep s := by
  intro pre e post m hsplit _ checkpointId branchId reconciled _ _ hkind
  refine absurd ⟨_, _, _, hkind⟩ (h e ?_)
  rw [hsplit]
  simp

/-! ### A run that is rewound -/

/-- The run after an approval was requested and granted. -/
def approvedRun (s : RunState) : RunState :=
  let s := s.afterCall (.typed (.requestApproval "k" none "p" .null))
  s.afterCall (.typed (.applyCommand
    (.resume "r" (s.projection.pendingApprovalIds.map fun id => ⟨id, true, none⟩))))

/-- The run that is rewound to a checkpoint that was taken before. -/
def rewoundRun (s : RunState) : RunState :=
  let s := approvedRun (s.afterCall (.typed (.checkpoint "c" none)))
  s.afterCall (.typed (.applyCommand
    (.rewind "w" (s.projection.currentCheckpointId.getD "") true)))

theorem TraceRun.approved (hs : TraceRun s) : TraceRun (approvedRun s) := (hs.typed _).typed _

theorem TraceRun.rewound (hs : TraceRun s) : TraceRun (rewoundRun s) :=
  TraceRun.typed (hs.typed _).approved _

end

/-- An assertion still finds the approval in the log, and the projection no longer has it. -/
theorem forgetsApproval :
    ∃ s, @RunState.new sha256 "s" "r" .sync = .ok s ∧
      (@rewoundRun sha256 s).projection.approvals.isEmpty = true ∧
      ((@rewoundRun sha256 s).events.any fun event => (resolutionOf event.kind).any fun entry =>
        (evaluateAssertion ⟨[], (@rewoundRun sha256 s).events, some (@rewoundRun sha256 s).projection.status⟩
          (.approvalResolved entry.1 entry.2)).passed) = true := by
  rw [sha256_eq_quick]
  decide +kernel

theorem not_runsAgree : ¬ @RunsAgree sha256 := by
  intro hagree
  obtain ⟨s, hs, hempty, hpasses⟩ := forgetsApproval
  obtain ⟨event, -, hpasses⟩ := List.any_eq_true.mp hpasses
  obtain ⟨entry, -, hpasses⟩ := (Option.any_eq_true _ _).mp hpasses
  let inst : Digest := sha256
  have hrun : TraceRun (rewoundRun s) := (TraceRun.new hs).rewound
  obtain ⟨approval, hget, -⟩ :=
    ((hagree _ hrun ⟨[], _, some _⟩ ⟨rfl, rfl⟩).approval entry.1 entry.2).mp hpasses
  rw [Std.ExtTreeMap.isEmpty_iff] at hempty
  rw [hempty] at hget
  cases hget

/-- It does not rewind. -/
def goesOn : RunEventKind → Bool
  | .runRewound .. => false
  | _ => true

/-- The approval of the run that is not rewound is granted. -/
theorem grantsApproval :
    ∃ s, @RunState.new sha256 "s" "r" .sync = .ok s ∧
      ((@approvedRun sha256 s).projection.approvals.values.any (·.status = .approved)) = true ∧
      ∀ event ∈ (@approvedRun sha256 s).events, goesOn event.kind = true := by
  rw [sha256_eq_quick]
  decide +kernel

/-- The response starts twice, with a text block open the second time, and is then stopped: its
events are not balanced. -/
theorem strandsBlock :
    ∃ events e, (pushAll (startedTwice ++ [.messageStop "end_turn"])).run (new "r") = .ok events e ∧
      (evaluateAssertion ⟨events, [], none⟩ .streamBlocksBalanced).passed = false := by
  decide +kernel

/-- **Neither kind of trace agrees with what left it on every run**: an approval that a rewind gives
up is still found in the log, and a stream that a second start ends leaves its text block open. -/
theorem not_tracesAgree : ¬ @RunsAgree sha256 ∧ ¬ StreamsPass := by
  refine ⟨not_runsAgree, ?_⟩
  intro h
  obtain ⟨events, e, hrun, hpasses⟩ := h "r" startedTwice (.messageStop "end_turn") trivial
  obtain ⟨events', e', hrun', hfails⟩ := strandsBlock
  rw [hrun] at hrun'
  cases hrun'
  have hbalanced : (evaluateAssertion ⟨events, [], none⟩ .streamBlocksBalanced).passed = true :=
    (hpasses ⟨events, [], none⟩ rfl).2
  rw [hbalanced] at hfails
  cases hfails

/-- On a run that grants an approval, the assertion about it passes. -/
theorem traces_agree_approved : ∃ s a, @TraceRun sha256 s ∧
    Passes ⟨[], s.events, some s.projection.status⟩ (.approvalResolved a true) := by
  let inst : Digest := sha256
  obtain ⟨s, hs, hgranted, hrewinds⟩ := grantsApproval
  obtain ⟨a, approval, hget, hstatus⟩ := BTreeMap.any_values.mp hgranted
  have hrun := (TraceRun.new hs).approved
  have hkeeps : RewindsKeep (approvedRun s) := rewindsKeep_of_forall fun e he => by
    rintro ⟨checkpointId, branchId, reconciled, hkind⟩
    have hother := hrewinds e he
    rw [hkind] at hother
    cases hother
  have hagrees := (@traces_agree sha256).1 _ hrun hkeeps ⟨[], _, some _⟩ ⟨rfl, rfl⟩
  exact ⟨approvedRun s, a, hrun, (hagrees.approval a true).mpr ⟨approval, hget, of_decide_eq_true hstatus⟩⟩

end AikitRuntime.Traces
