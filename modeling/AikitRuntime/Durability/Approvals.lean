import AikitRuntime.Durability.Reach
import AikitRuntime.Durability.QuickDigest

/-!
# Approvals, and whose binding they carry

An approval enters the projection by a request, which is refused unless it names the policy
and the binding that the run is pinned to, or with the projection of a checkpoint. A fork
starts from such a projection before it is pinned itself, and it is pinned to a binding of
its own: the approvals that it restores carry the binding of the run they were asked in.
-/

namespace AikitRuntime.Durability

open Library

section
variable [Digest]

@[simp] theorem forkProjection_approvals {c : Checkpoint} {runId branchId : String} :
    (forkProjection c runId branchId).approvals = c.projection.approvals := by
  unfold forkProjection
  dsimp only
  split
  · rfl
  · split <;> rfl

namespace RunState

variable {s t : RunState} {e : RunEvent} {version sequence : Nat} {kind : RunEventKind}
  {id : String} {p : DurableApproval}

/-! ### What an event does to the approvals -/

/-- What a resolution makes of an approval. -/
def resolvedApproval (approval : DurableApproval) (sequence : Nat) (approved : Bool)
    (decoded : DecodedResolutionPayload) : DurableApproval :=
  { approval with
    status := if approved then .approved else .rejected
    response := decoded.response
    resolvedAtUnixMs := decoded.resolvedAtUnixMs
    timedOut := decoded.timedOut
    resolvedSequence := some sequence }

/-- What an accepted event does to the approvals. -/
inductive Reapproves (s : RunState) (sequence : Nat) (kind : RunEventKind) (t : RunState) :
    Prop where
  | kept (h : t.projection.approvals = s.projection.approvals)
  | requested {approvalId logicalKey : String} {activityId : Option String} {prompt : String}
      {payload : Value} {decoded : DecodedApprovalPayload}
      (hkind : kind = .approvalRequested approvalId logicalKey activityId prompt payload)
      (hhash : decoded.policySnapshotHash = s.policySnapshotHash)
      (hbinding : decoded.governanceBinding = s.governanceBinding)
      (h : t.projection.approvals = s.projection.approvals.insert approvalId
        (requestedApproval sequence approvalId logicalKey activityId prompt decoded))
  | resolved {approvalId : String} {approved : Bool} {approval : DurableApproval}
      {decoded : DecodedResolutionPayload}
      (hget : s.projection.approvals[approvalId]? = some approval)
      (h : t.projection.approvals = s.projection.approvals.insert approvalId
        (resolvedApproval approval sequence approved decoded))
  | rewound {checkpointId : String} {stored : Checkpoint}
      (hstored : s.checkpoints[checkpointId]? = some stored)
      (h : t.projection.approvals = stored.projection.approvals)

/-- A checkpoint as the run sees it has the approvals that it was taken with. -/
theorem approvals_of_checkpointForCurrentRun {stored checkpoint : Checkpoint}
    (h : s.checkpointForCurrentRun stored = .ok checkpoint) :
    checkpoint.projection.approvals = stored.projection.approvals := by
  rcases checkpointForCurrentRun_eq_ok h with ⟨-, rfl⟩ |
    ⟨_, _, _, _, _, _, _, _, _, _, -, -, -, -, rfl⟩
  · rfl
  · exact forkProjection_approvals

theorem Transition.reapproves (h : Transition s version sequence kind t) :
    Reapproves s sequence kind t := by
  cases h with
  | approvalRequested _ _ _ _ _ hhash hbinding => exact .requested rfl hhash hbinding rfl
  | approvalResolved hget => exact .resolved hget rfl
  | runRewound _ hstored hcheckpoint =>
    refine .rewound hstored (Eq.trans ?_ (approvals_of_checkpointForCurrentRun hcheckpoint))
    exact forkProjection_approvals
  | activityOrphaned => exact .kept (by split <;> rfl)
  | activityQuarantined => exact .kept (by dsimp only; split <;> rfl)
  | activityReconciled => exact .kept (by dsimp only; split <;> rfl)
  | _ => exact .kept rfl

/-! ### Properties of every approval -/

/-- Every approval of the run and of its checkpoints has the property. -/
structure Approves (s : RunState) (Q : String → DurableApproval → Prop) : Prop where
  current : ∀ (id : String) (p : DurableApproval), s.projection.approvals[id]? = some p → Q id p
  stored : ∀ (checkpointId : String) (c : Checkpoint), s.checkpoints[checkpointId]? = some c →
    ∀ (id : String) (p : DurableApproval), c.projection.approvals[id]? = some p → Q id p

variable {Q : String → DurableApproval → Prop}

omit [Digest] in
theorem Approves.mono {Q' : String → DurableApproval → Prop} (hs : s.Approves Q)
    (h : ∀ id p, Q id p → Q' id p) : s.Approves Q' :=
  ⟨fun id p hp => h id p (hs.current id p hp),
    fun checkpointId c hc id p hp => h id p (hs.stored checkpointId c hc id p hp)⟩

/-- **The rule of approvals, one event.** -/
theorem Transition.approves
    (h : Transition s version sequence kind t)
    (hrequest : ∀ approvalId logicalKey activityId prompt payload decoded,
      kind = .approvalRequested approvalId logicalKey activityId prompt payload →
      decoded.policySnapshotHash = s.policySnapshotHash →
      decoded.governanceBinding = s.governanceBinding →
        Q approvalId (requestedApproval sequence approvalId logicalKey activityId prompt decoded))
    (hresolve : ∀ id p approved decoded, Q id p → Q id (resolvedApproval p sequence approved decoded))
    (hs : s.Approves Q) : t.Approves Q := by
  constructor
  · intro id p hp
    cases h.reapproves with
    | kept hkept => exact hs.current id p (hkept ▸ hp)
    | requested hkind hhash hbinding hinsert =>
      rw [hinsert] at hp
      rcases BTreeMap.get_insert_eq_some hp with ⟨rfl, rfl⟩ | ⟨-, hold⟩
      · exact hrequest _ _ _ _ _ _ hkind hhash hbinding
      · exact hs.current id p hold
    | resolved hget hinsert =>
      rw [hinsert] at hp
      rcases BTreeMap.get_insert_eq_some hp with ⟨rfl, rfl⟩ | ⟨-, hold⟩
      · exact hresolve _ _ _ _ (hs.current _ _ hget)
      · exact hs.current id p hold
    | rewound hstored hrewound =>
      rw [hrewound] at hp
      exact hs.stored _ _ hstored id p hp
  · intro checkpointId c hc id p hp
    rcases h.checkpoints with hkept | ⟨_, _, _, _, hinsert⟩
    · exact hs.stored checkpointId c (hkept ▸ hc) id p hp
    · rw [hinsert] at hc
      rcases BTreeMap.get_insert_eq_some hc with ⟨-, rfl⟩ | ⟨-, hold⟩
      · exact hs.current id p hp
      · exact hs.stored checkpointId c hold id p hp

/-- The approvals of a run that has just been opened are those of the checkpoint it was forked
from. -/
theorem Opened.approves (h : Opened e t)
    (hfork : ∀ sessionId sourceRunId durability source branchId,
      e.kind = .forkedFrom sessionId sourceRunId durability source branchId →
      validateSourceCheckpoint e.runId sourceRunId source = .ok () →
        ∀ (id : String) (p : DurableApproval), source.projection.approvals[id]? = some p → Q id p) :
    t.Approves Q := by
  cases h with
  | root _ ht =>
    subst ht
    refine ⟨fun id p hp => ?_, fun id c hc => ?_⟩
    · rw [show (blank _ _ _ _).projection.approvals = (∅ : BTreeMap DurableApproval) from rfl,
        BTreeMap.get_empty] at hp
      cases hp
    · rw [show (blank _ _ _ _).checkpoints = (∅ : BTreeMap Checkpoint) from rfl,
        BTreeMap.get_empty] at hc
      cases hc
  | @forked _ _ branchId _ source hkind _ _ hvalid ht =>
    subst ht
    have hsource := hfork _ _ _ _ _ hkind hvalid
    constructor
    · intro id p hp
      refine hsource id p ?_
      rw [← forkProjection_approvals (c := source)]
      exact hp
    · intro checkpointId c hc id p hp
      rcases BTreeMap.get_insert_eq_some hc with ⟨-, rfl⟩ | ⟨-, hold⟩
      · exact hsource id p hp
      · rw [BTreeMap.get_empty] at hold
        cases hold

/-! ### Whose binding an approval carries -/

/-- The approval carries the policy and the binding that the run is pinned to. -/
def Carries (s : RunState) (p : DurableApproval) : Prop :=
  p.policySnapshotHash = s.policySnapshotHash ∧ p.governanceBinding = s.governanceBinding

/-- The run was forked from a checkpoint with that approval, and the approval carries what it
carried there. -/
def Inherits (s : RunState) (id : String) (p : DurableApproval) : Prop :=
  ∃ (e : RunEvent) (sessionId sourceRunId : String) (durability : DurabilityMode)
    (source : Checkpoint) (branchId : String) (p₀ : DurableApproval),
    s.events.head? = some e ∧
    e.kind = .forkedFrom sessionId sourceRunId durability source branchId ∧
      source.projection.approvals[id]? = some p₀ ∧
        p.policySnapshotHash = p₀.policySnapshotHash ∧ p.governanceBinding = p₀.governanceBinding

/-- What holds of every approval: it is inherited, or carries the pins of a run that has had
its chance to be pinned. -/
def Bound (s : RunState) (id : String) (p : DurableApproval) : Prop :=
  s.Inherits id p ∨ (s.events.length ≠ 1 ∧ s.Carries p)

/-- Only the event after the first one changes what a run is pinned to. -/
theorem Transition.pins (h : Transition s version sequence kind t) :
    s.events.length = 1 ∨
      (t.policySnapshotHash = s.policySnapshotHash ∧ t.governanceBinding = s.governanceBinding) := by
  cases h with
  | policySnapshotPinned hunpinned => exact .inl hunpinned.1
  | governanceBindingPinned hunpinned => exact .inl hunpinned.1
  | activityOrphaned => right; split <;> exact ⟨rfl, rfl⟩
  | activityQuarantined => right; dsimp only; split <;> exact ⟨rfl, rfl⟩
  | activityReconciled => right; dsimp only; split <;> exact ⟨rfl, rfl⟩
  | _ => exact .inr ⟨rfl, rfl⟩

omit [Digest] in
theorem head?_pushEvent (hs : s.events ≠ []) : (s.pushEvent e).events.head? = s.events.head? := by
  rw [pushEvent_events, List.head?_append_of_ne_nil _ hs]

theorem Logged.bound (hs : Logged s) : s.Approves s.Bound := by
  induction hs with
  | @opened o t e ho h =>
    refine (ho.opened h.2).approves ?_
    intro sessionId sourceRunId durability source branchId hkind _ id p hp
    refine .inl ⟨e, _, _, _, source, _, p, ?_, hkind, hp, rfl, rfl⟩
    rw [h.2.events, ho.events]
    rfl
  | @extended s t e hs h ih =>
    obtain ⟨u, htransition, rfl⟩ := hs.transition h.2
    have hevents : u.events = s.events := htransition.frame.1
    have hlong : (u.pushEvent e).events.length ≠ 1 := by
      have hpos := List.length_pos_of_ne_nil hs.events_ne_nil
      rw [pushEvent_events, hevents, List.length_append, List.length_singleton]
      omega
    have hhead : (u.pushEvent e).events.head? = s.events.head? := by
      rw [head?_pushEvent (hevents ▸ hs.events_ne_nil), hevents]
    have hold : s.Approves (u.pushEvent e).Bound := by
      refine ih.mono fun id p hp => ?_
      rcases hp with ⟨e₀, _, _, _, source, _, p₀, hfirst, hfork⟩ | ⟨hlater, hcarries⟩
      · exact .inl ⟨e₀, _, _, _, source, _, p₀, hhead.trans hfirst, hfork⟩
      · obtain ⟨hhash, hbinding⟩ := htransition.pins.resolve_left hlater
        exact .inr ⟨hlong, hcarries.1.trans hhash.symm, hcarries.2.trans hbinding.symm⟩
    have happroves : u.Approves (u.pushEvent e).Bound := by
      refine htransition.approves ?_ (fun id p approved decoded hp => hp) hold
      intro approvalId logicalKey activityId prompt payload decoded hkind hhash hbinding
      generalize e.kind = kind at htransition hkind
      subst hkind
      cases htransition with
      | approvalRequested => exact .inr ⟨hlong, hhash, hbinding⟩
    exact ⟨happroves.current, happroves.stored⟩

/-- **An approval carries what the run is pinned to**, or is inherited as it stood in the
checkpoint that the run was forked from. -/
theorem Reachable.approval_bound (hs : Reachable s) (hp : s.projection.approvals[id]? = some p) :
    s.Carries p ∨ s.Inherits id p := by
  rcases hs.logged.bound.current id p hp with hinherits | ⟨-, hcarries⟩
  · exact .inr hinherits
  · exact .inl hcarries

/-! ### A fork with an approval of its source -/

/-- What would hold of a pinned run if a fork bound the approvals that it restores. -/
def BindsApprovals : Prop :=
  ∀ s, Reachable s → (s.policySnapshotHash ≠ none ∨ s.governanceBinding ≠ none) →
    ∀ (id : String) (p : DurableApproval), s.projection.approvals[id]? = some p → s.Carries p

/-- The binding of one policy to a run. -/
def sealedBinding (runId : String) : GovernanceBinding :=
  let policySnapshotHash := "sha256:" ++ String.ofList (List.replicate 64 '0')
  { schemaVersion := governanceContractVersion, policySnapshotHash, tenantId := none,
    agentId := none, runId,
    bindingHash := canonicalDigest ⟨governanceContractVersion, policySnapshotHash, none, none, runId⟩ }

/-- An approval that was asked for in the run `p`. -/
def askedApproval : DurableApproval where
  approvalId := "a"
  logicalKey := "tool-use"
  activityId := none
  kind := .confirmation
  prompt := "Allow tool?"
  payload := .null
  policySnapshotHash := some (sealedBinding "p").policySnapshotHash
  governanceBinding := some (sealedBinding "p")
  requestedAtUnixMs := none
  expiresAtUnixMs := none
  status := .pending
  response := none
  resolvedAtUnixMs := none
  timedOut := false
  requestedSequence := 3
  resolvedSequence := none

/-- The run `p` is forked while the approval is pending, and the fork is pinned in its turn. -/
def governedForkLog : List RunEvent :=
  let projection := { RunProjection.root "p" with
    branchId := "b", status := .paused, approvals := (∅ : BTreeMap DurableApproval).insert "a" askedApproval }
  logOf "r" [("1", .forkedFrom "s" "p" .sync ⟨"c", "p", 4, none, none, projection⟩ "b2"),
    ("2", .governanceBindingPinned (sealedBinding "r"))]

omit [Digest] in
/-- The fork has another binding than its approval. -/
theorem bindsAnother :
    ∃ s, @fromEvents sha256 (@governedForkLog sha256) = .ok s ∧ s.governanceBinding ≠ none ∧
      ∃ p, s.projection.approvals["a"]? = some p ∧ p.governanceBinding ≠ s.governanceBinding := by
  rw [sha256_eq_quick]
  decide +kernel

omit [Digest] in
/-- A governed fork restores an approval that carries its source's binding. -/
theorem not_bindsApprovals : ¬ @BindsApprovals sha256 := by
  intro h
  obtain ⟨s, hs, hpinned, p, hp, hother⟩ := bindsAnother
  exact hother (h s (@Reachable.fromEvents sha256 _ _ hs) (.inr hpinned) "a" p hp).2

omit [Digest] in
/-- That approval is inherited. -/
theorem approval_bound_governedForkLog :
    ∃ s p, @Reachable sha256 s ∧ s.projection.approvals["a"]? = some p ∧ s.Inherits "a" p := by
  obtain ⟨s, hs, -, p, hp, hother⟩ := bindsAnother
  let inst : Digest := sha256
  have hs : Reachable s := .fromEvents hs
  exact ⟨s, p, hs, hp, (Reachable.approval_bound hs hp).resolve_left fun hcarries => hother hcarries.2⟩

end RunState

end

end AikitRuntime.Durability
