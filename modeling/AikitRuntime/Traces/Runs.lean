import AikitRuntime.Traces.Assertions
import AikitRuntime.Traces.Awaiting

/-!
# The assertions about durable runs

The assertions about a durable log against the state machine that accepted it. Each loop over
the log is related to the projection by an invariant of its own (`Reconciles`, `Approves`),
which every event keeps but one: a rewind puts an earlier projection in the place of the
present one, and the log still tells what the rewind took back.
-/

namespace AikitRuntime.Traces

open Library Durability Durability.RunState

/-! ### The loops -/

/-- The loop over the reconciliations, over a log. -/
def reconciliationsOf (log : List RunEvent) : ReconciliationCheck :=
  (log.map (·.kind)).foldl ReconciliationCheck.step .start

/-- The loop over the events of one approval, over a log. -/
def approvalOf (approvalId : String) (log : List RunEvent) : ApprovalCheck :=
  (log.map (·.kind)).foldl (ApprovalCheck.step approvalId) .start

section
variable {log : List RunEvent} {e : RunEvent} {p q : RunProjection} {kind : RunEventKind}

theorem reconciliationsOf_append :
    reconciliationsOf (log ++ [e]) = (reconciliationsOf log).step e.kind := by
  simp [reconciliationsOf]

variable {a : String}

theorem approvalOf_append :
    approvalOf a (log ++ [e]) = (approvalOf a log).step a e.kind := by
  simp [approvalOf]

/-- The loop over the reconciliations has as open what awaits in the projection. -/
structure Reconciles (log : List RunEvent) (p : RunProjection) : Prop where
  valid : (reconciliationsOf log).lifecycleValid = true
  opened : ∀ key, key ∈ (reconciliationsOf log).opened ↔ p.Awaits key
  apart : ∀ key ∈ (reconciliationsOf log).opened, key ∉ (reconciliationsOf log).resolved
  logged : ∀ key, key ∈ (reconciliationsOf log).opened ∨ key ∈ (reconciliationsOf log).resolved →
    ∃ e ∈ log, requirementOf e.kind = some key

/-- **An event keeps the loop over the reconciliations in step.** -/
theorem Reconciles.append (h : Reconciles log p)
    (hawaits : ∀ key, q.Awaits key ↔
      (p.Awaits key ∧ reconciliationOf e.kind ≠ some key) ∨ requirementOf e.kind = some key)
    (hfresh : ∀ key, requirementOf e.kind = some key → ∀ e' ∈ log, requirementOf e'.kind ≠ some key)
    (hdue : ∀ key, reconciliationOf e.kind = some key → p.Awaits key) : Reconciles (log ++ [e]) q := by
  have hlogged (key : String × Nat) (hkey : ∃ e' ∈ log, requirementOf e'.kind = some key) :
      ∃ e' ∈ log ++ [e], requirementOf e'.kind = some key := by
    obtain ⟨e', he', hrequired⟩ := hkey
    exact ⟨e', List.mem_append_left _ he', hrequired⟩
  have hstep := @reconciliationsOf_append log e
  generalize hcheck : reconciliationsOf (log ++ [e]) = check at hstep
  cases hkind : e.kind with
  | activityReconciliationRequired id n reason =>
    rw [hkind] at hstep hawaits hfresh
    have hnew : (id, n) ∉ (reconciliationsOf log).opened ∧ (id, n) ∉ (reconciliationsOf log).resolved := by
      rw [← not_or]
      intro hold
      obtain ⟨e', he', hrequired⟩ := h.logged (id, n) hold
      exact hfresh (id, n) rfl e' he' hrequired
    simp only [ReconciliationCheck.step, hnew, if_false, not_false_eq_true, decide_true,
      Bool.and_true] at hstep
    have hmem (key : String × Nat) : key ∈ check.opened ↔ key = (id, n) ∨
        key ∈ (reconciliationsOf log).opened := by
      rw [hstep, Finset.mem_insert]
    have hresolved : check.resolved = (reconciliationsOf log).resolved := by rw [hstep]
    refine ⟨?_, fun key => ?_, fun key hkey => ?_, fun key hkey => ?_⟩ <;>
      rw [hcheck] at *
    · rw [hstep]
      exact h.valid
    · rw [hmem, h.opened, hawaits]
      simp [reconciliationOf, requirementOf, or_comm, eq_comm]
    · rw [hresolved]
      rcases (hmem key).mp hkey with rfl | hold
      · exact hnew.2
      · exact h.apart key hold
    · rw [hresolved, hmem] at hkey
      by_cases heq : key = (id, n)
      · exact ⟨e, by simp, by rw [hkind, heq]; rfl⟩
      · exact hlogged key (h.logged key (hkey.imp_left fun hold => hold.resolve_left heq))
  | activityReconciled id n resolution =>
    rw [hkind] at hstep hawaits hdue
    have hopen : (id, n) ∈ (reconciliationsOf log).opened := (h.opened _).mpr (hdue _ rfl)
    have hnew := h.apart _ hopen
    simp only [ReconciliationCheck.step, hopen, if_true, hnew, not_false_eq_true, decide_true,
      Bool.and_true] at hstep
    have hmem (key : String × Nat) : key ∈ check.opened ↔ key ≠ (id, n) ∧
        key ∈ (reconciliationsOf log).opened := by
      rw [hstep, Finset.mem_erase]
    have hresolved (key : String × Nat) : key ∈ check.resolved ↔ key = (id, n) ∨
        key ∈ (reconciliationsOf log).resolved := by
      rw [hstep, Finset.mem_insert]
    refine ⟨?_, fun key => ?_, fun key hkey => ?_, fun key hkey => ?_⟩ <;>
      rw [hcheck] at *
    · rw [hstep]
      exact h.valid
    · rw [hmem, h.opened, hawaits]
      simp [reconciliationOf, requirementOf, and_comm, eq_comm]
    · rw [hresolved, not_or]
      have hold := (hmem key).mp hkey
      exact ⟨hold.1, h.apart key hold.2⟩
    · rw [hresolved, hmem] at hkey
      refine hlogged key (h.logged key ?_)
      rcases hkey with hold | rfl | hold
      · exact .inl hold.2
      · exact .inl hopen
      · exact .inr hold
  | _ =>
    rw [hkind] at hstep hawaits
    replace hstep : check = reconciliationsOf log := hstep
    subst hstep
    refine ⟨by rw [hcheck]; exact h.valid, fun key => ?_, by rw [hcheck]; exact h.apart, fun key => ?_⟩
    · rw [hcheck, h.opened, hawaits]
      simp [reconciliationOf, requirementOf]
    · rw [hcheck]
      exact fun hkey => hlogged key (h.logged key hkey)

variable {check : ApprovalCheck}

theorem step_requested :
    (check.step a kind).requested = true ↔ check.requested = true ∨ requestOf kind = some a := by
  cases kind with
  | approvalRequested approvalId =>
    by_cases ha : approvalId = a <;> simp [ApprovalCheck.step, requestOf, ha]
  | approvalResolved approvalId =>
    by_cases ha : approvalId = a <;> simp [ApprovalCheck.step, requestOf, ha]
  | _ => simp [ApprovalCheck.step, requestOf]

theorem step_resolution {b : Bool} :
    (check.step a kind).resolution = some b ↔ check.resolution = some b ∨
      (check.resolution = none ∧ resolutionOf kind = some (a, b)) := by
  cases kind with
  | approvalRequested approvalId =>
    by_cases ha : approvalId = a <;> simp [ApprovalCheck.step, resolutionOf, ha]
  | approvalResolved approvalId approved =>
    cases hold : check.resolution <;> by_cases ha : approvalId = a <;>
      simp [ApprovalCheck.step, resolutionOf, ha, hold]
  | _ => simp [ApprovalCheck.step, resolutionOf]

theorem step_valid :
    (check.step a kind).lifecycleValid = true ↔ check.lifecycleValid = true ∧
      (requestOf kind = some a → check.requested = false ∧ check.resolution = none) ∧
      ∀ b, resolutionOf kind = some (a, b) → check.requested = true ∧ check.resolution = none := by
  cases kind with
  | approvalRequested approvalId =>
    by_cases ha : approvalId = a <;>
      simp [ApprovalCheck.step, requestOf, resolutionOf, ha, and_assoc]
  | approvalResolved approvalId approved =>
    by_cases ha : approvalId = a <;>
      simp [ApprovalCheck.step, requestOf, resolutionOf, ha, and_assoc]
  | _ => simp [ApprovalCheck.step, requestOf, resolutionOf]

/-- What the loop over an approval's events found, which no later event changes. -/
structure Recalls (log : List RunEvent) (p : RunProjection) : Prop where
  requested : ∀ a, p.Knows a → (approvalOf a log).requested = true
  resolution : ∀ a b, p.Resolves a b → (approvalOf a log).resolution = some b

theorem Recalls.append (h : Recalls log p) : Recalls (log ++ [e]) p := by
  constructor
  · intro a hknows
    rw [approvalOf_append, step_requested]
    exact .inl (h.requested a hknows)
  · intro a b hresolves
    rw [approvalOf_append, step_resolution]
    exact .inl (h.resolution a b hresolves)

/-- The loops over the approvals have as resolved what is resolved in the projection. -/
structure Decides (log : List RunEvent) (p : RunProjection) : Prop extends Recalls log p where
  valid : ∀ a, (approvalOf a log).lifecycleValid = true
  resolved : ∀ a b, (approvalOf a log).resolution = some b → p.Resolves a b
  logged : ∀ a, (approvalOf a log).requested = true → ∃ e ∈ log, requestOf e.kind = some a

theorem resolves_knows {b : Bool} (h : p.Resolves a b) : p.Knows a := by
  obtain ⟨approval, hget, -⟩ := h
  simp [RunProjection.Knows, hget]

/-- What is not resolved in the projection is not resolved in the log. -/
theorem Decides.resolution_eq_none (h : Decides log p) (ha : ∀ b, ¬ p.Resolves a b) :
    (approvalOf a log).resolution = none := by
  by_contra hsome
  obtain ⟨b, hb⟩ := Option.ne_none_iff_exists'.mp hsome
  exact ha b (h.resolved a b hb)

/-- **An event keeps the loops over the approvals in step.** -/
theorem Decides.append (h : Decides log p)
    (hknows : ∀ a, q.Knows a ↔ p.Knows a ∨ requestOf e.kind = some a)
    (hnew : ∀ a, requestOf e.kind = some a → ¬ p.Knows a)
    (hfresh : ∀ a, requestOf e.kind = some a → ∀ e' ∈ log, requestOf e'.kind ≠ some a)
    (hresolves : ∀ a b, q.Resolves a b ↔ p.Resolves a b ∨ resolutionOf e.kind = some (a, b))
    (hdue : ∀ a b, resolutionOf e.kind = some (a, b) → p.Knows a ∧ ∀ b', ¬ p.Resolves a b') :
    Decides (log ++ [e]) q := by
  refine ⟨⟨fun a ha => ?_, fun a b hb => ?_⟩, fun a => ?_, fun a b hb => ?_, fun a ha => ?_⟩
  · rw [approvalOf_append, step_requested]
    exact ((hknows a).mp ha).imp_left (h.requested a)
  · rw [approvalOf_append, step_resolution]
    refine ((hresolves a b).mp hb).imp (h.resolution a b) fun hresolved => ?_
    exact ⟨h.resolution_eq_none (hdue a b hresolved).2, hresolved⟩
  · rw [approvalOf_append, step_valid]
    refine ⟨h.valid a, fun hrequest => ⟨?_, ?_⟩, fun b hresolved => ?_⟩
    · by_contra hrequested
      obtain ⟨e', he', hsame⟩ := h.logged a (by simpa using hrequested)
      exact hfresh a hrequest e' he' hsame
    · exact h.resolution_eq_none fun b hb => hnew a hrequest (resolves_knows hb)
    · obtain ⟨hthere, hopen⟩ := hdue a b hresolved
      exact ⟨h.requested a hthere, h.resolution_eq_none hopen⟩
  · rw [approvalOf_append, step_resolution] at hb
    exact (hresolves a b).mpr (hb.imp (h.resolved a b) And.right)
  · rw [approvalOf_append, step_requested] at ha
    rcases ha with hold | hrequest
    · obtain ⟨e', he', hsame⟩ := h.logged a hold
      exact ⟨e', List.mem_append_left _ he', hsame⟩
    · exact ⟨e, by simp, hrequest⟩

/-- A rewind keeps the loops in step when it takes nothing back. -/
theorem Reconciles.replaced (h : Reconciles log p) (hsame : ∀ key, q.Awaits key ↔ p.Awaits key) :
    Reconciles log q :=
  ⟨h.valid, fun key => (h.opened key).trans (hsame key).symm, h.apart, h.logged⟩

theorem Decides.replaced (h : Decides log p) (hrecalls : Recalls log q)
    (hkeeps : ∀ a b, p.Resolves a b → q.Resolves a b) : Decides log q :=
  ⟨hrecalls, h.valid, fun a b hb => hkeeps a b (h.resolved a b hb), h.logged⟩

/-- The loops over the approvals see no more of a projection than its approvals. -/
theorem Recalls.congr (h : Recalls log p) (hsame : q.approvals = p.approvals) : Recalls log q := by
  obtain ⟨hrequested, hresolution⟩ := h
  constructor
  · unfold RunProjection.Knows
    rwa [hsame]
  · unfold RunProjection.Resolves
    rwa [hsame]

/-- An event that says nothing of attempts and approvals adds nothing to what the loops found. -/
theorem Decides.skip (h : Decides log p) (hrequest : requestOf e.kind = none)
    (hresolution : resolutionOf e.kind = none) : Decides (log ++ [e]) p := by
  refine h.append ?_ ?_ ?_ ?_ ?_ <;> simp [hrequest, hresolution]

theorem Reconciles.skip (h : Reconciles log p) (hneeds : requirementOf e.kind = none)
    (hsettles : reconciliationOf e.kind = none) : Reconciles (log ++ [e]) p := by
  refine h.append ?_ ?_ ?_ <;> simp [hneeds, hsettles]

end

/-! ### Runs -/

section
variable [Digest] {s t m : RunState} {e : RunEvent}

/-- The event carries the identity that the operation derives which makes such events: the
completion of an attempt, the requirement to reconcile one, and the request of an approval each
have one identity. -/
def Named (e : RunEvent) : Prop :=
  match e.kind with
  | .activityAttemptCompleted activityId attempt _ _ =>
    e.eventId = attemptEventId activityId attempt "completed"
  | .activityReconciliationRequired activityId attempt _ =>
    e.eventId = attemptEventId activityId attempt "reconcile_required"
  | .approvalRequested approvalId _ _ _ _ =>
    e.eventId = stableIdentifier "event" [approvalId, "requested"]
  | _ => True

/-- One projection has everything that another has resolved, and the same attempts await. -/
structure TakesNothingBack (p q : RunProjection) : Prop where
  awaits : ∀ key, q.Awaits key ↔ p.Awaits key
  resolves : ∀ a b, p.Resolves a b → q.Resolves a b

/-- A rewind to a checkpoint takes nothing back. -/
def Keeps (s : RunState) (e : RunEvent) : Prop :=
  ∀ checkpointId branchId reconciled stored checkpoint,
    e.kind = .runRewound checkpointId branchId reconciled →
    s.checkpoints[checkpointId]? = some stored → s.checkpointForCurrentRun stored = .ok checkpoint →
      TakesNothingBack s.projection (forkProjection checkpoint s.runId branchId)

/-- No rewind of the run's log took anything back. -/
def RewindsKeep (s : RunState) : Prop :=
  ∀ pre e post m, s.events = pre ++ e :: post → fromEvents pre = .ok m → Keeps m e

/-- The assertions about a log are in step with the projection. -/
structure InStep (s : RunState) : Prop where
  reconciles : Reconciles s.events s.projection
  decides : Decides s.events s.projection
  recalls : ∀ (checkpointId : String) (c : Checkpoint), s.checkpoints[checkpointId]? = some c →
    Recalls s.events c.projection
  completed : ((s.events.map (·.kind)).filterMap completionOf).Nodup

/-- An event that tells its key by its id is the only one of its key. -/
theorem fresh_of_named {α : Type} {keyOf : RunEventKind → Option α} {name : α → String}
    (hname : ∀ {e : RunEvent} {key : α}, Named e → keyOf e.kind = some key → e.eventId = name key)
    (h : Accepts s e t) (hnamed : Named e) (hall : ∀ e' ∈ s.events, Named e') {key : α}
    (hkey : keyOf e.kind = some key) : ∀ e' ∈ s.events, keyOf e'.kind ≠ some key := fun e' he' hsame =>
  h.fresh ⟨e', he', (hname (hall e' he') hsame).trans (hname hnamed hkey).symm⟩

theorem eventId_of_requirementOf {key : String × Nat} (hnamed : Named e) (hkey : requirementOf e.kind = some key) :
    e.eventId = attemptEventId key.1 key.2 "reconcile_required" := by
  unfold Named at hnamed
  cases hkind : e.kind <;> rw [hkind] at hkey hnamed <;> cases hkey
  exact hnamed

theorem eventId_of_requestOf {a : String} (hnamed : Named e) (ha : requestOf e.kind = some a) :
    e.eventId = stableIdentifier "event" [a, "requested"] := by
  unfold Named at hnamed
  cases hkind : e.kind <;> rw [hkind] at ha hnamed <;> cases ha
  exact hnamed

theorem eventId_of_completionOf {key : String × Nat} (hnamed : Named e) (hkey : completionOf e.kind = some key) :
    e.eventId = attemptEventId key.1 key.2 "completed" := by
  unfold Named at hnamed
  cases hkind : e.kind <;> rw [hkind] at hkey hnamed <;> cases hkey
  exact hnamed

/-- **An accepted event keeps the assertions in step.** -/
theorem InStep.extended (hin : InStep s) (hs : Logged s)
    (hcurrent : ∀ e' ∈ s.events, e'.schemaVersion = durabilitySchemaVersion)
    (hall : ∀ e' ∈ s.events, Named e') (h : Accepts s e t) (hnamed : Named e) (hkeeps : Keeps s e) :
    InStep t := by
  have hevents := h.events
  obtain ⟨u, htransition, rfl⟩ := hs.transition h
  have hcompleted : (((u.pushEvent e).events.map (·.kind)).filterMap completionOf).Nodup := by
    rw [hevents, List.map_append, List.filterMap_append, List.nodup_append]
    refine ⟨hin.completed, ?_, ?_⟩
    · cases hkind : completionOf e.kind <;> simp [hkind]
    · rintro key hkey key' hkey' rfl
      have hcompletes : completionOf e.kind = some key := by simpa using hkey'
      obtain ⟨_, hkind, hsame⟩ := List.mem_filterMap.mp hkey
      obtain ⟨e', he', rfl⟩ := List.mem_map.mp hkind
      exact fresh_of_named eventId_of_completionOf h hnamed hall hcompletes e' he' hsame
  have hrecalls : ∀ (checkpointId : String) (c : Checkpoint),
      (u.pushEvent e).checkpoints[checkpointId]? = some c →
        Recalls (u.pushEvent e).events c.projection := by
    intro checkpointId c hc
    rw [hevents]
    rcases htransition.checkpoints with hkept | ⟨_, _, _, _, hinsert⟩
    · exact (hin.recalls checkpointId c (hkept ▸ hc)).append
    · rw [pushEvent_checkpoints, hinsert] at hc
      rcases BTreeMap.get_insert_eq_some hc with ⟨-, rfl⟩ | ⟨-, hold⟩
      · exact hin.decides.toRecalls.append
      · exact (hin.recalls checkpointId c hold).append
  have hreconcilesDecides : Reconciles (s.events ++ [e]) u.projection ∧
      Decides (s.events ++ [e]) u.projection := by
    by_cases hrewind : e.kind.IsRewind
    · obtain ⟨checkpointId, branchId, reconciled, hkind⟩ := hrewind
      rw [hkind] at htransition
      cases htransition with
      | @runRewound _ _ _ stored checkpoint _ hstored hcheckpoint =>
        have hback := hkeeps _ _ _ _ _ hkind hstored hcheckpoint
        have happrovals := approvals_of_checkpointForCurrentRun hcheckpoint
        have hnothing : requirementOf e.kind = none ∧ reconciliationOf e.kind = none ∧
            requestOf e.kind = none ∧ resolutionOf e.kind = none := by
          rw [hkind]
          exact ⟨rfl, rfl, rfl, rfl⟩
        refine ⟨Reconciles.skip (hin.reconciles.replaced hback.awaits) hnothing.1 hnothing.2.1,
          Decides.skip (hin.decides.replaced ?_ hback.resolves) hnothing.2.2.1 hnothing.2.2.2⟩
        refine (hin.recalls checkpointId stored hstored).congr ?_
        exact forkProjection_approvals.trans happrovals
    · have hlegacy : ∀ (id : String) (r : ActivityRecord), s.projection.activities[id]? = some r →
          r.definition.stableStepId ≠ legacyRunStoppedAuditStepId := by
        intro id r hr hstep
        obtain ⟨e', he', hold, -⟩ := hs.legacy_scheduled.current id r hr hstep
        rw [hcurrent e' he'] at hold
        cases hold
      obtain ⟨hawaits, -, hdue⟩ := htransition.awaits hs.firstAwaits.current hlegacy hrewind
      obtain ⟨hknows, hnew⟩ := htransition.knows hrewind
      obtain ⟨hresolves, hopen⟩ := htransition.resolves hrewind
      exact ⟨hin.reconciles.append hawaits (fun _ => fresh_of_named eventId_of_requirementOf h hnamed hall) hdue,
        hin.decides.append hknows hnew (fun _ => fresh_of_named eventId_of_requestOf h hnamed hall) hresolves hopen⟩
  refine ⟨?_, ?_, hrecalls, hcompleted⟩
  · rw [hevents]
    exact hreconcilesDecides.1
  · rw [hevents]
    exact hreconcilesDecides.2

/-! ### The beginning of a run -/

/-- What a log needs to be for its assertions to be in step: an event of the present version, under
its own identity, and opened as a new run is. -/
structure Plain (s : RunState) : Prop where
  opens : ∃ first rest sessionId durability branchId, s.events = first :: rest ∧
    first.kind = .runStarted sessionId durability branchId
  current : ∀ e ∈ s.events, e.schemaVersion = durabilitySchemaVersion
  named : ∀ e ∈ s.events, Named e

omit [Digest] in
/-- A projection that nothing has happened to. -/
theorem inStep_of_empty (hevents : s.events = [e]) (hneeds : requirementOf e.kind = none)
    (hsettles : reconciliationOf e.kind = none) (hrequest : requestOf e.kind = none)
    (hresolution : resolutionOf e.kind = none) (hcompletion : completionOf e.kind = none)
    (hactivities : s.projection.activities = ∅) (happrovals : s.projection.approvals = ∅)
    (hcheckpoints : s.checkpoints = ∅) : InStep s := by
  have hreconciles : Reconciles [] s.projection := by
    refine ⟨rfl, fun key => iff_of_false (Finset.notMem_empty key) ?_, ?_, ?_⟩
    · rintro ⟨r, hget, -⟩
      rw [hactivities] at hget
      cases hget
    · exact fun key hkey => absurd hkey (Finset.notMem_empty key)
    · rintro key (hkey | hkey) <;> exact absurd hkey (Finset.notMem_empty key)
  have hdecides : Decides [] s.projection := by
    refine ⟨⟨fun a hknows => ?_, ?_⟩, fun _ => rfl, fun a b hb => ?_, fun a ha => ?_⟩
    · rw [RunProjection.Knows, happrovals] at hknows
      exact absurd rfl hknows
    · rintro a b ⟨approval, hget, -⟩
      rw [happrovals] at hget
      cases hget
    · cases hb
    · cases ha
  refine ⟨?_, ?_, ?_, ?_⟩
  · rw [hevents]
    exact hreconciles.skip hneeds hsettles
  · rw [hevents]
    exact hdecides.skip hrequest hresolution
  · intro checkpointId c hc
    rw [hcheckpoints] at hc
    cases hc
  · rw [hevents]
    simp [hcompletion]

/-- **The assertions about a plain log are in step** with its run, while no rewind takes back
anything. -/
theorem inStep_of_logged (hs : Logged s) (hplain : Plain s) (hkeeps : RewindsKeep s) : InStep s := by
  induction hs with
  | @opened o t e ho h =>
    have hlog : t.events = [e] := by rw [h.2.events, ho.events]; rfl
    obtain ⟨first, rest, sessionId, durability, branchId, hopens, hkind⟩ := hplain.opens
    rw [hlog] at hopens
    cases hopens
    obtain ⟨_, _, -, -, -, rfl⟩ := ho.opening
    obtain ⟨u, happlied, rfl⟩ := h.2.applied
    replace happlied : applyFirst _ e.kind = .ok u := happlied
    rw [hkind] at happlied
    obtain ⟨_, -, hu⟩ := bind_eq_ok.mp happlied
    cases hu
    apply inStep_of_empty hlog <;> first | rfl | rw [hkind]; rfl
  | @extended s t e hs h ih =>
    have hevents := h.2.events
    have hmem {e' : RunEvent} (he' : e' ∈ s.events) : e' ∈ t.events := h.2.mem_events he'
    have hlast : e ∈ t.events := by
      rw [hevents]
      simp
    have hbefore : Plain s := by
      obtain ⟨first, rest, sessionId, durability, branchId, hopens, hkind⟩ := hplain.opens
      refine ⟨?_, fun e' he' => hplain.current e' (hmem he'), fun e' he' => hplain.named e' (hmem he')⟩
      cases hlog : s.events with
      | nil => exact absurd hlog hs.events_ne_nil
      | cons first' rest' =>
        rw [hevents, hlog] at hopens
        cases hopens
        exact ⟨_, _, _, _, _, rfl, hkind⟩
    have hearlier : RewindsKeep s := fun pre e' post m hsplit hm =>
      hkeeps pre e' (post ++ [e]) m (by rw [hevents, hsplit]; simp) hm
    refine (ih hbefore hearlier).extended hs hbefore.current hbefore.named h.2 (hplain.named e hlast) ?_
    exact hkeeps s.events e [] s hevents hs.fromEvents

end

end AikitRuntime.Traces
