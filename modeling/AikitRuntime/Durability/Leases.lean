import AikitRuntime.Durability.DurableStore

/-!
# How long a commit can hold a run

A lease is bounded by the timestamp of its claim or renewal: `validateWorkerLeaseWindow`
lets it last for `maxDurableWorkerLeaseMs` from there. The store compares a first claim and a
recovery claim with its own clock. A fenced replacement is not compared with the clock: its
renewals follow each other, each inside the lease that the one before it made, and their
timestamps are the client's.
-/

namespace AikitRuntime.Durability

open Library

/-- The timestamp from which a claim or a renewal lets the lease last. -/
def RunEventKind.leaseStart : RunEventKind → Option Nat
  | .workerLeaseClaimed _ _ claimedAtUnixMs _ => some claimedAtUnixMs
  | .workerLeaseRenewed _ _ renewedAtUnixMs _ => some renewedAtUnixMs
  | _ => none

/-- The timestamp of the last claim or renewal of a log. -/
def lastLeaseStart (events : List RunEvent) : Option Nat :=
  (events.filterMap (·.kind.leaseStart)).getLast?

section
variable [Digest]

@[simp] theorem forkProjection_workerLease {c : Checkpoint} {runId branchId : String} :
    (forkProjection c runId branchId).workerLease = none := by
  unfold forkProjection
  dsimp only
  split
  · rfl
  · split <;> rfl

/-- A lease that lasts for no longer than one bounded lease from a timestamp. -/
def DurableWorkerLease.LastsFrom (lease : DurableWorkerLease) (start : Nat) : Prop :=
  lease.expiresAtUnixMs ≤ start + maxDurableWorkerLeaseMs

namespace RunState

variable {s t m : RunState} {version sequence : Nat} {kind : RunEventKind}

/-- What an accepted event does to the lease. -/
inductive Relets (s : RunState) (kind : RunEventKind) (t : RunState) : Prop where
  | kept (hkind : kind.leaseStart = none) (h : t.projection.workerLease = s.projection.workerLease)
  | dropped (hkind : kind.leaseStart = none) (h : t.projection.workerLease = none)
  | relet {start : Nat} {lease : DurableWorkerLease} (hkind : kind.leaseStart = some start)
      (h : t.projection.workerLease = some lease) (hlasts : lease.LastsFrom start)

omit [Digest] in
theorem lastsFrom_of_window {lease : DurableWorkerLease} {start : Nat}
    (h : validateWorkerLeaseWindow start lease.expiresAtUnixMs = .ok ()) : lease.LastsFrom start := by
  simp only [validateWorkerLeaseWindow, refuseIf_eq_ok, not_not] at h
  unfold DurableWorkerLease.LastsFrom
  omega

theorem Transition.relets (h : Transition s version sequence kind t) : Relets s kind t := by
  cases h with
  | workerLeaseClaimed _ hwindow => exact .relet rfl rfl (lastsFrom_of_window hwindow)
  | workerLeaseRenewed _ hwindow => exact .relet rfl rfl (lastsFrom_of_window hwindow)
  | workerLeaseReleased => exact .dropped rfl rfl
  | runRewound => exact .dropped rfl forkProjection_workerLease
  | activityOrphaned => exact .kept rfl (by split <;> rfl)
  | activityQuarantined => exact .kept rfl (by dsimp only; split <;> rfl)
  | activityReconciled => exact .kept rfl (by dsimp only; split <;> rfl)
  | _ => exact .kept rfl rfl

/-- What a log does to the lease. -/
inductive Leased (m : RunState) (events : List RunEvent) (s : RunState) : Prop where
  | kept (hlog : lastLeaseStart events = none)
      (h : s.projection.workerLease = m.projection.workerLease)
  | dropped (h : s.projection.workerLease = none)
  | relet {start : Nat} {lease : DurableWorkerLease} (hlog : lastLeaseStart events = some start)
      (h : s.projection.workerLease = some lease) (hlasts : lease.LastsFrom start)

omit [Digest] in
theorem lastLeaseStart_cons {e : RunEvent} {es : List RunEvent} :
    lastLeaseStart (e :: es) = (lastLeaseStart es).or e.kind.leaseStart := by
  unfold lastLeaseStart
  cases hstart : e.kind.leaseStart with
  | none => simp [hstart]
  | some start =>
    simp only [List.filterMap_cons, hstart, List.getLast?_cons]
    cases (es.filterMap (·.kind.leaseStart)).getLast? <;> rfl

/-- **The lease after a log** is the one of the last claim or renewal, or an older one that the
log let stand. -/
theorem lease_of_path {events : List RunEvent} (hm : Logged m) (h : Path Replays m events s) :
    Leased m events s := by
  induction h with
  | nil => exact .kept rfl rfl
  | @cons m t s e es hstep _ ih =>
    obtain ⟨u, htransition, rfl⟩ := hm.transition hstep.2
    have hrelets := htransition.relets
    cases ih (.extended hm hstep) with
    | dropped hdropped => exact .dropped hdropped
    | relet hlog hlease hlasts =>
      exact .relet (by rw [lastLeaseStart_cons, hlog]; rfl) hlease hlasts
    | kept hlog hkept =>
      rw [pushEvent_projection] at hkept
      cases hrelets with
      | kept hkind hlease =>
        exact .kept (by rw [lastLeaseStart_cons, hlog, hkind]; rfl) (hkept.trans hlease)
      | dropped _ hlease => exact .dropped (hkept.trans hlease)
      | relet hkind hlease hlasts =>
        exact .relet (by rw [lastLeaseStart_cons, hlog, hkind]; rfl) (hkept.trans hlease) hlasts

end RunState

open RunState

/-! ### The lease in the store -/

omit [Digest] in
theorem DurableWorkerLease.LastsFrom.mono {lease : DurableWorkerLease} {now later : Nat}
    (h : lease.LastsFrom now) (hle : now ≤ later) : lease.LastsFrom later := by
  unfold LastsFrom at *
  omega

/-- The last claim or renewal that the call commits to the run does not start after the store's clock.
Other calls are not asked, nor are commits that are refused. -/
def LetsInTime (runId : String) (σ : StoreSystem) (e : StoreEvent) (σ' : StoreSystem) : Prop :=
  ∀ c current now start, e.call.commit = some c → σ.store.runs[runId]? = some current →
    c.replacement.runId = runId → σ'.store.runs[runId]? = some c.replacement → e.clock = .ok now →
      lastLeaseStart (c.replacement.events.drop current.events.length) = some start → start ≤ now

/-- A call is served, and lets the run in time. -/
def ServesInTime (runId : String) (σ : StoreSystem) (e : StoreEvent) (σ' : StoreSystem) : Prop :=
  Serves σ e σ' ∧ LetsInTime runId σ e σ'

/-- The store holds the run, and its lease stays within one bounded lease of the clock. -/
def StoreSystem.HoldsBriefly (runId : String) (σ : StoreSystem) : Prop :=
  ∃ s, σ.store.runs[runId]? = some s ∧ Reachable s ∧
    ∀ lease, s.projection.workerLease = some lease → lease.LastsFrom σ.now

variable {σ σ' σ₀ : StoreSystem} {e : StoreEvent} {before history : List StoreEvent}
  {runId : String} {s s₀ : RunState} {lease : DurableWorkerLease}

theorem ServesInTime.holdsBriefly (h : ServesInTime runId σ e σ') (hσ : σ.HoldsBriefly runId) :
    σ'.HoldsBriefly runId := by
  obtain ⟨s, hs, hreach, hlasts⟩ := hσ
  obtain ⟨hserves, htime⟩ := h
  obtain ⟨s', hs', -⟩ := hserves.stores.extendsLogs runId s hs
  have hlater : ∀ lease, s.projection.workerLease = some lease → lease.LastsFrom σ'.now :=
    fun lease hlease => (hlasts lease hlease).mono hserves.now_le
  rcases hserves.replaced hs hs' with rfl | ⟨c, now, hc, rfl, hid, hclock, hnow, -, hlog, -⟩
  · exact ⟨s', hs', hreach, hlater⟩
  · have hbrought : Reachable c.replacement :=
      hserves.brings _ (StoreCall.run_of_commit e.clock hc).2
    refine ⟨c.replacement, hs', hbrought, fun lease hlease => ?_⟩
    obtain ⟨appended, happended⟩ := prefix_of_validateAppendOnly hlog
    obtain ⟨hlogged, -, hpath⟩ := hbrought.logged.path happended.symm hreach.fromEvents_events
    cases lease_of_path hlogged hpath with
    | kept _ hkept => exact hlater lease (hkept ▸ hlease)
    | dropped hdropped => rw [hdropped] at hlease; cases hlease
    | @relet start _ hlast hrelet hlasts =>
      rw [hrelet] at hlease
      cases hlease
      have hstart : start ≤ now := by
        refine htime c s now start hc hs hid hs' hclock ?_
        rw [← happended, List.drop_left]
        exact hlast
      exact hlasts.mono (hnow ▸ hstart)

/-- **The stored lease stays within one bounded lease of the store's clock**, from a run that was
stored without a lease, as long as no commit of the run lets it from a moment that the clock has not
reached. -/
theorem lease_bounded (hbefore : Path Serves .start before σ₀)
    (hs₀ : σ₀.store.runs[runId]? = some s₀) (hfree : s₀.projection.workerLease = none)
    (h : Path (ServesInTime runId) σ₀ history σ) (hs : σ.store.runs[runId]? = some s)
    (hlease : s.projection.workerLease = some lease) :
    lease.expiresAtUnixMs ≤ σ.now + maxDurableWorkerLeaseMs := by
  have hstart : σ₀.HoldsBriefly runId := by
    refine ⟨s₀, hs₀, reachable_of_path hbefore runId s₀ hs₀, fun lease hlease => ?_⟩
    rw [hfree] at hlease
    cases hlease
  obtain ⟨s', hs', -, hlasts⟩ :=
    h.invariant (P := StoreSystem.HoldsBriefly runId) (fun _ _ _ _ => ServesInTime.holdsBriefly) hstart
  rw [hs] at hs'
  cases hs'
  exact hlasts lease hlease

/-! ### A commit that lets too long -/

/-- What would hold of a store that compared renewals with its clock. -/
def BoundsLeases : Prop :=
  ∀ (before history : List StoreEvent) (σ₀ σ : StoreSystem) (runId : String) (s₀ s : RunState)
    (lease : DurableWorkerLease), Path Serves .start before σ₀ → σ₀.store.runs[runId]? = some s₀ →
      s₀.projection.workerLease = none → Path Serves σ₀ history σ →
        σ.store.runs[runId]? = some s → s.projection.workerLease = some lease →
          lease.expiresAtUnixMs ≤ σ.now + maxDurableWorkerLeaseMs

/-- A worker claims a lease at zero, and renews it from within an hour, and again from within
two. -/
def renewedLog : List RunEvent :=
  logOf "r" [("1", .runStarted "s" .sync "b"), ("2", .workerLeaseClaimed "w" "l" 0 3600000),
    ("3", .workerLeaseRenewed "w" "l" 3599999 7199999),
    ("4", .workerLeaseRenewed "w" "l" 7199998 10799998)]

omit [Digest] in
/-- The two renewals are committed as soon as the claim, and the clock still stands at zero. -/
theorem holdsTooLong :
    ∃ created, @fromEvents sha256 (renewedLog.take 1) = .ok created ∧
      ∃ claimed, @fromEvents sha256 (renewedLog.take 2) = .ok claimed ∧
      ∃ renewed, @fromEvents sha256 renewedLog = .ok renewed ∧
      (∃ s, (createdStore created).store.runs["r"]? = some s ∧ s.projection.workerLease = none ∧
        (lastLeaseStart (claimed.events.drop s.events.length)).all (· ≤ 0)) ∧
      (∃ s, (claimedStore created claimed).store.runs["r"]? = some s ∧
        ∃ lease, s.projection.workerLease = some lease ∧ True) ∧
      ∃ s, ((claimedStore created claimed).afterCall
          (.compareAndSwapFenced 2 renewed ⟨"w", "l"⟩) 0).store.runs["r"]? = some s ∧
        ∃ lease, s.projection.workerLease = some lease ∧ maxDurableWorkerLeaseMs < lease.expiresAtUnixMs := by
  decide +kernel

omit [Digest] in
/-- Two renewals in one fenced commit hold the run for three hours. -/
theorem not_boundsLeases : ¬ @BoundsLeases sha256 := by
  intro hbounds
  obtain ⟨created, hcreated, claimed, hclaimed, renewed, hrenewed, ⟨s₀, hs₀, hfree, -⟩, -, s, hs, lease, hlease,
    hlong⟩ := holdsTooLong
  let inst : Digest := sha256
  have hrenews : Serves (claimedStore created claimed)
      ⟨.compareAndSwapFenced 2 renewed ⟨"w", "l"⟩, .ok 0⟩ _ :=
    serves_afterCall (Nat.le_refl _) fun state hstate => by cases hstate; exact .fromEvents hrenewed
  have hbound := hbounds _ _ _ _ "r" s₀ s lease (path_createdStore (.fromEvents hcreated)) hs₀ hfree
    (.cons (serves_claimedStore (.fromEvents hclaimed)) (.single hrenews)) hs hlease
  have hnow : ((claimedStore created claimed).afterCall
    (.compareAndSwapFenced 2 renewed ⟨"w", "l"⟩) 0).now = 0 := rfl
  omega

omit [Digest] in
/-- The claim by itself keeps to the clock. -/
theorem lease_bounded_claimedStore :
    ∃ created claimed s lease, (claimedStore created claimed).store.runs["r"]? = some s ∧
      s.projection.workerLease = some lease ∧ lease.expiresAtUnixMs ≤ maxDurableWorkerLeaseMs := by
  obtain ⟨created, hcreated, claimed, hclaimed, -, -, ⟨s₀, hs₀, hfree, htime⟩, ⟨s, hs, lease, hlease, -⟩, -⟩ :=
    holdsTooLong
  let inst : Digest := sha256
  have hintime : LetsInTime "r" (createdStore created) ⟨.compareAndSwap 1 claimed, .ok 0⟩
      (claimedStore created claimed) := by
    intro c current now start hc hcurrent _ _ hclock hlast
    cases hc
    cases hclock
    cases hs₀.symm.trans hcurrent
    rw [hlast] at htime
    simpa using htime
  have hbound := lease_bounded (path_createdStore (.fromEvents hcreated)) hs₀ hfree
    (.single ⟨serves_claimedStore (.fromEvents hclaimed), hintime⟩) hs hlease
  have hnow : (claimedStore created claimed).now = 0 := rfl
  exact ⟨created, claimed, s, lease, hs, hlease, by omega⟩

end

end AikitRuntime.Durability
