import AikitRuntime.Durability.Reach

/-!
# The in-memory durable store

A store keeps one run for each run identifier, and clients replace it by compare-and-swap:
a client loads a run, extends it, and commits the extension under the revision that it had
loaded. Three validators stand between a commit and the stored run, all evaluated under the
store's lock: the revision is still the one expected, the worker lease lets the client
commit, and the replacement's log extends the stored one.

Every call holds the lock from its first line to its last, so an interleaving of clients is
a sequence of calls. `Serves` is one call, with the reading of the store's clock that it
takes; `Path Serves` is an interleaving.
-/

namespace AikitRuntime.Durability

open Library RunState

/-- `DurableStoreError`, as far as the in-memory store raises it. -/
inductive DurableStoreError where
  | notFound (runId : String)
  | alreadyExists (runId : String)
  | conflict (runId : String) (expected actual : Nat)
  | workerLeaseRequired (runId ownerId : String)
  | workerLeaseConflict (runId ownerId : String)
  | invalidWorkerLeaseClaim (runId : String)
  | workerLeaseRecoveryRequired (runId : String)
  | approvalResolutionGuardRequired (runId approvalId : String)
  | approvalExpired (runId approvalId : String) (observedAtUnixMs : Nat)
  | io (text : String)
  | invalid (text : String)
  deriving DecidableEq

/-- `DurableStoreResult<T>`. -/
abbrev DurableStoreResult (α : Type) : Type := Except DurableStoreError α

/-- `DurableStoreLeaseAuthority`. -/
structure DurableStoreLeaseAuthority where
  ownerId : String
  leaseId : String
  deriving DecidableEq

/-- `last_sequence`. -/
def lastSequence (state : RunState) : Nat := (state.events.getLast?.map (·.sequence)).getD 0

/-! ### The worker lease -/

/-- The event claims a worker lease. -/
def RunEventKind.isLeaseClaim : RunEventKind → Bool
  | .workerLeaseClaimed .. => true
  | _ => false

/-- `appends_worker_lease_claim`. -/
def appendsWorkerLeaseClaim (current replacement : RunState) : Bool :=
  (replacement.events.drop (min current.events.length replacement.events.length)).any
    (·.kind.isLeaseClaim)

/-- `is_atomic_lease_claim`. -/
def isAtomicLeaseClaim (current replacement : RunState) (nowUnixMs : Nat) : Bool :=
  let currentLen := current.events.length
  match replacement.events[currentLen]? with
  | none => false
  | some event =>
    if replacement.events.length ≠ currentLen + 1 then false
    else match event.kind, replacement.projection.workerLease with
      | .workerLeaseClaimed ownerId leaseId claimedAt expiresAt, some lease =>
        claimedAt ≤ nowUnixMs && nowUnixMs < expiresAt &&
          (claimedAt ≤ expiresAt && 0 < expiresAt - claimedAt &&
            expiresAt - claimedAt ≤ maxDurableWorkerLeaseMs) &&
          lease.ownerId = ownerId && lease.leaseId = leaseId &&
          lease.acquiredAtUnixMs = claimedAt && lease.expiresAtUnixMs = expiresAt
      | _, _ => false

/-- `validate_worker_lease_fence`. -/
def validateWorkerLeaseFence (current replacement : RunState)
    (authority : Option DurableStoreLeaseAuthority) (nowUnixMs : Nat) : DurableStoreResult Unit :=
  let activeLease := current.projection.workerLease.filter fun lease =>
    nowUnixMs < lease.expiresAtUnixMs
  match current.projection.workerLease, activeLease, authority with
  | none, none, none =>
    if appendsWorkerLeaseClaim current replacement = false then .ok ()
    else if isAtomicLeaseClaim current replacement nowUnixMs then .ok ()
    else .error (.invalidWorkerLeaseClaim current.runId)
  | some _, none, none =>
    if isAtomicLeaseClaim current replacement nowUnixMs then .ok ()
    else .error (.workerLeaseRecoveryRequired current.runId)
  | _, some lease, none => .error (.workerLeaseRequired current.runId lease.ownerId)
  | _, some lease, some authority =>
    if lease.ownerId = authority.ownerId ∧ lease.leaseId = authority.leaseId then .ok ()
    else .error (.workerLeaseConflict current.runId authority.ownerId)
  | _, none, some authority => .error (.workerLeaseConflict current.runId authority.ownerId)

/-! ### The log -/

/-- `validate_append_only`. -/
def validateAppendOnly (current replacement : RunState) : DurableStoreResult Unit := do
  refuseIf (current.runId ≠ replacement.runId)
    (.invalid "replacement run ID does not match current run")
  refuseIf (current.sessionId ≠ replacement.sessionId)
    (.invalid "replacement session ID does not match current run")
  refuseIf (replacement.events.length < current.events.length ∨
      replacement.events.take current.events.length ≠ current.events)
    (.invalid "replacement event log is not an append-only extension")
  refuseIf (replacement.events.length = current.events.length ∧ replacement ≠ current)
    (.invalid "same-revision replacement changed the durable projection")

/-! ### Approvals -/

/-- `replacement.events().get(current.events().len()..)`. -/
def appendedEvents (current replacement : RunState) : Option (List RunEvent) :=
  if current.events.length ≤ replacement.events.length then
    some (replacement.events.drop current.events.length)
  else none

/-- What the resolutions seen so far amount to: `target_resolutions` and `target_expired`. -/
structure ResolutionTally where
  targetResolutions : Nat
  targetExpired : Bool
  deriving DecidableEq

/-- One turn of the loop of `validate_approval_resolution_deadline`. -/
def tallyResolution (current : RunState) (approvalId : String) (nowUnixMs : Nat)
    (tally : ResolutionTally) (event : RunEvent) : DurableStoreResult ResolutionTally :=
  match event.kind with
  | .approvalResolved resolvedId approved _ => do
    let persisted ← okOr current.projection.approvals[resolvedId]?
      (.invalid s!"atomic approval resolution appended unknown approval '{resolvedId}'")
    refuseIf (persisted.status ≠ .pending)
      (.invalid s!"atomic approval resolution appended non-pending approval '{resolvedId}'")
    let targetResolutions :=
      if resolvedId = approvalId then tally.targetResolutions + 1 else tally.targetResolutions
    if approved then do
      refuseIf (resolvedId ≠ approvalId)
        (.invalid s!"atomic approval resolution for '{approvalId}' also approved '{resolvedId}'")
      let expiresAtUnixMs ← okOr persisted.expiresAtUnixMs
        (.invalid s!"atomic approval resolution cannot allow untyped approval '{resolvedId}'")
      pure ⟨targetResolutions, tally.targetExpired || expiresAtUnixMs ≤ nowUnixMs⟩
    else pure { tally with targetResolutions }
  | _ => .ok tally

/-- `validate_approval_resolution_deadline`. -/
def validateApprovalResolutionDeadline (current replacement : RunState) (approvalId : String)
    (nowUnixMs : Nat) : DurableStoreResult Unit := do
  let currentApproval ← okOr current.projection.approvals[approvalId]?
    (.invalid s!"atomic approval resolution references unknown approval '{approvalId}'")
  refuseIf (currentApproval.status ≠ .pending ∨ currentApproval.expiresAtUnixMs.isNone)
    (.invalid s!"atomic approval resolution requires pending typed approval '{approvalId}'")
  let appended ← okOr (appendedEvents current replacement)
    (.invalid "atomic approval resolution replacement truncated the event log")
  let tally ← appended.foldlM (tallyResolution current approvalId nowUnixMs) ⟨0, false⟩
  refuseIf (tally.targetResolutions ≠ 1)
    (.invalid s!"atomic approval resolution must append exactly one resolution for '{approvalId}'")
  let resolved ← okOr replacement.projection.approvals[approvalId]?
    (.invalid s!"atomic approval replacement lost approval '{approvalId}'")
  refuseIf (resolved.status = .pending)
    (.invalid s!"atomic approval replacement did not resolve approval '{approvalId}'")
  refuseIf tally.targetExpired (.approvalExpired current.runId approvalId nowUnixMs)

/-- One turn of the loop of `reject_unvalidated_approval_resolutions`. -/
def rejectUnvalidated (current : RunState) (event : RunEvent) : DurableStoreResult Unit :=
  match event.kind with
  | .approvalResolved approvalId _ _ => do
    let approval ← okOr current.projection.approvals[approvalId]?
      (.invalid s!"approval resolution appended unknown approval '{approvalId}'")
    refuseIf approval.expiresAtUnixMs.isSome
      (.approvalResolutionGuardRequired current.runId approvalId)
  | _ => .ok ()

/-- `reject_unvalidated_approval_resolutions`. -/
def rejectUnvalidatedApprovalResolutions (current replacement : RunState) :
    DurableStoreResult Unit := do
  let appended ← okOr (appendedEvents current replacement)
    (.invalid "approval resolution replacement truncated the event log")
  firstRefusal (rejectUnvalidated current) appended

/-- What a commit asks of the approvals: the checks of the one that it names, or that it resolves
no typed one. -/
def validateApprovals (current replacement : RunState) (approvalId : Option String)
    (nowUnixMs : Nat) : DurableStoreResult Unit :=
  match approvalId with
  | some approvalId => validateApprovalResolutionDeadline current replacement approvalId nowUnixMs
  | none => rejectUnvalidatedApprovalResolutions current replacement

/-! ### The store -/

/-- `InMemoryDurableStore`. No code panics under its lock, which is therefore never poisoned. -/
structure InMemoryDurableStore where
  runs : BTreeMap RunState

/-- A method of the store. -/
abbrev StoreMethod (α : Type) : Type := Method InMemoryDurableStore DurableStoreError α

namespace InMemoryDurableStore

open Method

/-- `runs.insert(run_id, state)`. -/
def insertRun (runId : String) (state : RunState) : StoreMethod Unit :=
  modify fun store => { store with runs := store.runs.insert runId state }

/-- `create`. -/
def create (state : RunState) : StoreMethod Unit := do
  let store ← read id
  check (refuseIf (store.runs.contains state.runId) (.alreadyExists state.runId))
  insertRun state.runId state

/-- `load`. -/
def load (runId : String) : StoreMethod RunState := do
  let store ← read id
  check (okOr store.runs[runId]? (.notFound runId))

/-- `compare_and_swap_inner`. The clock is read under the lock, once the revision is checked. -/
def compareAndSwapInner (clock : DurableStoreResult Nat) (expectedSequence : Nat)
    (replacement : RunState) (authority : Option DurableStoreLeaseAuthority)
    (approvalId : Option String) : StoreMethod Unit := do
  let store ← read id
  let current ← check (okOr store.runs[replacement.runId]? (.notFound replacement.runId))
  let actual := lastSequence current
  check (refuseIf (actual ≠ expectedSequence)
    (.conflict replacement.runId expectedSequence actual))
  let nowUnixMs ← check clock
  check (validateWorkerLeaseFence current replacement authority nowUnixMs)
  check (validateAppendOnly current replacement)
  check (match approvalId with
    | some approvalId => validateApprovalResolutionDeadline current replacement approvalId nowUnixMs
    | none => rejectUnvalidatedApprovalResolutions current replacement)
  insertRun replacement.runId replacement

/-- `compare_and_swap`. -/
def compareAndSwap (clock : DurableStoreResult Nat) (expectedSequence : Nat)
    (replacement : RunState) : StoreMethod Unit :=
  compareAndSwapInner clock expectedSequence replacement none none

/-- `compare_and_swap_fenced`. -/
def compareAndSwapFenced (clock : DurableStoreResult Nat) (expectedSequence : Nat)
    (replacement : RunState) (authority : DurableStoreLeaseAuthority) : StoreMethod Unit :=
  compareAndSwapInner clock expectedSequence replacement (some authority) none

/-- `compare_and_swap_approval_resolution`. -/
def compareAndSwapApprovalResolution (clock : DurableStoreResult Nat) (expectedSequence : Nat)
    (replacement : RunState) (approvalId : String)
    (authority : Option DurableStoreLeaseAuthority) : StoreMethod Unit :=
  compareAndSwapInner clock expectedSequence replacement authority (some approvalId)

variable {runId : String} {state : RunState} {store : InMemoryDurableStore}

theorem insertRun_failsClean :
    FailsClean (insertRun runId state) store := fun _ _ h => by cases h

variable {store' : InMemoryDurableStore}

variable {u : Unit}

theorem create_eq_ok :
    (create state).run store = .ok u store' ↔ store.runs[state.runId]? = none ∧
      store' = { store with runs := store.runs.insert state.runId state } := by
  unfold create
  simp only [run_read_bind, id, run_check_bind_eq_ok, exists_unit, refuseIf_eq_ok, Bool.not_eq_true,
    BTreeMap.contains_eq_false, insertRun, EStateM.run_modify, EStateM.Result.ok.injEq, true_and,
    eq_comm (b := store')]

theorem create_failsClean :
    FailsClean (create state) store :=
  .read_bind <| .check_bind fun _ _ => insertRun_failsClean

theorem load_failsClean :
    FailsClean (load runId) store := .read_bind (.check _)

theorem load_eq_ok :
    (load runId).run store = .ok state store' ↔ store.runs[runId]? = some state ∧ store' = store := by
  unfold load
  simp only [run_read_bind, id, run_check_eq_ok, okOr_eq_ok, eq_comm (b := store')]

variable {approvalId : Option String} {authority : Option DurableStoreLeaseAuthority} {clock : DurableStoreResult Nat}
  {expectedSequence : Nat} {replacement : RunState}

/-- When a commit succeeds, and what it does. -/
theorem compareAndSwapInner_eq_ok :
    (compareAndSwapInner clock expectedSequence replacement authority approvalId).run store =
        .ok u store' ↔
      ∃ current now, store.runs[replacement.runId]? = some current ∧
        lastSequence current = expectedSequence ∧ clock = .ok now ∧
        validateWorkerLeaseFence current replacement authority now = .ok () ∧
        validateAppendOnly current replacement = .ok () ∧
        (match approvalId with
          | some approvalId => validateApprovalResolutionDeadline current replacement approvalId now
          | none => rejectUnvalidatedApprovalResolutions current replacement) = .ok () ∧
        store' = { store with runs := store.runs.insert replacement.runId replacement } := by
  unfold compareAndSwapInner
  simp only [run_read_bind, id, run_check_bind_eq_ok, okOr_eq_ok, exists_unit, refuseIf_eq_ok,
    not_not, insertRun, EStateM.run_modify, EStateM.Result.ok.injEq, true_and, eq_comm (b := store')]
  constructor
  · rintro ⟨current, hcurrent, hrevision, now, hclock, hfence, hlog, happrovals, rfl⟩
    exact ⟨current, now, hcurrent, hrevision, hclock, hfence, hlog, happrovals, rfl⟩
  · rintro ⟨current, now, hcurrent, hrevision, hclock, hfence, hlog, happrovals, rfl⟩
    exact ⟨current, hcurrent, hrevision, now, hclock, hfence, hlog, happrovals, rfl⟩

theorem compareAndSwapInner_failsClean :
    FailsClean (compareAndSwapInner clock expectedSequence replacement authority approvalId) store :=
  .read_bind <| .check_bind fun _ _ => .check_bind fun _ _ => .check_bind fun _ _ =>
    .check_bind fun _ _ => .check_bind fun _ _ => .check_bind fun _ _ => insertRun_failsClean

end InMemoryDurableStore

/-! ### What the validators let pass -/

section
variable {current replacement : RunState} {authority : Option DurableStoreLeaseAuthority}
  {lease : DurableWorkerLease} {now : Nat}

/-- While a lease lasts, only its holder's authority passes the fence. -/
theorem authority_of_live (hlease : current.projection.workerLease = some lease)
    (hlive : now < lease.expiresAtUnixMs)
    (h : validateWorkerLeaseFence current replacement authority now = .ok ()) :
    ∃ holder, authority = some holder ∧ holder.ownerId = lease.ownerId ∧
      holder.leaseId = lease.leaseId := by
  unfold validateWorkerLeaseFence at h
  rw [hlease, Option.filter_some, if_pos (by simpa using hlive)] at h
  cases authority with
  | none => cases h
  | some holder =>
    dsimp only at h
    split at h
    · next hmatch => exact ⟨holder, rfl, hmatch.1.symm, hmatch.2.symm⟩
    · cases h

/-- Once a lease has expired, only an unfenced recovery claim passes the fence. -/
theorem claim_of_expired (hlease : current.projection.workerLease = some lease)
    (hexpired : lease.expiresAtUnixMs ≤ now)
    (h : validateWorkerLeaseFence current replacement authority now = .ok ()) :
    authority = none ∧ isAtomicLeaseClaim current replacement now = true := by
  unfold validateWorkerLeaseFence at h
  rw [hlease, Option.filter_some, if_neg (by simpa using hexpired)] at h
  cases authority with
  | none =>
    dsimp only at h
    split at h
    · next hclaim => exact ⟨rfl, hclaim⟩
    · cases h
  | some holder => cases h

/-- A recovery claim appends one event, the claim. -/
theorem event_of_isAtomicLeaseClaim (h : isAtomicLeaseClaim current replacement now = true) :
    ∃ event, replacement.events[current.events.length]? = some event ∧
      replacement.events.length = current.events.length + 1 ∧ event.kind.isLeaseClaim = true := by
  unfold isAtomicLeaseClaim at h
  dsimp only at h
  split at h
  · cases h
  · next event hevent =>
    split at h
    · cases h
    · next hlength =>
      split at h
      · next hkind _ => exact ⟨event, hevent, not_not.mp hlength, by rw [hkind]; rfl⟩
      · cases h

/-- A replacement's log extends the current one. -/
theorem prefix_of_validateAppendOnly (h : validateAppendOnly current replacement = .ok ()) :
    current.events <+: replacement.events := by
  simp only [validateAppendOnly, bind_eq_ok, exists_unit, refuseIf_eq_ok, not_or, not_not] at h
  exact List.prefix_iff_eq_take.mpr h.2.2.1.2.symm

end

/-! ### Calls -/

/-- One call of a client. -/
inductive StoreCall where
  | create (state : RunState)
  | load (runId : String)
  | compareAndSwap (expectedSequence : Nat) (replacement : RunState)
  | compareAndSwapFenced (expectedSequence : Nat) (replacement : RunState)
      (authority : DurableStoreLeaseAuthority)
  | compareAndSwapApprovalResolution (expectedSequence : Nat) (replacement : RunState)
      (approvalId : String) (authority : Option DurableStoreLeaseAuthority)

/-- A commit: what the three ways to compare and swap have in common. -/
structure Commit where
  expectedSequence : Nat
  replacement : RunState
  authority : Option DurableStoreLeaseAuthority
  approvalId : Option String

namespace StoreCall

open InMemoryDurableStore Method

/-- What a call does, what it loads left out. -/
def run (clock : DurableStoreResult Nat) : StoreCall → StoreMethod Unit
  | .create state => InMemoryDurableStore.create state
  | .load runId => do
    let _ ← InMemoryDurableStore.load runId
    pure ()
  | .compareAndSwap expectedSequence replacement =>
    InMemoryDurableStore.compareAndSwap clock expectedSequence replacement
  | .compareAndSwapFenced expectedSequence replacement authority =>
    InMemoryDurableStore.compareAndSwapFenced clock expectedSequence replacement authority
  | .compareAndSwapApprovalResolution expectedSequence replacement approvalId authority =>
    InMemoryDurableStore.compareAndSwapApprovalResolution clock expectedSequence replacement
      approvalId authority

/-- The commit that a call makes. -/
def commit : StoreCall → Option Commit
  | .create _ | .load _ => none
  | .compareAndSwap expectedSequence replacement => some ⟨expectedSequence, replacement, none, none⟩
  | .compareAndSwapFenced expectedSequence replacement authority =>
    some ⟨expectedSequence, replacement, some authority, none⟩
  | .compareAndSwapApprovalResolution expectedSequence replacement approvalId authority =>
    some ⟨expectedSequence, replacement, authority, some approvalId⟩

/-- The run that a call brings. -/
def brings : StoreCall → Option RunState
  | .create state => some state
  | .load _ => none
  | .compareAndSwap _ replacement | .compareAndSwapFenced _ replacement _
  | .compareAndSwapApprovalResolution _ replacement _ _ => some replacement

variable {call : StoreCall} {clock : DurableStoreResult Nat} {store : InMemoryDurableStore}

theorem run_of_commit {c : Commit} (clock : DurableStoreResult Nat) (h : call.commit = some c) :
    call.run clock =
      compareAndSwapInner clock c.expectedSequence c.replacement c.authority c.approvalId ∧
        call.brings = some c.replacement := by
  cases call <;> cases h <;> exact ⟨rfl, rfl⟩

/-- **A failed call leaves the store as it was.** -/
theorem failsClean (call : StoreCall) (clock : DurableStoreResult Nat)
    (store : InMemoryDurableStore) : FailsClean (call.run clock) store := by
  have committed : ∀ c, call.commit = some c → FailsClean (call.run clock) store := by
    intro c hc
    rw [(run_of_commit clock hc).1]
    exact compareAndSwapInner_failsClean
  cases call with
  | create => exact create_failsClean
  | load runId =>
    show FailsClean (InMemoryDurableStore.load runId >>= fun _ => pure ()) store
    exact .bind load_failsClean fun _ _ _ _ _ h => by cases h
  | compareAndSwap => exact committed _ rfl
  | compareAndSwapFenced => exact committed _ rfl
  | compareAndSwapApprovalResolution => exact committed _ rfl

end StoreCall

/-- What a call does to the store: nothing, or it stores the run that it brings, whose log extends
the one stored before. -/
inductive Stores (brings : Option RunState) (store : InMemoryDurableStore) :
    InMemoryDurableStore → Prop where
  | kept : Stores brings store store
  | stored {state : RunState} (hbrings : brings = some state)
      (hlog : ∀ current, store.runs[state.runId]? = some current → current.events <+: state.events) :
      Stores brings store { store with runs := store.runs.insert state.runId state }

theorem StoreCall.stores (call : StoreCall) (clock : DurableStoreResult Nat)
    (store : InMemoryDurableStore) :
    Stores call.brings store (after ((call.run clock).run store)) := by
  cases hrun : (call.run clock).run store with
  | error error store' =>
    rw [after_error, call.failsClean clock store error store' hrun]
    exact .kept
  | ok u store' =>
    rw [after_ok]
    have committed : ∀ c, call.commit = some c → Stores call.brings store store' := by
      intro c hc
      obtain ⟨hcommit, hbrings⟩ := run_of_commit clock hc
      rw [hcommit, InMemoryDurableStore.compareAndSwapInner_eq_ok] at hrun
      obtain ⟨current, now, hcurrent, -, -, -, hlog, -, rfl⟩ := hrun
      refine .stored hbrings fun stored hstored => ?_
      rw [hcurrent] at hstored
      cases hstored
      exact prefix_of_validateAppendOnly hlog
    cases call with
    | create state =>
      obtain ⟨hfree, rfl⟩ := InMemoryDurableStore.create_eq_ok.mp hrun
      refine .stored rfl fun current hcurrent => ?_
      rw [hfree] at hcurrent
      cases hcurrent
    | load runId =>
      obtain ⟨_, m, hload, hdone⟩ := Method.run_bind_eq_ok.mp hrun
      cases hdone
      obtain ⟨-, rfl⟩ := InMemoryDurableStore.load_eq_ok.mp hload
      exact .kept
    | compareAndSwap => exact committed _ rfl
    | compareAndSwapFenced => exact committed _ rfl
    | compareAndSwapApprovalResolution => exact committed _ rfl

/-- Every log of the first store is extended in the second. -/
def InMemoryDurableStore.ExtendsLogs (store store' : InMemoryDurableStore) : Prop :=
  ∀ (runId : String) (s : RunState), store.runs[runId]? = some s →
    ∃ s', store'.runs[runId]? = some s' ∧ s.events <+: s'.events

theorem Stores.extendsLogs {brings : Option RunState} {store store' : InMemoryDurableStore}
    (h : Stores brings store store') : store.ExtendsLogs store' := by
  intro runId s hs
  cases h with
  | kept => exact ⟨s, hs, List.prefix_rfl⟩
  | @stored state _ hlog =>
    by_cases hrun : state.runId = runId
    · subst hrun
      exact ⟨state, BTreeMap.get_insert_self, hlog s hs⟩
    · exact ⟨s, by rw [BTreeMap.get_insert_of_ne hrun, hs], List.prefix_rfl⟩

section
variable [Digest]

/-! ### Interleavings -/

/-- The store, and the latest reading of its clock. -/
structure StoreSystem where
  store : InMemoryDurableStore
  now : Nat

/-- A call, and the reading of the clock that it takes. -/
structure StoreEvent where
  call : StoreCall
  clock : DurableStoreResult Nat

/-- The call succeeds. -/
def StoreSystem.Succeeds (σ : StoreSystem) (e : StoreEvent) : Prop :=
  ∃ store', (e.call.run e.clock).run σ.store = .ok () store'

/-- One call is served: the run that it brings is a run, and the clock does not go back. -/
structure Serves (σ : StoreSystem) (e : StoreEvent) (σ' : StoreSystem) : Prop where
  brings : ∀ state, e.call.brings = some state → Reachable state
  clock : ∀ now, e.clock = .ok now → σ.now ≤ now ∧ σ'.now = now
  broken : ∀ error, e.clock = .error error → σ'.now = σ.now
  result : σ'.store = after ((e.call.run e.clock).run σ.store)

/-- The store before any call. -/
def StoreSystem.start : StoreSystem := ⟨⟨∅⟩, 0⟩

variable {σ σ' : StoreSystem} {e : StoreEvent} {history : List StoreEvent}

theorem Serves.stores (h : Serves σ e σ') : Stores e.call.brings σ.store σ'.store :=
  h.result ▸ e.call.stores e.clock σ.store

theorem Serves.now_le (h : Serves σ e σ') : σ.now ≤ σ'.now := by
  cases hclock : e.clock with
  | ok now =>
    obtain ⟨hle, hnow⟩ := h.clock now hclock
    rwa [hnow]
  | error error => exact Nat.le_of_eq (h.broken error hclock).symm

/-- The clock does not go back. -/
theorem now_le_of_path (h : Path Serves σ history σ') : σ.now ≤ σ'.now :=
  h.invariant (P := fun x => σ.now ≤ x.now)
    (fun _ _ _ _ hserves hle => Nat.le_trans hle hserves.now_le) (Nat.le_refl _)

/-- **A committed event is never lost or altered.** -/
theorem extendsLogs_of_path (h : Path Serves σ history σ') : σ.store.ExtendsLogs σ'.store := by
  refine h.invariant (P := fun x => σ.store.ExtendsLogs x.store) ?_
    fun _ s hs => ⟨s, hs, List.prefix_rfl⟩
  intro x e y _ hserves hextends runId s hs
  obtain ⟨s', hs', hlog⟩ := hextends runId s hs
  obtain ⟨s'', hs'', hlog'⟩ := hserves.stores.extendsLogs runId s' hs'
  exact ⟨s'', hs'', hlog.trans hlog'⟩

/-- Every stored run is one. -/
theorem reachable_of_path (h : Path Serves .start history σ) (runId : String) (s : RunState)
    (hs : σ.store.runs[runId]? = some s) : Reachable s := by
  refine h.invariant (P := fun x => ∀ (runId : String) (s : RunState),
    x.store.runs[runId]? = some s → Reachable s) ?_ ?_ runId s hs
  · intro x e y _ hserves hx runId s hs
    have hstores := hserves.stores
    generalize y.store = store' at hstores hs
    cases hstores with
    | kept => exact hx runId s hs
    | stored hbrings =>
      rcases BTreeMap.get_insert_eq_some hs with ⟨-, rfl⟩ | ⟨-, hold⟩
      · exact hserves.brings _ hbrings
      · exact hx runId s hold
  · intro runId s hs
    rw [show StoreSystem.start.store.runs = (∅ : BTreeMap RunState) from rfl,
      BTreeMap.get_empty] at hs
    cases hs

variable {s : RunState}

/-- The last sequence number of a run is the number of its events. -/
theorem lastSequence_eq (hs : Reachable s) : lastSequence s = s.events.length := by
  have hnext := hs.logged.nextSequence
  have hne := hs.logged.events_ne_nil
  unfold nextSequence at hnext
  unfold lastSequence
  rw [List.getLast?_eq_some_getLast hne] at hnext ⊢
  simpa using hnext

variable {c : Commit}

omit [Digest] in
/-- What a successful commit found and did. -/
theorem StoreSystem.Succeeds.commit (h : σ.Succeeds e) (hc : e.call.commit = some c) :
    ∃ current now, σ.store.runs[c.replacement.runId]? = some current ∧
      lastSequence current = c.expectedSequence ∧ e.clock = .ok now ∧
      validateWorkerLeaseFence current c.replacement c.authority now = .ok () ∧
      validateAppendOnly current c.replacement = .ok () ∧
      after ((e.call.run e.clock).run σ.store) =
        { σ.store with runs := σ.store.runs.insert c.replacement.runId c.replacement } := by
  obtain ⟨store', hrun⟩ := h
  rw [hrun, after_ok]
  rw [(StoreCall.run_of_commit _ hc).1, InMemoryDurableStore.compareAndSwapInner_eq_ok] at hrun
  obtain ⟨current, now, hcurrent, hrevision, hclock, hfence, hlog, -, hstore⟩ := hrun
  exact ⟨current, now, hcurrent, hrevision, hclock, hfence, hlog, hstore⟩

variable {now : Nat}

omit [Digest] in
/-- What a successful commit has checked of the approvals. -/
theorem StoreSystem.Succeeds.approvals {current : RunState}
    (h : σ.Succeeds e) (hc : e.call.commit = some c)
    (hcurrent : σ.store.runs[c.replacement.runId]? = some current) (hclock : e.clock = .ok now) :
    validateAppendOnly current c.replacement = .ok () ∧
      validateApprovals current c.replacement c.approvalId now = .ok () := by
  obtain ⟨store', hrun⟩ := h
  rw [(StoreCall.run_of_commit _ hc).1, InMemoryDurableStore.compareAndSwapInner_eq_ok] at hrun
  obtain ⟨current', now', hcurrent', -, hclock', -, hlog, happrovals, -⟩ := hrun
  rw [hcurrent] at hcurrent'
  cases hcurrent'
  rw [hclock] at hclock'
  cases hclock'
  exact ⟨hlog, happrovals⟩

variable {runId : String}

/-- What a stored run becomes in a call: itself, or the replacement of a commit that passed the
validators. -/
theorem Serves.replaced {s' : RunState} (h : Serves σ e σ')
    (hs : σ.store.runs[runId]? = some s) (hs' : σ'.store.runs[runId]? = some s') :
    s' = s ∨ ∃ c now, e.call.commit = some c ∧ c.replacement = s' ∧ s'.runId = runId ∧
      e.clock = .ok now ∧ σ'.now = now ∧
        validateWorkerLeaseFence s s' c.authority now = .ok () ∧ validateAppendOnly s s' = .ok () ∧
          validateApprovals s s' c.approvalId now = .ok () := by
  cases hrun : (e.call.run e.clock).run σ.store with
  | error error store' =>
    left
    rw [h.result, hrun, after_error, e.call.failsClean e.clock σ.store error store' hrun, hs] at hs'
    exact (Option.some.inj hs').symm
  | ok u store' =>
    rw [h.result, hrun, after_ok] at hs'
    cases hcommit : e.call.commit with
    | some c =>
      rw [(StoreCall.run_of_commit _ hcommit).1, InMemoryDurableStore.compareAndSwapInner_eq_ok] at hrun
      obtain ⟨current, now, hcurrent, -, hclock, hfence, hlog, happrovals, rfl⟩ := hrun
      rcases BTreeMap.get_insert_eq_some hs' with ⟨hid, rfl⟩ | ⟨-, hold⟩
      · rw [hid, hs] at hcurrent
        cases hcurrent
        exact .inr ⟨c, now, rfl, rfl, hid, hclock, (h.clock now hclock).2, hfence, hlog, happrovals⟩
      · rw [hs] at hold
        exact .inl (Option.some.inj hold).symm
    | none =>
      left
      cases hcall : e.call with
      | create state =>
        rw [hcall] at hrun
        obtain ⟨hfree, rfl⟩ := InMemoryDurableStore.create_eq_ok.mp hrun
        rcases BTreeMap.get_insert_eq_some hs' with ⟨rfl, -⟩ | ⟨-, hold⟩
        · rw [hfree] at hs
          cases hs
        · rw [hs] at hold
          exact (Option.some.inj hold).symm
      | load id =>
        rw [hcall] at hrun
        obtain ⟨_, store, hload, hdone⟩ := Method.run_bind_eq_ok.mp hrun
        cases hdone
        obtain ⟨-, rfl⟩ := InMemoryDurableStore.load_eq_ok.mp hload
        rw [hs] at hs'
        exact (Option.some.inj hs').symm
      | _ => rw [hcall] at hcommit; cases hcommit

/-- A client has loaded the run from the store, at some moment. -/
def Loaded (runId : String) (loaded : RunState) : Prop :=
  ∃ history σ, Path Serves .start history σ ∧
    (InMemoryDurableStore.load runId).run σ.store = .ok loaded σ.store

theorem Loaded.reachable {loaded : RunState} (h : Loaded runId loaded) :
    Reachable loaded := by
  obtain ⟨history, σ, hpath, hload⟩ := h
  exact reachable_of_path hpath runId loaded (InMemoryDurableStore.load_eq_ok.mp hload).1

/-- The commit of a client that has appended to the run it had loaded. -/
structure Commit.AppendsTo (c : Commit) (loaded : RunState) : Prop where
  hasLoaded : Loaded c.replacement.runId loaded
  revision : c.expectedSequence = lastSequence loaded
  appends : loaded.events.length < c.replacement.events.length

/-- Of two commits that append to the same revision of a run, the second fails. -/
theorem not_succeeds_of_committed {e₁ e₂ : StoreEvent} {c₁ c₂ : Commit} {loaded₁ loaded₂ : RunState}
    {between : List StoreEvent} {σ₁ σ₂ : StoreSystem} (h : Path Serves .start history σ)
    (hc₁ : e₁.call.commit = some c₁) (hc₂ : e₂.call.commit = some c₂)
    (hrun : c₁.replacement.runId = c₂.replacement.runId) (happends₁ : c₁.AppendsTo loaded₁)
    (happends₂ : c₂.AppendsTo loaded₂) (hrevision : lastSequence loaded₁ = lastSequence loaded₂)
    (hserves : Serves σ e₁ σ₁) (hfirst : σ.Succeeds e₁) (hbetween : Path Serves σ₁ between σ₂) :
    ¬ σ₂.Succeeds e₂ := by
  intro hsecond
  obtain ⟨_, _, -, -, -, -, -, hstored⟩ := hfirst.commit hc₁
  have hnew : σ₁.store.runs[c₁.replacement.runId]? = some c₁.replacement := by
    rw [hserves.result, hstored]
    exact BTreeMap.get_insert_self
  obtain ⟨s, hs, hlog⟩ := extendsLogs_of_path hbetween _ _ hnew
  obtain ⟨current, _, hcurrent, hexpected, -⟩ := hsecond.commit hc₂
  rw [← hrun, hs] at hcurrent
  cases hcurrent
  have hpath := (h.append (.single hserves)).append hbetween
  -- the log has grown past the revision that both had loaded
  have hlast := lastSequence_eq (reachable_of_path hpath _ _ hs)
  have hloaded := lastSequence_eq happends₁.hasLoaded.reachable
  have hlonger := hlog.length_le
  have happended := happends₁.appends
  rw [happends₂.revision, ← hrevision] at hexpected
  omega

/-- **What any interleaving of clients keeps.** From every state that calls lead to: a log is
only ever extended; of two commits that append to the same revision at most one succeeds;
while the stored lease lasts, a commit needs its holder's authority; once it has expired,
only an unfenced commit of one lease claim succeeds; and a failed call changes nothing. -/
theorem interleaving_safe (h : Path Serves .start history σ) :
    (∀ more σ', Path Serves σ more σ' → σ.store.ExtendsLogs σ'.store) ∧
    (∀ e₁ e₂ c₁ c₂ loaded₁ loaded₂ between σ₁ σ₂, e₁.call.commit = some c₁ →
      e₂.call.commit = some c₂ → c₁.replacement.runId = c₂.replacement.runId →
      c₁.AppendsTo loaded₁ → c₂.AppendsTo loaded₂ → lastSequence loaded₁ = lastSequence loaded₂ →
      Serves σ e₁ σ₁ → σ.Succeeds e₁ → Path Serves σ₁ between σ₂ → ¬ σ₂.Succeeds e₂) ∧
    (∀ e c s lease now, e.call.commit = some c → σ.store.runs[c.replacement.runId]? = some s →
      s.projection.workerLease = some lease → e.clock = .ok now → now < lease.expiresAtUnixMs →
      σ.Succeeds e → ∃ holder, c.authority = some holder ∧ holder.ownerId = lease.ownerId ∧
        holder.leaseId = lease.leaseId) ∧
    (∀ more σ₁ σ₂ e c s lease, Path Serves σ more σ₁ → Serves σ₁ e σ₂ → e.call.commit = some c →
      σ.store.runs[c.replacement.runId]? = some s →
      σ₁.store.runs[c.replacement.runId]? = some s → s.projection.workerLease = some lease →
      (lease.expiresAtUnixMs ≤ σ.now ∨ ∃ now, e.clock = .ok now ∧ lease.expiresAtUnixMs ≤ now) →
      σ₁.Succeeds e → c.authority = none ∧ ∃ claim, claim.kind.isLeaseClaim = true ∧
        c.replacement.events = s.events ++ [claim]) ∧
    (∀ e σ', Serves σ e σ' → ¬ σ.Succeeds e → σ'.store = σ.store) := by
  refine ⟨fun more σ' => extendsLogs_of_path, ?_, ?_, ?_, ?_⟩
  · intro e₁ e₂ c₁ c₂ loaded₁ loaded₂ between σ₁ σ₂
    exact not_succeeds_of_committed h
  · intro e c s lease now hc hs hlease hclock hlive hsucceeds
    obtain ⟨current, now', hcurrent, -, hclock', hfence, -⟩ := hsucceeds.commit hc
    rw [hs] at hcurrent
    cases hcurrent
    rw [hclock] at hclock'
    cases hclock'
    exact authority_of_live hlease hlive hfence
  · intro more σ₁ σ₂ e c s lease hmore hserves hc _ hs hlease hexpired hsucceeds
    obtain ⟨current, now, hcurrent, -, hclock, hfence, hlog, -⟩ := hsucceeds.commit hc
    rw [hs] at hcurrent
    cases hcurrent
    have hnow : lease.expiresAtUnixMs ≤ now := by
      rcases hexpired with hearlier | ⟨now', hclock', hle⟩
      · exact Nat.le_trans hearlier (Nat.le_trans (now_le_of_path hmore) (hserves.clock now hclock).1)
      · rw [hclock] at hclock'
        cases hclock'
        exact hle
    obtain ⟨hunfenced, hclaim⟩ := claim_of_expired hlease hnow hfence
    obtain ⟨claim, hget, hlength, hkind⟩ := event_of_isAtomicLeaseClaim hclaim
    obtain ⟨rest, hrest⟩ := prefix_of_validateAppendOnly hlog
    refine ⟨hunfenced, claim, hkind, ?_⟩
    rw [← hrest, List.length_append] at hlength
    rw [← hrest, List.getElem?_append_right (Nat.le_refl _), Nat.sub_self] at hget
    obtain ⟨first, rfl⟩ := List.length_eq_one_iff.mp (by omega : rest.length = 1)
    cases hget
    exact hrest.symm
  · intro e σ' hserves hfails
    rw [hserves.result]
    cases hrun : (e.call.run e.clock).run σ.store with
    | ok u store' => exact absurd ⟨store', hrun⟩ hfails
    | error error store' =>
      rw [after_error]
      exact e.call.failsClean e.clock σ.store error store' hrun

/-! ### Two clients -/

/-- The store after a call that reads the clock at `now`. -/
def StoreSystem.afterCall (σ : StoreSystem) (call : StoreCall) (now : Nat) : StoreSystem :=
  ⟨after ((call.run (.ok now)).run σ.store), now⟩

theorem serves_afterCall {call : StoreCall} (hnow : σ.now ≤ now)
    (hbrings : ∀ state, call.brings = some state → Reachable state) :
    Serves σ ⟨call, .ok now⟩ (σ.afterCall call now) where
  brings := hbrings
  clock := fun _ h => by cases h; exact ⟨hnow, rfl⟩
  broken := fun _ h => by cases h
  result := rfl

/-- The store once the run is created, and once it is claimed. -/
def createdStore (created : RunState) : StoreSystem := StoreSystem.start.afterCall (.create created) 0

/-- The store once the claim is committed. -/
def claimedStore (created claimed : RunState) : StoreSystem :=
  (createdStore created).afterCall (.compareAndSwap 1 claimed) 0

variable {created : RunState}

/-- The run is created by itself. -/
theorem path_createdStore (h : Reachable created) :
    Path Serves .start [⟨.create created, .ok 0⟩] (createdStore created) :=
  .single (serves_afterCall (Nat.le_refl _) fun state hstate => by cases hstate; exact h)

theorem serves_claimedStore {claimed : RunState} (h : Reachable claimed) :
    Serves (createdStore created) ⟨.compareAndSwap 1 claimed, .ok 0⟩ (claimedStore created claimed) :=
  serves_afterCall (Nat.le_refl _) fun state hstate => by cases hstate; exact h

/-- A worker claims a run, and replaces its state. -/
def writerLog (state : String) : List RunEvent :=
  logOf "r" [("1", .runStarted "s" .sync "b"), ("2", .workerLeaseClaimed "w" "l" 0 3600000),
    (state, .stateReplaced (.string state))]

/-- The worker's commit of what it has appended to the claimed run. -/
def writes (replacement : RunState) : StoreEvent := ⟨.compareAndSwapFenced 2 replacement ⟨"w", "l"⟩, .ok 1⟩

omit [Digest] in
/-- Two clients have loaded the claimed run, and the commit of the first succeeds. -/
theorem races :
    ∃ created, @fromEvents sha256 ((writerLog "x").take 1) = .ok created ∧
      ∃ claimed, @fromEvents sha256 ((writerLog "x").take 2) = .ok claimed ∧
      ∃ first, @fromEvents sha256 (writerLog "x") = .ok first ∧
      ∃ second, @fromEvents sha256 (writerLog "y") = .ok second ∧
      (first.runId = "r" ∧ second.runId = "r" ∧ first.events.length = 3 ∧ second.events.length = 3) ∧
      (∃ loaded, (claimedStore created claimed).store.runs["r"]? = some loaded ∧ loaded.events.length = 2 ∧
        lastSequence loaded = 2 ∧ ∃ lease, loaded.projection.workerLease = some lease ∧ 1 < lease.expiresAtUnixMs) ∧
      ∃ u store, ((writes first).call.run (.ok 1)).run (claimedStore created claimed).store =
        .ok u store ∧ True := by
  decide +kernel

omit [Digest] in
/-- The commit of the second fails, and so does one without the lease. -/
theorem interleaving_safe_race :
    ∃ (history : List StoreEvent) (σ σ₁ : StoreSystem) (first second : RunState),
      @Path _ _ (@Serves sha256) .start history σ ∧ @Serves sha256 σ (writes first) σ₁ ∧
      σ.Succeeds (writes first) ∧ ¬ σ₁.Succeeds (writes second) ∧
      ¬ σ.Succeeds ⟨.compareAndSwap 2 second, .ok 1⟩ ∧ σ.store.ExtendsLogs σ₁.store := by
  let inst : Digest := sha256
  obtain ⟨created, hcreated, claimed, hclaimed, first, hfirst, second, hsecond, ⟨hid₁, hid₂, hlong₁, hlong₂⟩,
    ⟨loaded, hloaded, hevents, hrevision, lease, hlease, hlive⟩, _, store₁, hsucceeds, -⟩ := races
  have hsucceeds : (claimedStore created claimed).Succeeds (writes first) := ⟨store₁, hsucceeds⟩
  have hpath := (path_createdStore (.fromEvents hcreated)).append
    (.single (serves_claimedStore (.fromEvents hclaimed)))
  have hserves : Serves (claimedStore created claimed) (writes first) _ :=
    serves_afterCall (Nat.zero_le _) fun state hstate => by cases hstate; exact .fromEvents hfirst
  have hload : Loaded "r" loaded := ⟨_, _, hpath, InMemoryDurableStore.load_eq_ok.mpr ⟨hloaded, rfl⟩⟩
  obtain ⟨hextends, hloses, hfenced, -⟩ := interleaving_safe hpath
  refine ⟨_, _, _, first, second, hpath, hserves, hsucceeds, ?_, fun hunfenced => ?_, hextends _ _ (.single hserves)⟩
  · refine hloses (writes first) (writes second) _ _ loaded loaded [] _ _ rfl rfl (hid₁.trans hid₂.symm)
      ⟨hid₁ ▸ hload, hrevision.symm, ?_⟩ ⟨hid₂ ▸ hload, hrevision.symm, ?_⟩ rfl hserves hsucceeds (.nil _)
    · show loaded.events.length < first.events.length
      omega
    · show loaded.events.length < second.events.length
      omega
  · obtain ⟨holder, hnone, -⟩ := hfenced _ _ loaded lease 1 rfl (hid₂ ▸ hloaded) hlease rfl hlive hunfenced
    cases hnone

end

end AikitRuntime.Durability
