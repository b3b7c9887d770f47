import AikitRuntime.Library.Interference
import AikitRuntime.Mcp.Ingress

/-!
# Persisting a snapshot

A snapshot of the mapper is written by a compare-and-swap on the head of a snapshot store that other servers write
too. The answer of a write may be lost, so after an unknown outcome the head is looked up, and the write is tried once
more where the head is still the expected one.

The store is modelled by what its contract lets it answer: every call takes effect at one moment, or not at all, and
the revision of the head grows with every write. `persist_spec` says that the probe classifies every outcome rightly,
whatever the others write in between.
-/

namespace AikitRuntime.A2a

open Library Mcp

/-! ### The store -/

/-- `A2aSnapshotVersion`. -/
structure A2aSnapshotVersion where
  revision : Nat
  digest : String
  deriving DecidableEq

/-- `A2aSerializedMapperSnapshot`. -/
structure A2aSerializedMapperSnapshot where
  revision : Nat
  digest : String
  mutationId : String
  bytes : List UInt8
  deriving DecidableEq

/-- `A2aSerializedMapperSnapshot::version`. -/
def A2aSerializedMapperSnapshot.version (snapshot : A2aSerializedMapperSnapshot) : A2aSnapshotVersion :=
  ⟨snapshot.revision, snapshot.digest⟩

/-- `A2aSnapshotCommitOutcome`. -/
inductive A2aSnapshotCommitOutcome where
  | applied | alreadyApplied
  deriving DecidableEq

/-- `A2aSnapshotStoreError`. -/
inductive A2aSnapshotStoreError where
  | definiteNotApplied (error : ProtocolError)
  | outcomeUnknown (error : ProtocolError)
  deriving DecidableEq

/-- What `A2aMapperSnapshotStore` is asked. -/
inductive SnapshotOp where
  | compareAndSwapSnapshot (expected : Option A2aSnapshotVersion) (candidate : A2aSerializedMapperSnapshot)
  | lookupSnapshotVersion

/-- What it answers. -/
abbrev SnapshotOp.Answer : SnapshotOp → Type
  | .compareAndSwapSnapshot _ _ => Except A2aSnapshotStoreError A2aSnapshotCommitOutcome
  | .lookupSnapshotVersion => ProtocolResult (Option A2aSnapshotVersion)

/-- A program that calls the store. -/
abbrev SnapshotProg (α : Type) : Type := Prog SnapshotOp SnapshotOp.Answer α

/-- `compare_and_swap_snapshot`. -/
def compareAndSwap (expected : Option A2aSnapshotVersion) (candidate : A2aSerializedMapperSnapshot) :
    SnapshotProg (Except A2aSnapshotStoreError A2aSnapshotCommitOutcome) :=
  Prog.perform (SnapshotOp.compareAndSwapSnapshot expected candidate)

/-- `lookup_snapshot_version`. -/
def lookupSnapshotVersion : SnapshotProg (ProtocolResult (Option A2aSnapshotVersion)) :=
  Prog.perform SnapshotOp.lookupSnapshotVersion

/-! ### The probe -/

/-- `classify_definite_snapshot_failure`. -/
def classifyDefiniteSnapshotFailure (expected : Option A2aSnapshotVersion) (error : ProtocolError) :
    SnapshotProg (Except A2aSnapshotStoreError Unit) := do
  match ← lookupSnapshotVersion with
  | .error failure => pure (.error (.outcomeUnknown failure))
  | .ok observed =>
    if observed = expected then pure (.error (.definiteNotApplied error))
    else
      pure (.error (.outcomeUnknown
        (.conflict "A2A snapshot store reported no apply but the durable head diverged")))

/-- `persist_snapshot_with_exact_probe`. -/
def persistSnapshotWithExactProbe (expected : Option A2aSnapshotVersion) (candidate : A2aSerializedMapperSnapshot) :
    SnapshotProg (Except A2aSnapshotStoreError Unit) := do
  match ← compareAndSwap expected candidate with
  | .ok _ => pure (.ok ())
  | .error (.definiteNotApplied error) => classifyDefiniteSnapshotFailure expected error
  | .error (.outcomeUnknown firstError) =>
    match ← lookupSnapshotVersion with
    | .error failure => pure (.error (.outcomeUnknown failure))
    | .ok observed =>
      if observed = some candidate.version then pure (.ok ())
      else if observed ≠ expected then
        pure (.error (.outcomeUnknown
          (.conflict "A2A snapshot outcome is ambiguous and the durable version diverged")))
      else
        match ← compareAndSwap expected candidate with
        | .ok _ => pure (.ok ())
        | .error (.definiteNotApplied error) => classifyDefiniteSnapshotFailure expected error
        | .error (.outcomeUnknown secondError) =>
          match ← lookupSnapshotVersion with
          | .error failure => pure (.error (.outcomeUnknown failure))
          | .ok observed =>
            if observed = some candidate.version then pure (.ok ())
            else if observed = expected then pure (.error (.definiteNotApplied secondError))
            else pure (.error (.outcomeUnknown firstError))

/-! ### What a store may do -/

/-- The durable head of a store, the heads it had since the call began, and for each write of the call whether it took
effect. -/
structure SnapshotRun where
  head : Option A2aSerializedMapperSnapshot
  seen : List (Option A2aSerializedMapperSnapshot)
  effects : List Bool
  deriving DecidableEq

namespace SnapshotRun

/-- The call begins. -/
def start (head : Option A2aSerializedMapperSnapshot) : SnapshotRun := ⟨head, [head], []⟩

/-- The version of the head. -/
def version (run : SnapshotRun) : Option A2aSnapshotVersion := run.head.map (·.version)

/-- The revision is above that of the head. -/
def Grows (run : SnapshotRun) (revision : Nat) : Prop :=
  ∀ current, run.head = some current → current.revision < revision

/-- A new head. -/
def advance (run : SnapshotRun) (snapshot : A2aSerializedMapperSnapshot) : SnapshotRun :=
  { run with head := some snapshot, seen := run.seen ++ [some snapshot] }

/-- A write of the call took effect, or it did not. -/
def record (run : SnapshotRun) (effect : Bool) : SnapshotRun := { run with effects := run.effects ++ [effect] }

end SnapshotRun

/-- What a linearizable store may answer. A write takes effect only where the head is the expected one and the revision
grows. The answer of any write may be lost. -/
inductive SnapshotServes : SnapshotRun → (op : SnapshotOp) → op.Answer → SnapshotRun → Prop where
  /-- A write takes effect. -/
  | applied {run : SnapshotRun} {expected : Option A2aSnapshotVersion} {candidate : A2aSerializedMapperSnapshot}
    {answer : Except A2aSnapshotStoreError A2aSnapshotCommitOutcome} (matched : run.version = expected)
    (grows : run.Grows candidate.revision)
    (answers : answer = .ok .applied ∨ ∃ error, answer = .error (.outcomeUnknown error)) :
    SnapshotServes run (.compareAndSwapSnapshot expected candidate) answer ((run.advance candidate).record true)
  /-- It does not, and the answer says so, or that the head is the candidate. -/
  | unapplied {run : SnapshotRun} {expected : Option A2aSnapshotVersion} {candidate : A2aSerializedMapperSnapshot}
    {answer : Except A2aSnapshotStoreError A2aSnapshotCommitOutcome}
    (answers : (answer = .ok .alreadyApplied ∧ run.version = some candidate.version) ∨ ∃ error, answer = .error error) :
    SnapshotServes run (.compareAndSwapSnapshot expected candidate) answer (run.record false)
  /-- The version of the head is read. -/
  | lookup {run : SnapshotRun} {answer : ProtocolResult (Option A2aSnapshotVersion)}
    (answers : answer = .ok run.version ∨ ∃ error, answer = .error error) :
    SnapshotServes run .lookupSnapshotVersion answer run

/-- Another client writes. -/
inductive SnapshotDisturbs : SnapshotRun → SnapshotRun → Prop where
  | write {run : SnapshotRun} {snapshot : A2aSerializedMapperSnapshot} (grows : run.Grows snapshot.revision) :
    SnapshotDisturbs run (run.advance snapshot)

/-! ### The ephemeral store -/

/-- `InMemoryA2aMapperSnapshotStore::compare_and_swap_snapshot`. -/
def compareAndSwapSnapshot (stored : Option A2aSerializedMapperSnapshot) (expected : Option A2aSnapshotVersion)
    (candidate : A2aSerializedMapperSnapshot) :
    Except A2aSnapshotStoreError A2aSnapshotCommitOutcome × Option A2aSerializedMapperSnapshot :=
  match stored with
  | some current =>
    if current.revision = candidate.revision then
      if current.digest = candidate.digest then (.ok .alreadyApplied, stored)
      else
        (.error (.definiteNotApplied
          (.conflict "A2A snapshot revision already exists with a different digest")), stored)
    else if expected ≠ some current.version ∨ candidate.revision ≤ current.revision then
      (.error (.definiteNotApplied (.conflict "A2A snapshot compare-and-swap revision conflict")), stored)
    else (.ok .applied, some candidate)
  | none =>
    if expected.isSome then
      (.error (.definiteNotApplied
        (.conflict "A2A snapshot compare-and-swap expected a missing revision")), stored)
    else (.ok .applied, some candidate)

/-- `InMemoryA2aMapperSnapshotStore`: what it answers, and what it holds then. -/
def inMemorySnapshotStore (stored : Option A2aSerializedMapperSnapshot) :
    (op : SnapshotOp) → op.Answer × Option A2aSerializedMapperSnapshot
  | .compareAndSwapSnapshot expected candidate => compareAndSwapSnapshot stored expected candidate
  | .lookupSnapshotVersion => (.ok (stored.map (·.version)), stored)

/-- The ephemeral store writes as the contract says. -/
theorem compareAndSwapSnapshot_serves (run : SnapshotRun) (expected : Option A2aSnapshotVersion)
    (candidate : A2aSerializedMapperSnapshot) :
    ∃ run', SnapshotServes run (.compareAndSwapSnapshot expected candidate)
        (compareAndSwapSnapshot run.head expected candidate).1 run' ∧
      run'.head = (compareAndSwapSnapshot run.head expected candidate).2 := by
  unfold compareAndSwapSnapshot
  cases hhead : run.head with
  | some current =>
    have hversion : run.version = some current.version := by
      unfold SnapshotRun.version
      rw [hhead]
      rfl
    dsimp only
    by_cases hrevision : current.revision = candidate.revision
    · rw [if_pos hrevision]
      by_cases hdigest : current.digest = candidate.digest
      · rw [if_pos hdigest]
        refine ⟨_, .unapplied (.inl ⟨rfl, ?_⟩), hhead⟩
        rw [hversion]
        unfold A2aSerializedMapperSnapshot.version
        rw [hrevision, hdigest]
      · rw [if_neg hdigest]
        exact ⟨_, .unapplied (.inr ⟨_, rfl⟩), hhead⟩
    · rw [if_neg hrevision]
      by_cases hconflict : expected ≠ some current.version ∨ candidate.revision ≤ current.revision
      · rw [if_pos hconflict]
        exact ⟨_, .unapplied (.inr ⟨_, rfl⟩), hhead⟩
      · rw [if_neg hconflict]
        obtain ⟨hexpected, hnewer⟩ := not_or.mp hconflict
        refine ⟨_, .applied ?_ ?_ (.inl rfl), rfl⟩
        · rw [hversion, Decidable.not_not.mp hexpected]
        · intro stored hstored
          rw [hhead] at hstored
          cases hstored
          exact Nat.lt_of_not_le hnewer
  | none =>
    dsimp only
    cases expected with
    | some version =>
      rw [if_pos (by rfl)]
      exact ⟨_, .unapplied (.inr ⟨_, rfl⟩), hhead⟩
    | none =>
      rw [if_neg (by decide)]
      refine ⟨_, .applied ?_ ?_ (.inl rfl), rfl⟩
      · unfold SnapshotRun.version
        rw [hhead]
        rfl
      · intro stored hstored
        rw [hhead] at hstored
        cases hstored

/-- **The ephemeral store does what the contract says**, whatever it is asked. -/
theorem inMemorySnapshotStore_serves (run : SnapshotRun) (op : SnapshotOp) :
    ∃ run', SnapshotServes run op (inMemorySnapshotStore run.head op).1 run' ∧
      run'.head = (inMemorySnapshotStore run.head op).2 := by
  cases op with
  | compareAndSwapSnapshot expected candidate => exact compareAndSwapSnapshot_serves run expected candidate
  | lookupSnapshotVersion => exact ⟨run, .lookup (.inl rfl), rfl⟩

/-! ### What is known between two calls -/

/-- The candidate was the head. -/
def Shown (candidate : A2aSerializedMapperSnapshot) (run : SnapshotRun) : Prop :=
  ∃ snapshot, some snapshot ∈ run.seen ∧ snapshot.version = candidate.version

/-- The head is beyond the expected one. -/
def Later (expected : Option A2aSnapshotVersion) (run : SnapshotRun) : Prop :=
  ∃ current, run.head = some current ∧ ∀ version, expected = some version → version.revision < current.revision

/-- After writes with these effects. -/
structure Wrote (expected : Option A2aSnapshotVersion) (candidate : A2aSerializedMapperSnapshot) (effects : List Bool)
    (run : SnapshotRun) : Prop where
  sees : run.head ∈ run.seen
  recorded : run.effects = effects
  later : true ∈ effects → Later expected run
  shown : true ∈ effects → Shown candidate run

variable {expected : Option A2aSnapshotVersion} {candidate : A2aSerializedMapperSnapshot} {effects : List Bool}
  {run run' : SnapshotRun}

theorem Later.version_ne (h : Later expected run) : run.version ≠ expected := by
  intro heq
  obtain ⟨current, hhead, hlater⟩ := h
  unfold SnapshotRun.version at heq
  rw [hhead] at heq
  exact Nat.lt_irrefl _ (hlater _ heq.symm)

theorem Later.advance (h : Later expected run) {snapshot : A2aSerializedMapperSnapshot}
    (hgrows : run.Grows snapshot.revision) : Later expected (run.advance snapshot) := by
  obtain ⟨current, hhead, hlater⟩ := h
  exact ⟨snapshot, rfl, fun version hversion => Nat.lt_trans (hlater version hversion) (hgrows current hhead)⟩

theorem Shown.advance (h : Shown candidate run) (snapshot : A2aSerializedMapperSnapshot) :
    Shown candidate (run.advance snapshot) := by
  obtain ⟨earlier, hmem, hversion⟩ := h
  exact ⟨earlier, List.mem_append_left _ hmem, hversion⟩

/-- What the others write does not undo what was shown. -/
theorem shown_stable (candidate : A2aSerializedMapperSnapshot) : Stable SnapshotDisturbs (Shown candidate) := by
  intro run run' h hwrite
  cases hwrite with
  | write hgrows => exact h.advance _

/-- What the others write keeps the head from coming back. -/
theorem wrote_stable (expected : Option A2aSnapshotVersion) (candidate : A2aSerializedMapperSnapshot)
    (effects : List Bool) : Stable SnapshotDisturbs (Wrote expected candidate effects) := by
  intro run run' h hwrite
  cases hwrite with
  | write hgrows =>
    exact {
      sees := List.mem_append_right _ (List.mem_singleton_self _)
      recorded := h.recorded
      later := fun htook => (h.later htook).advance hgrows
      shown := fun htook => (h.shown htook).advance _ }

theorem wrote_start (expected : Option A2aSnapshotVersion) (candidate head) :
    Wrote expected candidate [] (.start head) where
  sees := List.mem_singleton_self _
  recorded := rfl
  later := nofun
  shown := nofun

/-- **A write.** -/
theorem Wrote.swap {answer : Except A2aSnapshotStoreError A2aSnapshotCommitOutcome}
    (h : Wrote expected candidate effects run)
    (hserves : SnapshotServes run (.compareAndSwapSnapshot expected candidate) answer run') :
    ∃ took, Wrote expected candidate (effects ++ [took]) run' ∧ (∀ outcome, answer = .ok outcome → Shown candidate run') ∧
      ∀ error, answer = .error (.definiteNotApplied error) → took = false := by
  cases hserves with
  | applied hmatched hgrows hanswers =>
    have hshown : Shown candidate ((run.advance candidate).record true) :=
      ⟨candidate, List.mem_append_right _ (List.mem_singleton_self _), rfl⟩
    refine ⟨true, ?_, fun _ _ => hshown, ?_⟩
    · refine ⟨List.mem_append_right _ (List.mem_singleton_self _), congrArg (· ++ [true]) h.recorded, fun _ => ?_,
        fun _ => hshown⟩
      refine ⟨candidate, rfl, fun version hversion => ?_⟩
      unfold SnapshotRun.version at hmatched
      rw [hversion] at hmatched
      obtain ⟨current, hhead, hcurrent⟩ := Option.map_eq_some_iff.mp hmatched
      rw [← hcurrent]
      exact hgrows current hhead
    · rintro error rfl
      obtain hok | ⟨_, hunknown⟩ := hanswers
      · cases hok
      · cases hunknown
  | unapplied hanswers =>
    refine ⟨false, ?_, ?_, fun _ _ => rfl⟩
    · have hold : true ∈ effects ++ [false] → true ∈ effects := by
        intro hmem
        simpa using hmem
      exact {
        sees := h.sees
        recorded := congrArg (· ++ [false]) h.recorded
        later := fun htook => h.later (hold htook)
        shown := fun htook => h.shown (hold htook) }
    · rintro outcome rfl
      obtain ⟨-, hversion⟩ | ⟨_, herror⟩ := hanswers
      · obtain ⟨current, hhead, hcurrent⟩ := Option.map_eq_some_iff.mp hversion
        refine ⟨current, ?_, hcurrent⟩
        rw [← hhead]
        exact h.sees
      · cases herror

/-- **A lookup.** -/
theorem Wrote.lookup {answer : ProtocolResult (Option A2aSnapshotVersion)} (h : Wrote expected candidate effects run)
    (hserves : SnapshotServes run .lookupSnapshotVersion answer run') :
    Wrote expected candidate effects run' ∧ (answer = .ok (some candidate.version) → Shown candidate run') ∧
      (answer = .ok expected → true ∉ effects) := by
  cases hserves with
  | lookup hanswers =>
    obtain rfl | ⟨error, rfl⟩ := hanswers
    · refine ⟨h, fun hversion => ?_, fun hversion htook => ?_⟩
      · obtain ⟨current, hhead, hcurrent⟩ := Option.map_eq_some_iff.mp (Except.ok.inj hversion)
        refine ⟨current, ?_, hcurrent⟩
        rw [← hhead]
        exact h.sees
      · exact (h.later htook).version_ne (Except.ok.inj hversion)
    · exact ⟨h, nofun, nofun⟩

/-! ### What the probe assures -/

/-- Only the last write may have taken effect. -/
def Cautious (run : SnapshotRun) : Prop := true ∉ run.effects.dropLast

/-- What a result says. -/
structure Classified (candidate : A2aSerializedMapperSnapshot) (result : Except A2aSnapshotStoreError Unit)
    (run : SnapshotRun) : Prop where
  ok : result = .ok () → Shown candidate run
  definite : ∀ error, result = .error (.definiteNotApplied error) → true ∉ run.effects

/-- The program is cautious, and classifies rightly. -/
abbrev Persists (candidate : A2aSerializedMapperSnapshot) :
    SnapshotProg (Except A2aSnapshotStoreError Unit) → SnapshotRun → Prop :=
  Beside.Assures SnapshotServes SnapshotDisturbs Cautious (Classified candidate)

theorem persists_ok (h : Wrote expected candidate effects run) (hcautious : true ∉ effects.dropLast)
    (hshown : Shown candidate run) : Persists candidate (pure (.ok ())) run := by
  refine Beside.Assures.ret ((wrote_stable expected candidate effects).and (shown_stable candidate)) ⟨h, hshown⟩ ?_
  rintro after ⟨hwrote, hafter⟩
  refine ⟨?_, fun _ => hafter, nofun⟩
  unfold Cautious
  rw [hwrote.recorded]
  exact hcautious

theorem persists_definite (h : Wrote expected candidate effects run) (hnone : true ∉ effects) (error : ProtocolError) :
    Persists candidate (pure (.error (.definiteNotApplied error))) run := by
  refine Beside.Assures.ret (wrote_stable expected candidate effects) h fun after hwrote => ?_
  refine ⟨?_, nofun, fun _ _ => ?_⟩
  · unfold Cautious
    rw [hwrote.recorded]
    exact fun hmem => hnone (List.dropLast_subset _ hmem)
  · rw [hwrote.recorded]
    exact hnone

theorem persists_unknown (h : Wrote expected candidate effects run) (hcautious : true ∉ effects.dropLast)
    (error : ProtocolError) : Persists candidate (pure (.error (.outcomeUnknown error))) run := by
  refine Beside.Assures.ret (wrote_stable expected candidate effects) h fun after hwrote => ?_
  refine ⟨?_, nofun, nofun⟩
  unfold Cautious
  rw [hwrote.recorded]
  exact hcautious

/-- A lookup, and what is made of its answer. -/
theorem persists_lookup {f : ProtocolResult (Option A2aSnapshotVersion) → SnapshotProg (Except A2aSnapshotStoreError Unit)}
    (h : Wrote expected candidate effects run) (hcautious : true ∉ effects.dropLast)
    (hf : ∀ answer after, Wrote expected candidate effects after →
      (answer = .ok (some candidate.version) → Shown candidate after) → (answer = .ok expected → true ∉ effects) →
      Persists candidate (f answer) after) :
    Persists candidate (lookupSnapshotVersion >>= f) run := by
  refine Beside.Assures.perform_bind (wrote_stable expected candidate effects) h (fun before hbefore => ?_) ?_
  · unfold Cautious
    rw [hbefore.recorded]
    exact hcautious
  · intro before answer after hbefore hserves
    obtain ⟨hwrote, hshown, hnone⟩ := hbefore.lookup hserves
    exact hf answer after hwrote hshown hnone

/-- A write, and what is made of its answer. No write before it took effect. -/
theorem persists_swap
    {f : Except A2aSnapshotStoreError A2aSnapshotCommitOutcome → SnapshotProg (Except A2aSnapshotStoreError Unit)}
    (h : Wrote expected candidate effects run) (hnone : true ∉ effects)
    (hf : ∀ answer took after, Wrote expected candidate (effects ++ [took]) after →
      (∀ outcome, answer = .ok outcome → Shown candidate after) →
      (∀ error, answer = .error (.definiteNotApplied error) → took = false) → Persists candidate (f answer) after) :
    Persists candidate (compareAndSwap expected candidate >>= f) run := by
  refine Beside.Assures.perform_bind (wrote_stable expected candidate effects) h (fun before hbefore => ?_) ?_
  · unfold Cautious
    rw [hbefore.recorded]
    exact fun hmem => hnone (List.dropLast_subset _ hmem)
  · intro before answer after hbefore hserves
    obtain ⟨took, hwrote, hshown, hdefinite⟩ := hbefore.swap hserves
    exact hf answer took after hwrote hshown hdefinite

/-- No write took effect, and the head says whether it can still be the expected one. -/
theorem persists_classify (h : Wrote expected candidate effects run) (hnone : true ∉ effects) (error : ProtocolError) :
    Persists candidate (classifyDefiniteSnapshotFailure expected error) run := by
  have hcautious : true ∉ effects.dropLast := fun hmem => hnone (List.dropLast_subset _ hmem)
  unfold classifyDefiniteSnapshotFailure
  refine persists_lookup h hcautious fun answer after hafter _ _ => ?_
  cases answer with
  | error failure => exact persists_unknown hafter hcautious failure
  | ok observed =>
    dsimp only
    by_cases hexpected : observed = expected
    · rw [if_pos hexpected]
      exact persists_definite hafter hnone error
    · rw [if_neg hexpected]
      exact persists_unknown hafter hcautious _

theorem persists_probe (h : Wrote expected candidate [] run) :
    Persists candidate (persistSnapshotWithExactProbe expected candidate) run := by
  unfold persistSnapshotWithExactProbe
  refine persists_swap h (by decide) fun answer took after hafter hshown hdefinite => ?_
  rw [List.nil_append] at hafter
  have hcautious : true ∉ [took].dropLast := by simp
  cases answer with
  | ok outcome => exact persists_ok hafter hcautious (hshown outcome rfl)
  | error failure =>
    cases failure with
    | definiteNotApplied error =>
      rw [hdefinite error rfl] at hafter
      exact persists_classify hafter (by decide) error
    | outcomeUnknown firstError =>
      refine persists_lookup hafter hcautious fun answer after hafter hshown hnone => ?_
      cases answer with
      | error failure => exact persists_unknown hafter hcautious failure
      | ok observed =>
        dsimp only
        by_cases hcandidate : observed = some candidate.version
        · rw [if_pos hcandidate]
          exact persists_ok hafter hcautious (hshown (congrArg Except.ok hcandidate))
        rw [if_neg hcandidate]
        by_cases hexpected : observed ≠ expected
        · rw [if_pos hexpected]
          exact persists_unknown hafter hcautious _
        rw [if_neg hexpected]
        push Not at hexpected
        -- the head is still the expected one, so the first write took no effect
        have hfirst : true ∉ [took] := hnone (congrArg Except.ok hexpected)
        refine persists_swap hafter hfirst fun answer second after hafter hshown hdefinite => ?_
        have hcautious : true ∉ ([took] ++ [second]).dropLast := by
          rw [List.dropLast_concat]
          exact hfirst
        cases answer with
        | ok outcome => exact persists_ok hafter hcautious (hshown outcome rfl)
        | error failure =>
          cases failure with
          | definiteNotApplied error =>
            refine persists_classify hafter ?_ error
            rw [hdefinite error rfl]
            simpa using hfirst
          | outcomeUnknown secondError =>
            refine persists_lookup hafter hcautious fun answer after hafter hshown hnone => ?_
            cases answer with
            | error failure => exact persists_unknown hafter hcautious failure
            | ok observed =>
              dsimp only
              by_cases hcandidate : observed = some candidate.version
              · rw [if_pos hcandidate]
                exact persists_ok hafter hcautious (hshown (congrArg Except.ok hcandidate))
              rw [if_neg hcandidate]
              by_cases hexpected : observed = expected
              · rw [if_pos hexpected]
                exact persists_definite hafter (hnone (congrArg Except.ok hexpected)) secondError
              · rw [if_neg hexpected]
                exact persists_unknown hafter hcautious firstError

/-- **The probe**: in every run beside other clients, an `Ok` says that the candidate was the head, a definite failure
that no write of the call took effect, and no write follows one that took effect. -/
theorem persistSnapshotWithExactProbe_classifies (expected : Option A2aSnapshotVersion)
    (candidate : A2aSerializedMapperSnapshot) (head : Option A2aSerializedMapperSnapshot)
    {log : List (Option (Event SnapshotOp SnapshotOp.Answer))} {run : SnapshotRun}
    {rest : SnapshotProg (Except A2aSnapshotStoreError Unit)}
    (hpath : Path (Beside.Step SnapshotServes SnapshotDisturbs)
      ⟨.start head, persistSnapshotWithExactProbe expected candidate⟩ log ⟨run, rest⟩) :
    true ∉ run.effects.dropLast ∧
      (rest = .ret (.ok ()) → ∃ snapshot, some snapshot ∈ run.seen ∧ snapshot.version = candidate.version) ∧
      ∀ error, rest = .ret (.error (.definiteNotApplied error)) → true ∉ run.effects := by
  have hassures := persists_probe (wrote_start expected candidate head)
  refine ⟨Beside.Assures.always hassures hpath, ?_, ?_⟩
  · intro hret
    exact (Beside.Assures.result hassures hpath hret).ok rfl
  · intro error hret
    exact (Beside.Assures.result hassures hpath hret).definite error rfl

/-- The first write took effect, but its answer was lost, and the lookup finds it. -/
theorem persistSnapshotWithExactProbe_lost :
    ∃ snapshot : A2aSerializedMapperSnapshot, some snapshot ∈ [none, some ⟨1, "d1", "m1", []⟩] ∧
      snapshot.version = (⟨1, "d1", "m1", []⟩ : A2aSerializedMapperSnapshot).version := by
  have hwrite : SnapshotServes (.start none) (.compareAndSwapSnapshot none ⟨1, "d1", "m1", []⟩)
      (.error (.outcomeUnknown (.conflict "timeout"))) (((SnapshotRun.start none).advance ⟨1, "d1", "m1", []⟩).record true) :=
    .applied rfl nofun (.inr ⟨_, rfl⟩)
  exact (persistSnapshotWithExactProbe_classifies none ⟨1, "d1", "m1", []⟩ none
    (.cons (.perform hwrite) (.cons (.perform (.lookup (.inl rfl))) (.nil _)))).2.1 rfl

end AikitRuntime.A2a
