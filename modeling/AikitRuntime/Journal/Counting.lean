import AikitRuntime.Journal.Effects

/-!
# Counting a journal up

A journal whose records are numbered: delta `n` leads from revision `n` to the next one, and the
digest of a record is a number for its kind and place. It can be counted up as far as the revisions
go, which is also as far as the generations of the manifest go.
-/

namespace AikitRuntime.Journal

open Library Durability
open InMemoryJournalState InMemoryA2aMapperJournalStore

/-- Records without content. -/
def plainRecords : MapperRecords where
  Task := Unit
  taskId _ := "task"
  Receipt := Unit
  validateMessage _ := .ok ()
  Dispatch := Unit
  dispatchId _ := "dispatch"
  Cancellation := Unit
  cancellationId _ := "cancellation"
  PendingEvent := Unit
  eventId _ := "event"
  decTask := inferInstance
  decReceipt := inferInstance
  decDispatch := inferInstance
  decCancellation := inferInstance
  decPendingEvent := inferInstance

/-- A number for what is hashed: its kind modulo eight, and its place. -/
def code : HashMaterial plainRecords → Nat
  | .genesis => 1
  | .delta _ _ _ _ toRevision _ _ => 8 * toRevision + 1
  | .bootstrap revision _ => 8 * revision + 2
  | .checkpoint highWater _ _ => 8 * highWater.sequence + 3
  | .manifest _ generation _ active _ _ _ => 16 * generation + (if active.isSome then 12 else 4)
  | .tombstones tombstones => 8 * tombstones.size + 5

/-- The number that bytes are, most significant first. -/
def bytesValue (bytes : List UInt8) : Nat := bytes.foldl (fun n byte => 256 * n + byte.toNat) 0

/-- A host whose digests are numbers. -/
def countingHost : JournalHost plainRecords where
  stableHash material := digest (code material)
  isDigest _ := isSha256Digest_digest _
  hashBytes bytes := digest (bytesValue bytes)
  encodedLen _ := 512
  decodeMapper bytes := .ok ⟨1, bytesValue bytes⟩

/-- The token at a revision. -/
def countToken (n : Nat) : A2aJournalToken := ⟨n, n, digest (8 * n + 1)⟩

/-- The delta from a revision to the next one. -/
def countDelta (n : Nat) : A2aMapperDelta plainRecords where
  formatVersion := 1
  mutationId := digest n
  expectedToken := countToken n
  fromRevision := n
  toRevision := n + 1
  previousHash := digest (8 * n + 1)
  operations := [.setNextSequence n]
  deltaHash := digest (8 * (n + 1) + 1)

/-- The manifest at a revision. -/
def countManifest (n : Nat) : A2aJournalManifest :=
  A2aJournalManifest.refreshHash countingHost
    ⟨1, n, countToken n, none, 1, 0, compactedMutationsHash countingHost ∅, ""⟩

/-- The first deltas, one after another. -/
def appends (n : Nat) : List (JournalCalled plainRecords) :=
  (List.range n).map fun i => ⟨.appendDelta (countDelta i), .ok (.appended .applied)⟩

theorem countToken_validate (n : Nat) : (countToken n).validate = .ok () :=
  A2aJournalToken.validate_eq_ok.mpr ⟨isSha256Digest_digest _, Nat.le_refl n⟩

theorem countDelta_validate (n : Nat) : (countDelta n).validate countingHost = .ok () := by
  have hhash : validateHash "delta hash" (countDelta n).deltaHash = .ok () :=
    refuseIf_of_not (by rw [countDelta, isSha256Digest_digest]; nofun)
  have htoken : (countDelta n).expectedToken.validate = .ok () := countToken_validate n
  have hid : validateId "mutation id" (countDelta n).mutationId = .ok () := validateId_digest _ n
  have hone : ¬ ((countDelta n).operations = [] ∨
      a2aMapperDeltaMaxOperations < (countDelta n).operations.length) := by
    simp [countDelta, a2aMapperDeltaMaxOperations]
  unfold A2aMapperDelta.validate
  refine bind_eq_ok.mpr ⟨(), refuseIf_of_not (not_not.mpr rfl), ?_⟩
  refine bind_eq_ok.mpr ⟨(), hid, bind_eq_ok.mpr ⟨(), htoken, ?_⟩⟩
  refine bind_eq_ok.mpr ⟨(), refuseIf_of_not (not_not.mpr rfl), ?_⟩
  refine bind_eq_ok.mpr ⟨(), refuseIf_of_not (not_not.mpr rfl), ?_⟩
  refine bind_eq_ok.mpr ⟨(), refuseIf_of_not (Nat.not_le.mpr (Nat.lt_succ_self n)), ?_⟩
  refine bind_eq_ok.mpr ⟨(), refuseIf_of_not hone, bind_eq_ok.mpr ⟨(), rfl, ?_⟩⟩
  refine bind_eq_ok.mpr ⟨(), hhash, bind_eq_ok.mpr ⟨(), refuseIf_of_not (not_not.mpr rfl), ?_⟩⟩
  exact refuseIf_of_not (by decide : ¬ 256 * 1024 < 512)

theorem countDelta_token {n : Nat} (h : n < u64Max) :
    (countDelta n).token = .ok (countToken (n + 1)) := by
  have hnext : checkedAdd n 1 = some (n + 1) := checkedAdd_eq_some.mpr ⟨rfl, h⟩
  show (okOr (checkedAdd n 1) _ >>= fun sequence => _) = _
  rw [hnext]
  rfl

theorem lt_of_le_u64Max {n : Nat} (h : n ≤ u64Max) : n < 16 ^ 64 :=
  Nat.lt_of_le_of_lt h (by decide)

theorem applied_appends (n : Nat) : applied (appends n) = (List.range n).map countDelta := by
  unfold applied appends
  rw [List.filterMap_map]
  exact congrFun List.filterMap_eq_map _

theorem appends_succ (n : Nat) : appends (n + 1) =
    appends n ++ [⟨.appendDelta (countDelta n), .ok (.appended .applied)⟩] := by
  unfold appends
  rw [List.range_succ, List.map_append]
  rfl

/-- The state of a store that was counted up. -/
structure Counted (n : Nat) (s : InMemoryJournalState plainRecords) : Prop where
  manifest : s.manifest = countManifest n
  next : s.nextRestoreId = 1

variable {s : InMemoryJournalState plainRecords} {base : A2aJournalToken} {n : Nat}

/-- **The next delta is applied.** -/
theorem run_append_count (hjournal : Journaled countingHost s base ((List.range n).map countDelta))
    (hmanifest : s.manifest = countManifest n) (hn : n < u64Max) :
    (appendDelta countingHost (countDelta n)).run s =
      .ok .applied (s.appended countingHost (countDelta n) (countToken (n + 1))) := by
  have hlt : s.manifest.generation < u64Max := by
    rw [hmanifest]
    exact hn
  have hhead : (countDelta n).expectedToken = s.manifest.head := by
    rw [hmanifest]
    rfl
  have hfresh : ∀ e ∈ (List.range n).map countDelta, e.mutationId ≠ (countDelta n).mutationId := by
    intro e he heq
    obtain ⟨i, hi, rfl⟩ := List.mem_map.mp he
    have hi : i < n := List.mem_range.mp hi
    have hsame := digest_injective (lt_of_le_u64Max (by omega)) (lt_of_le_u64Max (by omega)) heq
    omega
  have hadmitted := hjournal.admitDelta_new hfresh hhead
  rw [countDelta_token hn] at hadmitted
  exact run_appendDelta (countDelta_validate n) hadmitted hlt

theorem manifest_append_count (hmanifest : s.manifest = countManifest n) :
    (s.appended countingHost (countDelta n) (countToken (n + 1))).manifest = countManifest (n + 1) := by
  show ({ s.manifest with head := countToken (n + 1) } : A2aJournalManifest).advanced countingHost = _
  rw [hmanifest]
  rfl

/-- **A journal can be counted up.** -/
theorem exists_count (n : Nat) (hn : n ≤ u64Max) :
    ∃ s, BoundedRun countingHost (appends n) s ∧ Counted n s := by
  induction n with
  | zero => exact ⟨_, .nil _, rfl, rfl⟩
  | succ n ih =>
    obtain ⟨s, hrun, hcounted⟩ := ih (Nat.le_of_lt hn)
    obtain ⟨base, hjournal⟩ := hrun.journaled
    rw [applied_appends] at hjournal
    have hcall : Calls countingHost s ⟨.appendDelta (countDelta n), .ok (.appended .applied)⟩
        (s.appended countingHost (countDelta n) (countToken (n + 1))) :=
      Method.run_map_eq_ok.mpr ⟨.applied, run_append_count hjournal hcounted.manifest hn, rfl⟩
    have hlt : s.manifest.generation < u64Max := by
      rw [hcounted.manifest]
      exact hn
    refine ⟨_, ?_, manifest_append_count hcounted.manifest, hcounted.next⟩
    rw [appends_succ]
    exact hrun.append (.single ⟨hcall, fun _ => hlt⟩)

end AikitRuntime.Journal
