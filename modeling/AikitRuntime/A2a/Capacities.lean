import AikitRuntime.A2a.Outboxes
import AikitRuntime.Library.Totals

/-!
# Capacities

What the mapper keeps is bounded, in numbers and in bytes, for everyone together and for each owner, and it
is told in advance how many bytes its records take. `validateCapacitySnapshot` measures a mapper anew.

`Measured` is what an outbox keeps true of its records and of its count of bytes: an insertion that
`preflightNew` lets through keeps it, and so does a replacement that `replacedBytes` lets through.
-/

namespace AikitRuntime.A2a

open Library Durability Mcp Std

/-! ### Sums that are checked -/

variable {added size : α → Nat} {n : Nat} {overflow refusal : ProtocolError} {xs : List α} {α : Type}

/-- A checked sum is the sum, and it fits. -/
theorem foldlM_checkedAdd
    {start : Nat} (hstart : start ≤ u64Max) :
    (xs.map fun x => okOr (checkedAdd (size x) (added x)) refusal).foldlM
        (fun total size => do okOr (checkedAdd total (← size)) overflow) start = .ok n ↔
      start + (xs.map fun x => size x + added x).sum = n ∧ n ≤ u64Max := by
  induction xs generalizing start with
  | nil => simp only [List.map_nil, List.foldlM_nil, List.sum_nil, Nat.add_zero, pure, Except.pure,
      Except.ok.injEq, iff_self_and]; omega
  | cons x xs ih =>
    simp only [List.map_cons, List.foldlM_cons, List.sum_cons, bind_eq_ok, okOr_eq_ok, checkedAdd_eq_some]
    constructor
    · rintro ⟨_, ⟨_, ⟨rfl, _⟩, rfl, hfits⟩, hrest⟩
      obtain ⟨hsum, hle⟩ := (ih hfits).mp hrest
      exact ⟨by omega, hle⟩
    · rintro ⟨hsum, hle⟩
      have hfits : start + (size x + added x) ≤ u64Max := by omega
      exact ⟨_, ⟨_, ⟨rfl, by omega⟩, rfl, hfits⟩, (ih hfits).mpr ⟨by omega, hle⟩⟩

theorem sumBytes_eq_ok :
    sumBytes overflow (xs.map fun x => okOr (checkedAdd (size x) (added x)) refusal) = .ok n ↔
      (xs.map fun x => size x + added x).sum = n ∧ n ≤ u64Max := by
  rw [← Nat.zero_add (xs.map _).sum]
  exact foldlM_checkedAdd (Nat.zero_le _)

variable {current maximum : Nat} {kind : String} {u : Unit}

theorem ensureCountCapacity_eq_ok :
    ensureCountCapacity current maximum kind = .ok u ↔ current < maximum := by
  simp only [ensureCountCapacity, refuseIf_eq_ok, Nat.not_le]

theorem ensureByteCapacity_eq_ok {added : Nat} :
    ensureByteCapacity current added maximum kind = .ok u ↔
      current + added ≤ maximum ∧ current + added ≤ u64Max := by
  unfold ensureByteCapacity checkedAdd
  rw [refuseIf_eq_ok]
  split
  · next hfits => simp [hfits]
  · next hfits => simp [hfits]

/-! ### An outbox, measured -/

/-- The receipts, measured as an outbox is. -/
def messageReceipts : Outbox A2aMessageReceipt where
  kind := "receipt"
  ownerKind := "receipt"
  identity := "receipt"
  owner := A2aMessageReceipt.owner
  json := A2aMessageReceipt.json
  maxCount := 50000
  maxPerOwner := 5000
  maxBytes := mib 64
  maxBytesPerOwner := mib 8

namespace Outbox

variable {R : Type} (outbox : Outbox R)

/-- The bytes of an entry. -/
def entryBytes (key : String) (record : R) : Nat := key.utf8ByteSize + serializedBytes (outbox.json record)

/-- The bytes of an entry, if it is the owner's. -/
def ownedBytes (owner : A2aContextOwner) (key : String) (record : R) : Nat :=
  if outbox.owner record = owner then outbox.entryBytes key record else 0

/-- One for an entry of the owner. -/
def owned (owner : A2aContextOwner) (_ : String) (record : R) : Nat :=
  if outbox.owner record = owner then 1 else 0

/-- What an outbox keeps true: the count of bytes is the sum over the records, and no bound is exceeded. -/
structure Measured (records : BTreeMap R) (bytes : Nat) : Prop where
  bytes_eq : bytes = total outbox.entryBytes records
  count : records.size ≤ outbox.maxCount
  bytes_le : bytes ≤ outbox.maxBytes
  owner_count : ∀ owner, total (outbox.owned owner) records ≤ outbox.maxPerOwner
  owner_bytes : ∀ owner, total (outbox.ownedBytes owner) records ≤ outbox.maxBytesPerOwner

variable {outbox} {records : BTreeMap R} {bytes added : Nat} {key : String} {record current : R}
  {owner : A2aContextOwner}

theorem measured_empty : outbox.Measured ∅ 0 :=
  ⟨total_empty.symm, by simp, Nat.zero_le _, fun _ => by simp, fun _ => by simp⟩

theorem length_owned :
    (records.values.filter fun current => outbox.owner current = owner).length =
      total (outbox.owned owner) records := by
  rw [length_filter_values]
  simp only [decide_eq_true_eq]
  rfl

theorem sum_owned :
    ((records.toList.filter fun entry => outbox.owner entry.2 = owner).map fun entry =>
      outbox.entryBytes entry.1 entry.2).sum = total (outbox.ownedBytes owner) records := by
  rw [sum_filter_toList _ outbox.entryBytes]
  simp only [decide_eq_true_eq]
  rfl

variable (outbox) in
variable {n : Nat}

theorem entryStorageBytes_eq_ok :
    outbox.entryStorageBytes key record = .ok n ↔ outbox.entryBytes key record = n ∧ n ≤ u64Max := by
  simp only [entryStorageBytes, serializedEntryStorageBytes, okOr_eq_ok, checkedAdd_eq_some, entryBytes]

theorem bytesForOwner_eq_ok :
    outbox.bytesForOwner records owner = .ok n ↔ total (outbox.ownedBytes owner) records = n ∧ n ≤ u64Max := by
  unfold bytesForOwner
  rw [← sum_owned]
  exact sumBytes_eq_ok

/-- There is room for a new record: its key is new, and no bound is exceeded with it. -/
structure Room (outbox : Outbox R) (records : BTreeMap R) (bytes : Nat) (key : String) (record : R) : Prop where
  new : records[key]? = none
  count : records.size < outbox.maxCount
  owner_count : total (outbox.owned (outbox.owner record)) records < outbox.maxPerOwner
  bytes : bytes + outbox.entryBytes key record ≤ outbox.maxBytes
  owner_bytes : total (outbox.ownedBytes (outbox.owner record)) records + outbox.entryBytes key record ≤
    outbox.maxBytesPerOwner

/-- Another record of the owner that takes the same bytes has room as well. -/
theorem Room.congr {other : R} (h : outbox.Room records bytes key record)
    (howner : outbox.owner other = outbox.owner record)
    (hsize : outbox.entryBytes key other = outbox.entryBytes key record) : outbox.Room records bytes key other :=
  ⟨h.new, h.count, howner ▸ h.owner_count, hsize ▸ h.bytes, by rw [howner, hsize]; exact h.owner_bytes⟩

variable (outbox) in
/-- What is let in has room. -/
theorem preflightNew_eq_ok (hmax : outbox.maxBytes ≤ u64Max) (hmaxOwner : outbox.maxBytesPerOwner ≤ u64Max) :
    outbox.preflightNew records bytes key record = .ok added ↔
      outbox.Room records bytes key record ∧ outbox.entryBytes key record = added := by
  simp only [preflightNew, bind_eq_ok, refuseIf_eq_ok, exists_unit, Bool.not_eq_true, length_owned,
    ensureCountCapacity_eq_ok, ensureByteCapacity_eq_ok, entryStorageBytes_eq_ok, bytesForOwner_eq_ok, pure,
    Except.pure, Except.ok.injEq, BTreeMap.contains_eq_false]
  constructor
  · rintro ⟨hnew, hcount, hown, _, ⟨rfl, _⟩, ⟨hbytes, _⟩, _, ⟨rfl, _⟩, ⟨hroom, _⟩, rfl⟩
    exact ⟨⟨hnew, hcount, hown, hbytes, hroom⟩, rfl⟩
  · rintro ⟨⟨hnew, hcount, hown, hbytes, hroom⟩, rfl⟩
    exact ⟨hnew, hcount, hown, _, ⟨rfl, by omega⟩, ⟨hbytes, by omega⟩, _, ⟨rfl, by omega⟩, ⟨hroom, by omega⟩, rfl⟩

theorem exchange_eq_some {held old new : Nat} :
    exchange held old new = some n ↔ old ≤ held ∧ held - old + new = n ∧ n ≤ u64Max := by
  unfold exchange
  split
  · next h => simp [checkedAdd_eq_some, h]
  · next h => simp [h]

variable {next : Nat}

/-- What a replacement makes of the bytes fits as well. -/
theorem replacedBytes_eq_ok
    (h : outbox.replacedBytes records bytes key current record = .ok next) :
    next + outbox.entryBytes key current = bytes + outbox.entryBytes key record ∧ next ≤ outbox.maxBytes ∧
      total (outbox.ownedBytes (outbox.owner current)) records + outbox.entryBytes key record ≤
        outbox.maxBytesPerOwner + outbox.entryBytes key current := by
  simp only [replacedBytes, bind_eq_ok, refuseIf_eq_ok, exists_unit, Nat.not_lt, okOr_eq_ok,
    entryStorageBytes_eq_ok, bytesForOwner_eq_ok, exchange_eq_some, pure, Except.pure, Except.ok.injEq] at h
  obtain ⟨_, ⟨rfl, _⟩, _, ⟨rfl, _⟩, _, ⟨hold, rfl, _⟩, hbytes, _, ⟨rfl, _⟩, _, ⟨hownOld, rfl, _⟩, hown, rfl⟩ := h
  exact ⟨by omega, hbytes, by omega⟩

/-- An insertion where there is room keeps an outbox measured. -/
theorem Measured.insert_new (hkept : outbox.Measured records bytes) (h : outbox.Room records bytes key record) :
    outbox.Measured (records.insert key record) (bytes + outbox.entryBytes key record) := by
  refine ⟨?_, ?_, h.bytes, fun owner => ?_, fun owner => ?_⟩
  · rw [total_insert_new h.new, ← hkept.bytes_eq]
  · rw [size_eq_total, total_insert_new h.new, ← size_eq_total]
    exact h.count
  · rw [total_insert_new h.new]
    by_cases howner : outbox.owner record = owner
    · subst howner
      simp only [owned, if_true]
      exact h.owner_count
    · simp only [owned, howner, if_false]
      exact hkept.owner_count owner
  · rw [total_insert_new h.new]
    by_cases howner : outbox.owner record = owner
    · subst howner
      simp only [ownedBytes, if_true]
      exact h.owner_bytes
    · simp only [ownedBytes, howner, if_false]
      exact hkept.owner_bytes owner

/-- A replacement of an owner's record that is let through keeps an outbox measured. -/
theorem Measured.insert_old (hkept : outbox.Measured records bytes)
    (hget : records[key]? = some current) (howner : outbox.owner record = outbox.owner current)
    (h : outbox.replacedBytes records bytes key current record = .ok next) :
    outbox.Measured (records.insert key record) next := by
  obtain ⟨hnext, hbytes, hown⟩ := replacedBytes_eq_ok h
  refine ⟨?_, ?_, hbytes, fun owner => ?_, fun owner => ?_⟩
  · have hold := total_insert_old outbox.entryBytes record hget
    have hsum := hkept.bytes_eq
    omega
  · have hsame : total (fun _ _ => 1) (records.insert key record) = total (fun _ _ => 1) records :=
      total_insert_same hget rfl
    rw [size_eq_total, hsame, ← size_eq_total]
    exact hkept.count
  · rw [total_insert_same hget (by simp only [owned, howner])]
    exact hkept.owner_count owner
  · have hold := total_insert_old (outbox.ownedBytes owner) record hget
    have hle := hkept.owner_bytes owner
    by_cases hsame : outbox.owner current = owner
    · subst hsame
      simp only [ownedBytes, howner, if_true] at hold hown hle ⊢
      omega
    · simp only [ownedBytes, howner, hsame, if_false] at hold hle ⊢
      omega

/-! ### Measuring anew -/

/-- `receipt_storage_bytes`, `dispatch_storage_bytes`, `cancellation_storage_bytes` and
`pending_event_storage_bytes`. -/
def storageBytes (outbox : Outbox R) (records : BTreeMap R) : ProtocolResult Nat :=
  sumBytes (.invalid s!"A2A {outbox.kind} bytes overflowed")
    (records.toList.map fun entry => outbox.entryStorageBytes entry.1 entry.2)

/-- How many records and bytes the owners have, as `validate_capacity_snapshot` counts them. -/
abbrev Tally : Type := ExtTreeMap A2aContextOwner (Nat × Nat) A2aContextOwner.cmp

/-- One more entry. -/
def tallyEntry (outbox : Outbox R) (tally : Tally) (entry : String × R) : ProtocolResult Tally := do
  let counts := tally[outbox.owner entry.2]?.getD (0, 0)
  let bytes ← okOr (checkedAdd counts.2 (← outbox.entryStorageBytes entry.1 entry.2))
    (.invalid s!"A2A {outbox.ownerKind} bytes overflowed")
  pure (tally.insert (outbox.owner entry.2) (counts.1 + 1, bytes))

/-- The tally of all entries. -/
def tally (outbox : Outbox R) (records : BTreeMap R) : ProtocolResult Tally :=
  records.toList.foldlM outbox.tallyEntry ∅

/-- An owner of a tally has too many records or bytes. -/
def exceeds (outbox : Outbox R) (tally : Tally) : Bool :=
  tally.toList.any fun entry =>
    outbox.maxPerOwner < entry.2.1 || outbox.maxBytesPerOwner < entry.2.2

/-- The bytes that are told are measured, and within the bound. -/
def checkBytes (outbox : Outbox R) (records : BTreeMap R) (bytes : Nat) : ProtocolResult Unit := do
  let measured ← outbox.storageBytes records
  refuseIf (measured ≠ bytes ∨ outbox.maxBytes < measured)
    (.invalid s!"A2A mapper snapshot {outbox.ownerKind} byte accounting is invalid")

/-- The entries of an owner among some, and their bytes. -/
def share (outbox : Outbox R) (owner : A2aContextOwner) (entries : List (String × R)) : Nat × Nat :=
  ((entries.map fun entry => outbox.owned owner entry.1 entry.2).sum,
    (entries.map fun entry => outbox.ownedBytes owner entry.1 entry.2).sum)

/-- A tally of some entries that goes on with others, as long as the bytes of every owner fit. -/
theorem foldlM_tallyEntry (before entries : List (String × R)) (start : Tally)
    (hstart : ∀ owner, start[owner]?.getD (0, 0) = outbox.share owner before)
    (hfits : ∀ owner, (outbox.share owner (before ++ entries)).2 ≤ u64Max) :
    ∃ tally, entries.foldlM outbox.tallyEntry start = .ok tally ∧
      ∀ owner, tally[owner]?.getD (0, 0) = outbox.share owner (before ++ entries) := by
  induction entries generalizing before start with
  | nil => exact ⟨start, rfl, fun owner => by rw [List.append_nil, hstart owner]⟩
  | cons entry rest ih =>
    have hshare (owner : A2aContextOwner) (front : List (String × R)) :
        outbox.share owner (front ++ [entry]) = ((outbox.share owner front).1 + outbox.owned owner entry.1 entry.2,
          (outbox.share owner front).2 + outbox.ownedBytes owner entry.1 entry.2) := by
      simp [share]
    have happend : before ++ entry :: rest = (before ++ [entry]) ++ rest := by simp
    have hbytes : (outbox.share (outbox.owner entry.2) before).2 + outbox.entryBytes entry.1 entry.2 ≤ u64Max := by
      have hle := hfits (outbox.owner entry.2)
      simp only [share, List.map_append, List.sum_append, List.map_cons, List.sum_cons, ownedBytes, if_true] at hle ⊢
      omega
    have hentry : outbox.entryStorageBytes entry.1 entry.2 = .ok (outbox.entryBytes entry.1 entry.2) :=
      (outbox.entryStorageBytes_eq_ok).mpr ⟨rfl, by omega⟩
    have hstep : outbox.tallyEntry start entry = .ok (start.insert (outbox.owner entry.2)
        ((outbox.share (outbox.owner entry.2) before).1 + 1,
          (outbox.share (outbox.owner entry.2) before).2 + outbox.entryBytes entry.1 entry.2)) := by
      simp only [tallyEntry, hentry, ok_bind, hstart, checkedAdd, hbytes, if_true, okOr_some, pure, Except.pure]
    rw [List.foldlM_cons, hstep, happend]
    refine ih (before ++ [entry]) _ (fun owner => ?_) fun owner => happend ▸ hfits owner
    rw [getElem?_insert_map, hshare]
    by_cases howner : outbox.owner entry.2 = owner
    · subst howner
      simp [owned, ownedBytes]
    · rw [if_neg howner, hstart owner]
      simp [owned, ownedBytes, howner]

theorem share_toList : outbox.share owner records.toList =
    (total (outbox.owned owner) records, total (outbox.ownedBytes owner) records) := rfl

/-- What is measured passes every check of it. -/
theorem Measured.checkBytes (hkept : outbox.Measured records bytes) (hfits : outbox.maxBytes ≤ u64Max) :
    outbox.storageBytes records = .ok bytes ∧ outbox.checkBytes records bytes = .ok () := by
  have hmeasured : outbox.storageBytes records = .ok bytes := by
    refine sumBytes_eq_ok.mpr ⟨?_, Nat.le_trans hkept.bytes_le hfits⟩
    exact hkept.bytes_eq.symm
  refine ⟨hmeasured, ?_⟩
  unfold Outbox.checkBytes
  rw [hmeasured, ok_bind]
  exact refuseIf_of_not (by simpa using hkept.bytes_le)

theorem Measured.tally (hkept : outbox.Measured records bytes) (hfits : outbox.maxBytesPerOwner ≤ u64Max) :
    ∃ tally, outbox.tally records = .ok tally ∧ outbox.exceeds tally = false := by
  obtain ⟨tally, htally, hshares⟩ := outbox.foldlM_tallyEntry [] records.toList ∅ (fun _ => by simp [share])
    fun owner => Nat.le_trans (hkept.owner_bytes owner) hfits
  refine ⟨tally, htally, ?_⟩
  refine List.any_eq_false.mpr fun entry hmem => ?_
  have hget := ExtTreeMap.mem_toList_iff_getElem?_eq_some.mp hmem
  have hshare := hshares entry.1
  rw [hget, List.nil_append, share_toList, Option.getD_some] at hshare
  have hcount := hkept.owner_count entry.1
  have hbytes := hkept.owner_bytes entry.1
  rw [hshare]
  simp only [Bool.or_eq_true, decide_eq_true_eq]
  omega

end Outbox

/-! ### Tasks and contexts -/

/-- `A2A_MAX_TASKS` and `A2A_MAX_CONTEXTS`. -/
def maxTasks : Nat := 10000

/-- `A2A_MAX_TASKS_PER_OWNER` and `A2A_MAX_CONTEXTS_PER_OWNER`. -/
def maxTasksPerOwner : Nat := 1000

/-- How often each owner occurs (`*by_owner.entry(owner).or_default() += 1`). -/
def ownerCounts (owners : List A2aContextOwner) : ExtTreeMap A2aContextOwner Nat A2aContextOwner.cmp :=
  owners.foldl (fun counts owner => counts.insert owner (counts[owner]?.getD 0 + 1)) ∅

/-- Some owner occurs too often. -/
def ownersExceed (maximum : Nat) (owners : List A2aContextOwner) : Bool :=
  (ownerCounts owners).toList.any fun entry => maximum < entry.2

theorem getD_foldl_counts (owners : List A2aContextOwner)
    (counts : ExtTreeMap A2aContextOwner Nat A2aContextOwner.cmp) (owner : A2aContextOwner) :
    (owners.foldl (fun counts owner => counts.insert owner (counts[owner]?.getD 0 + 1)) counts)[owner]?.getD 0 =
      counts[owner]?.getD 0 + owners.count owner := by
  induction owners generalizing counts with
  | nil => rfl
  | cons first rest ih =>
    rw [List.foldl_cons, ih, getElem?_insert_map, List.count_cons]
    by_cases h : first = owner
    · subst h
      simp only [if_true, Option.getD_some, beq_self_eq_true]
      omega
    · simp [h]

theorem ownersExceed_eq_false {owners : List A2aContextOwner}
    (h : ∀ owner, owners.count owner ≤ maximum) : ownersExceed maximum owners = false := by
  refine List.any_eq_false.mpr fun entry hmem => ?_
  have hget := ExtTreeMap.mem_toList_iff_getElem?_eq_some.mp hmem
  have hcount := getD_foldl_counts owners ∅ entry.1
  rw [ExtTreeMap.getElem?_empty, Option.getD_none, Nat.zero_add] at hcount
  unfold ownerCounts at hget
  rw [hget, Option.getD_some] at hcount
  have hle := h entry.1
  simp only [decide_eq_true_eq]
  omega

/-- One for an entry of the owner. -/
def ofOwner {V : Type} (ownerOf : V → A2aContextOwner) (owner : A2aContextOwner) (_ : String) (v : V) : Nat :=
  if ownerOf v = owner then 1 else 0

theorem count_values {V : Type} (ownerOf : V → A2aContextOwner) (owner : A2aContextOwner) (m : BTreeMap V) :
    (m.values.map ownerOf).count owner = total (ofOwner ownerOf owner) m := by
  rw [List.count, List.countP_map, List.countP_eq_length_filter, length_filter_values]
  simp only [Function.comp_apply, beq_iff_eq]
  rfl

/-- What the mapper keeps true of the numbers of some values with owners. -/
structure Limited {V : Type} (ownerOf : V → A2aContextOwner) (values : BTreeMap V) : Prop where
  count : values.size ≤ maxTasks
  owner_count : ∀ owner, total (ofOwner ownerOf owner) values ≤ maxTasksPerOwner

namespace Limited

variable {V : Type} {ownerOf : V → A2aContextOwner} {values : BTreeMap V} {key : String} {v w : V}

theorem empty : Limited ownerOf (∅ : BTreeMap V) := ⟨by simp, fun _ => by simp⟩

/-- One more value, where there is room. -/
theorem insert_new (hkept : Limited ownerOf values) (hnew : values[key]? = none) (hcount : values.size < maxTasks)
    (howner : total (ofOwner ownerOf (ownerOf v)) values < maxTasksPerOwner) :
    Limited ownerOf (values.insert key v) where
  count := by
    rw [size_eq_total, total_insert_new hnew, ← size_eq_total]
    exact hcount
  owner_count owner := by
    rw [total_insert_new hnew]
    by_cases hsame : ownerOf v = owner
    · subst hsame
      simp only [ofOwner, if_true]
      exact howner
    · simp only [ofOwner, hsame, if_false]
      exact hkept.owner_count owner

/-- A value of the same owner in place of another. -/
theorem insert_old (hkept : Limited ownerOf values) (hget : values[key]? = some w) (hsame : ownerOf v = ownerOf w) :
    Limited ownerOf (values.insert key v) where
  count := by
    have hsize : total (fun _ _ => 1) (values.insert key v) = total (fun _ _ => 1) values :=
      total_insert_same hget rfl
    rw [size_eq_total, hsize, ← size_eq_total]
    exact hkept.count
  owner_count owner := by
    rw [total_insert_same hget (by simp only [ofOwner, hsame])]
    exact hkept.owner_count owner

end Limited

/-! ### Validation -/

/-- `validate_capacity_snapshot`. -/
def A2aMapper.validateCapacitySnapshot (m : A2aMapper) : ProtocolResult Unit := do
  refuseIf (maxTasks < m.tasks.size ∨ maxTasks < m.contexts.size ∨
      messageReceipts.maxCount < m.receipts.size ∨ dispatches.maxCount < m.dispatchOutbox.size ∨
      cancellations.maxCount < m.cancellationOutbox.size ∨ events.maxCount < m.pendingEvents.size)
    (.invalid "A2A mapper snapshot exceeds a global collection limit")
  messageReceipts.checkBytes m.receipts m.receiptBytes
  dispatches.checkBytes m.dispatchOutbox m.dispatchBytes
  cancellations.checkBytes m.cancellationOutbox m.cancellationBytes
  events.checkBytes m.pendingEvents m.pendingEventBytes
  let receiptsByOwner ← messageReceipts.tally m.receipts
  let dispatchesByOwner ← dispatches.tally m.dispatchOutbox
  let eventsByOwner ← events.tally m.pendingEvents
  let cancellationsByOwner ← cancellations.tally m.cancellationOutbox
  refuseIf (ownersExceed maxTasksPerOwner (m.tasks.values.map A2aTaskRecord.owner) = true ∨
      ownersExceed maxTasksPerOwner m.contextOwners.values = true ∨
      messageReceipts.exceeds receiptsByOwner = true ∨ dispatches.exceeds dispatchesByOwner = true ∨
      cancellations.exceeds cancellationsByOwner = true ∨ events.exceeds eventsByOwner = true)
    (.invalid "A2A mapper snapshot exceeds an owner-scoped limit")

/-- What a mapper keeps true of its numbers and bytes. -/
structure A2aMapper.WithinCapacities (m : A2aMapper) : Prop where
  tasks : Limited A2aTaskRecord.owner m.tasks
  contexts : m.contexts.size ≤ maxTasks
  contextOwners : ∀ owner, total (ofOwner id owner) m.contextOwners ≤ maxTasksPerOwner
  receipts : messageReceipts.Measured m.receipts m.receiptBytes
  dispatches : dispatches.Measured m.dispatchOutbox m.dispatchBytes
  cancellations : cancellations.Measured m.cancellationOutbox m.cancellationBytes
  events : events.Measured m.pendingEvents m.pendingEventBytes

/-- A mapper within its capacities passes the check of a restored one. -/
theorem A2aMapper.WithinCapacities.validate {m : A2aMapper} (h : m.WithinCapacities) :
    m.validateCapacitySnapshot = .ok () := by
  obtain ⟨receipts, hreceipts, hreceiptsFit⟩ := h.receipts.tally (by decide)
  obtain ⟨dispatches, hdispatches, hdispatchesFit⟩ := h.dispatches.tally (by decide)
  obtain ⟨events, hevents, heventsFit⟩ := h.events.tally (by decide)
  obtain ⟨cancellations, hcancellations, hcancellationsFit⟩ := h.cancellations.tally (by decide)
  have htasks : ownersExceed maxTasksPerOwner (m.tasks.values.map A2aTaskRecord.owner) = false :=
    ownersExceed_eq_false fun owner => by
      rw [count_values]
      exact h.tasks.owner_count owner
  have hcontexts : ownersExceed maxTasksPerOwner m.contextOwners.values = false :=
    ownersExceed_eq_false fun owner => by
      rw [← List.map_id m.contextOwners.values, count_values]
      exact h.contextOwners owner
  simp only [validateCapacitySnapshot, bind_eq_ok, refuseIf_eq_ok, exists_unit]
  refine ⟨?_, (h.receipts.checkBytes (by decide)).2, (h.dispatches.checkBytes (by decide)).2,
    (h.cancellations.checkBytes (by decide)).2, (h.events.checkBytes (by decide)).2, receipts, hreceipts,
    dispatches, hdispatches, events, hevents, cancellations, hcancellations, ?_⟩
  · have := h.tasks.count
    have := h.contexts
    have := h.receipts.count
    have := h.dispatches.count
    have := h.cancellations.count
    have := h.events.count
    omega
  · simp [htasks, hcontexts, hreceiptsFit, hdispatchesFit, heventsFit, hcancellationsFit]

end AikitRuntime.A2a
