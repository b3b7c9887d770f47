import AikitRuntime.A2a.Accounts
import AikitRuntime.Library.RoundRobin
import Mathlib

/-!
# Fair batches of due events

The recovery loop publishes the events that are due in bounded batches. `pendingEventsDueFairBatch` takes turns with
the owners, in rounds of one event each, and starts after the owner whose event it selected last. It reads the
schedules only, so that an owner with a deep queue hides nobody.

In terms of `Library.RoundRobin`, a batch is what is served of the rounds up to the limit
(`pendingEventsDueFairBatch_eq`).
-/

namespace AikitRuntime.A2a

open Library Durability Mcp Std A2aPendingEventScheduleKey

/-! ### The order of owners -/

/-- The order of a lawful comparison. -/
@[reducible] def linearOrderOfCmp {α : Type} [DecidableEq α] (cmp : α → α → Ordering) [TransCmp cmp]
    [LawfulEqCmp cmp] : LinearOrder α where
  le a b := (cmp a b).isLE
  lt a b := cmp a b = .lt
  le_refl _ := ReflCmp.isLE_rfl
  le_trans _ _ _ := TransCmp.isLE_trans
  le_antisymm _ _ h h' := LawfulEqCmp.eq_of_compare (OrientedCmp.isLE_antisymm h h')
  le_total a b := by
    cases h : cmp a b with
    | gt => exact .inr (by rw [OrientedCmp.gt_iff_lt.mp h]; rfl)
    | _ => exact .inl rfl
  lt_iff_le_not_ge a b := by
    constructor
    · intro h
      exact ⟨by rw [h]; rfl, OrientedCmp.not_isLE_of_lt h⟩
    · intro h
      exact OrientedCmp.lt_of_not_isLE h.2
  toDecidableLE a b := inferInstanceAs (Decidable ((cmp a b).isLE = true))
  toDecidableEq := inferInstance

/-- The derived order of owners. -/
instance : LinearOrder A2aContextOwner := linearOrderOfCmp A2aContextOwner.cmp

/-! ### Batches -/

/-- The keys of a schedule that are due. -/
def dueKeys (schedule : Schedule) (nowUnixMs : Nat) : List A2aPendingEventScheduleKey :=
  schedule.keys.takeWhile fun key => key.nextAttemptAtUnixMs ≤ nowUnixMs

namespace A2aMapper

variable (m : A2aMapper) (nowUnixMs : Nat)

/-- The owners whose first key is due. -/
def dueOwners : List A2aContextOwner :=
  m.pendingEventScheduleByOwner.toList.filterMap fun (owner, schedule) =>
    if schedule.keys.head?.any fun key => key.nextAttemptAtUnixMs ≤ nowUnixMs then some owner else none

/-- The `owner_item`-th due event of an owner. -/
def dueEvent (owner : A2aContextOwner) (ownerItem : Nat) : Option A2aPendingEventIntent := do
  let schedule ← m.pendingEventScheduleByOwner[owner]?
  let key ← (dueKeys schedule nowUnixMs)[ownerItem]?
  m.pendingEvents[key.eventId]?

/-- The iterations of the two loops, and what was selected before them: an owner without that many due events is
passed over, and the batch is returned when it is full. -/
def selectInTurn (maxTotal : Nat) : List (Nat × A2aContextOwner) →
    List A2aPendingEventIntent × Option A2aContextOwner → List A2aPendingEventIntent × Option A2aContextOwner
  | [], batch => batch
  | (ownerItem, owner) :: rest, (selected, cursor) =>
    match m.dueEvent nowUnixMs owner ownerItem with
    | none => selectInTurn maxTotal rest (selected, cursor)
    | some event =>
      if (selected ++ [event]).length = maxTotal then (selected ++ [event], some owner)
      else selectInTurn maxTotal rest (selected ++ [event], some owner)

/-- `pending_events_due_fair_batch`: the batch, and the cursor after it. -/
def pendingEventsDueFairBatch (maxTotal maxPerOwner : Nat) (cursor : Option A2aContextOwner) :
    List A2aPendingEventIntent × Option A2aContextOwner :=
  if maxTotal = 0 ∨ maxPerOwner = 0 ∨
      m.pendingEventSchedule.keys.head?.all (fun key => nowUnixMs < key.nextAttemptAtUnixMs) then ([], cursor)
  else
    let dueOwners := m.dueOwners nowUnixMs
    if dueOwners = [] then ([], cursor)
    else
      -- `partition_point`: the owners come in their order
      let start := (cursor.map fun last => (dueOwners.takeWhile (· ≤ last)).length).getD 0
      m.selectInTurn nowUnixMs maxTotal
        ((List.range maxPerOwner).flatMap fun ownerItem =>
          (List.range dueOwners.length).filterMap fun ownerOffset =>
            dueOwners[(start + ownerOffset) % dueOwners.length]?.map (ownerItem, ·))
        ([], cursor)

/-! ### What is due -/

/-- An open event of this owner is due. -/
def IsDue (owner : A2aContextOwner) (event : A2aPendingEventIntent) : Prop :=
  event.owner = owner ∧ ∃ key, fromEvent event = some key ∧
    key.nextAttemptAtUnixMs ≤ nowUnixMs

/-- The due events of an owner, in the order of its schedule. -/
def dueEvents (owner : A2aContextOwner) : List A2aPendingEventIntent :=
  (dueKeys (m.pendingEventScheduleByOwner[owner]?.getD ∅) nowUnixMs).filterMap fun key => m.pendingEvents[key.eventId]?

end A2aMapper

/-! ### Schedules in order -/

section Schedules

variable {schedule : Schedule} {P : A2aPendingEventScheduleKey → Prop} {key : A2aPendingEventScheduleKey}
  {nowUnixMs : Nat}

theorem Holds.mem_keys (h : Holds P schedule) : key ∈ schedule.keys ↔ P key := by
  rw [ExtTreeMap.mem_keys, ExtTreeMap.mem_iff_isSome_getElem?, ← h key]
  cases schedule[key]? <;> simp

theorem A2aPendingEventScheduleKey.le_of_cmp {a b : A2aPendingEventScheduleKey}
    (h : cmp a b = .lt) : a.nextAttemptAtUnixMs ≤ b.nextAttemptAtUnixMs := by
  unfold cmp compareLex at h
  rw [Ordering.then_eq_lt] at h
  rcases h with hlt | ⟨heq, -⟩
  · exact Nat.le_of_lt (Nat.compare_eq_lt.mp hlt)
  · exact Nat.le_of_eq (Nat.compare_eq_eq.mp heq)

/-- Where the earlier items hold whenever a later one does, those that hold come first. -/
theorem takeWhile_eq_filter {α : Type} {p : α → Bool} {xs : List α} (h : xs.Pairwise fun a b => p b = true → p a = true) :
    xs.takeWhile p = xs.filter p := by
  induction xs with
  | nil => rfl
  | cons x rest ih =>
    rw [List.pairwise_cons] at h
    by_cases hx : p x = true
    · rw [List.takeWhile_cons, List.filter_cons, if_pos hx, if_pos hx, ih h.2]
    · have hnone : rest.filter p = [] := List.filter_eq_nil_iff.mpr fun y hy hp => hx (h.1 y hy hp)
      rw [List.takeWhile_cons, List.filter_cons, if_neg hx, if_neg hx, hnone]

theorem pairwise_keys (schedule : Schedule) :
    schedule.keys.Pairwise fun a b => cmp a b = .lt := ExtTreeMap.ordered_keys

theorem dueKeys_eq (schedule : Schedule) (nowUnixMs : Nat) :
    dueKeys schedule nowUnixMs = schedule.keys.filter fun key => key.nextAttemptAtUnixMs ≤ nowUnixMs := by
  refine takeWhile_eq_filter ((pairwise_keys schedule).imp fun hlt hdue => ?_)
  rw [decide_eq_true_eq] at hdue ⊢
  exact Nat.le_trans (le_of_cmp hlt) hdue

theorem Holds.mem_dueKeys (h : Holds P schedule) :
    key ∈ dueKeys schedule nowUnixMs ↔ P key ∧ key.nextAttemptAtUnixMs ≤ nowUnixMs := by
  rw [dueKeys_eq, List.mem_filter, h.mem_keys, decide_eq_true_eq]

/-- The first key of a schedule is due if any is. -/
theorem head_due : (schedule.keys.head?.any fun key => key.nextAttemptAtUnixMs ≤ nowUnixMs) = true ↔
    dueKeys schedule nowUnixMs ≠ [] := by
  unfold dueKeys
  cases schedule.keys with
  | nil => simp
  | cons first rest =>
    rw [List.head?_cons, Option.any_some, List.takeWhile_cons]
    split
    · simp_all
    · simp_all

end Schedules

/-! ### Batches in terms of rounds -/

namespace A2aMapper

variable {m : A2aMapper} {nowUnixMs maxTotal maxPerOwner : Nat} {cursor : Option A2aContextOwner}
  {owner : A2aContextOwner} {event : A2aPendingEventIntent}

/-- The entries of a batch that is selected in these iterations. -/
def selection (m : A2aMapper) (nowUnixMs : Nat) (iterations : List (Nat × A2aContextOwner)) :
    List (A2aContextOwner × A2aPendingEventIntent) :=
  iterations.filterMap fun (ownerItem, owner) => (m.dueEvent nowUnixMs owner ownerItem).map (owner, ·)

/-- The loops select what comes first, until the batch is full. -/
theorem selectInTurn_eq (iterations : List (Nat × A2aContextOwner)) (selected : List A2aPendingEventIntent)
    (cursor : Option A2aContextOwner) (hroom : selected.length < maxTotal) :
    m.selectInTurn nowUnixMs maxTotal iterations (selected, cursor) =
      let entries := (m.selection nowUnixMs iterations).take (maxTotal - selected.length)
      (selected ++ entries.map Prod.snd, (entries.getLast?.map Prod.fst).or cursor) := by
  induction iterations generalizing selected cursor with
  | nil => simp [selectInTurn, selection]
  | cons first rest ih =>
    obtain ⟨ownerItem, owner⟩ := first
    unfold selectInTurn
    cases hevent : m.dueEvent nowUnixMs owner ownerItem with
    | none =>
      have hskip : m.selection nowUnixMs ((ownerItem, owner) :: rest) = m.selection nowUnixMs rest := by
        simp [selection, hevent]
      rw [hskip]
      exact ih selected cursor hroom
    | some event =>
      have htake : m.selection nowUnixMs ((ownerItem, owner) :: rest) = (owner, event) :: m.selection nowUnixMs rest := by
        simp [selection, hevent]
      obtain ⟨more, hmore⟩ : ∃ more, maxTotal - selected.length = more + 1 := ⟨maxTotal - selected.length - 1, by omega⟩
      rw [htake, hmore, List.take_succ_cons]
      dsimp only
      rw [List.length_append, List.length_singleton]
      by_cases hfull : selected.length + 1 = maxTotal
      · have hzero : more = 0 := by omega
        rw [if_pos hfull, hzero, List.take_zero]
        rfl
      · have hleft : maxTotal - (selected ++ [event]).length = more := by
          rw [List.length_append, List.length_singleton]
          omega
        rw [if_neg hfull, ih (selected ++ [event]) (some owner) (by rw [List.length_append, List.length_singleton]; omega),
          hleft]
        dsimp only
        rw [List.map_cons, List.append_assoc, List.singleton_append, List.getLast?_cons]
        cases ((m.selection nowUnixMs rest).take more).getLast? <;> rfl

/-! ### What the schedules say -/

/-- One event comes before another in the schedule. -/
def Before (a b : A2aPendingEventIntent) : Prop :=
  ∃ key key', fromEvent a = some key ∧ fromEvent b = some key' ∧
    cmp key key' = .lt

section Indexed

variable (h : Indexed m.pendingEvents m.pendingEventSchedule m.pendingEventScheduleByOwner m.dispatchEventReadiness)
include h

/-- A due key of an owner leads to the due event that it is the key of. -/
theorem event_of_dueKey {key : A2aPendingEventScheduleKey}
    (hkey : key ∈ dueKeys (m.pendingEventScheduleByOwner[owner]?.getD ∅) nowUnixMs) :
    ∃ event, m.pendingEvents[key.eventId]? = some event ∧ event.eventId = key.eventId ∧
      fromEvent event = some key ∧ IsDue nowUnixMs owner event := by
  obtain ⟨⟨id, event, hget, howner, hfrom⟩, hdue⟩ := (h.byOwner.keys owner).mem_dueKeys.mp hkey
  have hid : id = key.eventId := by
    rw [← h.own_id id event hget, fromEvent_eventId hfrom]
  exact ⟨event, hid ▸ hget, (fromEvent_eventId hfrom).symm, hfrom, howner, key, hfrom, hdue⟩

theorem mem_dueEvents : event ∈ m.dueEvents nowUnixMs owner ↔
    m.pendingEvents[event.eventId]? = some event ∧ IsDue nowUnixMs owner event := by
  unfold dueEvents
  rw [List.mem_filterMap]
  constructor
  · rintro ⟨key, hkey, hget⟩
    obtain ⟨found, hfound, hid, -, hdue⟩ := event_of_dueKey h hkey
    rw [hfound, Option.some.injEq] at hget
    subst hget
    exact ⟨hid ▸ hfound, hdue⟩
  · rintro ⟨hget, howner, key, hfrom, hdue⟩
    refine ⟨key, (h.byOwner.keys owner).mem_dueKeys.mpr ⟨⟨_, event, hget, howner, hfrom⟩, hdue⟩, ?_⟩
    rw [fromEvent_eventId hfrom, hget]

/-- The due events of an owner are in the order of the schedule. -/
theorem pairwise_dueEvents : (m.dueEvents nowUnixMs owner).Pairwise Before := by
  unfold dueEvents
  rw [List.pairwise_filterMap]
  have hkeys := (pairwise_keys (m.pendingEventScheduleByOwner[owner]?.getD ∅)).sublist
    (List.takeWhile_sublist fun key => key.nextAttemptAtUnixMs ≤ nowUnixMs)
  refine hkeys.imp_of_mem fun {a b} ha hb hlt first hfirst second hsecond => ?_
  obtain ⟨found, hfound, -, hfrom, -⟩ := event_of_dueKey h ha
  obtain ⟨found', hfound', -, hfrom', -⟩ := event_of_dueKey h hb
  rw [hfound, Option.some.injEq] at hfirst
  rw [hfound', Option.some.injEq] at hsecond
  subst hfirst hsecond
  exact ⟨a, b, hfrom, hfrom', hlt⟩

theorem nodup_dueEvents : (m.dueEvents nowUnixMs owner).Nodup := by
  refine (pairwise_dueEvents h).imp ?_
  rintro a b ⟨key, key', hkey, hkey', hlt⟩ rfl
  rw [hkey, Option.some.injEq] at hkey'
  have hsame : cmp key' key' = .eq := ReflCmp.compare_self
  rw [hkey', hsame] at hlt
  cases hlt

theorem dueEvent_eq (ownerItem : Nat) :
    m.dueEvent nowUnixMs owner ownerItem = (m.dueEvents nowUnixMs owner)[ownerItem]? := by
  have hlookup : ∀ keys : List A2aPendingEventScheduleKey,
      (∀ key ∈ keys, (m.pendingEvents[key.eventId]?).isSome = true) → ∀ k : Nat,
        (keys.filterMap fun key => m.pendingEvents[key.eventId]?)[k]? =
          keys[k]?.bind fun key => m.pendingEvents[key.eventId]? := by
    intro keys hall
    induction keys with
    | nil => intro k; simp
    | cons key rest ih =>
      rw [List.forall_mem_cons] at hall
      obtain ⟨event, hevent⟩ := Option.isSome_iff_exists.mp hall.1
      intro k
      rw [List.filterMap_cons, hevent]
      cases k with
      | zero => simp [hevent]
      | succ k => simpa using ih hall.2 k
  unfold dueEvent dueEvents
  rw [hlookup _ (fun key hkey => ?_) ownerItem]
  · cases m.pendingEventScheduleByOwner[owner]? with
    | none =>
      have hnone : dueKeys ∅ nowUnixMs = [] := by
        rw [List.eq_nil_iff_forall_not_mem]
        exact fun key hkey => (holds_empty.mem_dueKeys.mp hkey).1
      simp [hnone]
    | some schedule => rfl
  · obtain ⟨event, hevent, -⟩ := event_of_dueKey h hkey
    rw [hevent]
    rfl

omit h in
/-- The owners are those that have a due event. -/
theorem mem_dueOwners : owner ∈ m.dueOwners nowUnixMs ↔
    dueKeys (m.pendingEventScheduleByOwner[owner]?.getD ∅) nowUnixMs ≠ [] := by
  unfold dueOwners
  rw [List.mem_filterMap]
  constructor
  · rintro ⟨⟨other, schedule⟩, hmem, hdue⟩
    rw [Option.ite_none_right_eq_some, Option.some.injEq] at hdue
    obtain ⟨hdue, rfl⟩ := hdue
    rw [ExtTreeMap.mem_toList_iff_getElem?_eq_some] at hmem
    rw [hmem, Option.getD_some]
    exact head_due.mp hdue
  · intro hdue
    cases hget : m.pendingEventScheduleByOwner[owner]? with
    | none =>
      rw [hget, Option.getD_none] at hdue
      obtain ⟨key, hkey⟩ := List.exists_mem_of_ne_nil _ hdue
      exact absurd (holds_empty.mem_dueKeys.mp hkey).1 id
    | some schedule =>
      rw [hget, Option.getD_some] at hdue
      exact ⟨(owner, schedule), ExtTreeMap.mem_toList_iff_getElem?_eq_some.mpr hget, if_pos (head_due.mpr hdue)⟩

theorem mem_dueOwners_iff : owner ∈ m.dueOwners nowUnixMs ↔ m.dueEvents nowUnixMs owner ≠ [] := by
  rw [mem_dueOwners]
  constructor
  · intro hdue
    obtain ⟨key, hkey⟩ := List.exists_mem_of_ne_nil _ hdue
    obtain ⟨event, hget, hid, -, hevent⟩ := event_of_dueKey h hkey
    exact List.ne_nil_of_mem ((mem_dueEvents h).mpr ⟨hid ▸ hget, hevent⟩)
  · intro hdue hnone
    unfold dueEvents at hdue
    rw [hnone] at hdue
    exact hdue rfl

omit h in
theorem sorted_dueOwners : (m.dueOwners nowUnixMs).Pairwise (· < ·) := by
  unfold dueOwners
  have hkeys : m.pendingEventScheduleByOwner.keys.Pairwise (A2aContextOwner.cmp · · = .lt) := ExtTreeMap.ordered_keys
  rw [← ExtTreeMap.map_fst_toList_eq_keys, List.pairwise_map] at hkeys
  rw [List.pairwise_filterMap]
  refine hkeys.imp fun {a b} hlt first hfirst second hsecond => ?_
  rw [Option.ite_none_right_eq_some, Option.some.injEq] at hfirst hsecond
  rw [← hfirst.2, ← hsecond.2]
  exact hlt

/-- **A batch is what is served of the rounds**, up to its limit. -/
theorem pendingEventsDueFairBatch_eq (hpositive : 0 < maxTotal) (hpositiveOwner : 0 < maxPerOwner) :
    m.pendingEventsDueFairBatch nowUnixMs maxTotal maxPerOwner cursor =
      let entries := (rounds (m.dueEvents nowUnixMs) (turns (m.dueOwners nowUnixMs) cursor) maxPerOwner).take maxTotal
      (entries.map Prod.snd, (entries.getLast?.map Prod.fst).or cursor) := by
  unfold pendingEventsDueFairBatch
  dsimp only
  by_cases hnone : m.dueOwners nowUnixMs = []
  · have hempty : rounds (m.dueEvents nowUnixMs) (turns (m.dueOwners nowUnixMs) cursor) maxPerOwner = [] := by
      refine List.eq_nil_iff_forall_not_mem.mpr fun entry hmem => ?_
      obtain ⟨k, -, hround⟩ := List.mem_flatMap.mp hmem
      have howner := mem_turns.mp (mem_round.mp hround).1
      rw [hnone] at howner
      cases howner
    rw [hempty, if_pos hnone, ite_self, List.take_nil]
    rfl
  · have hfirst : ¬ (maxTotal = 0 ∨ maxPerOwner = 0 ∨
        m.pendingEventSchedule.keys.head?.all (fun key => nowUnixMs < key.nextAttemptAtUnixMs) = true) := by
      obtain ⟨owner, howner⟩ := List.exists_mem_of_ne_nil _ hnone
      obtain ⟨key, hkey⟩ := List.exists_mem_of_ne_nil _ (mem_dueOwners.mp howner)
      obtain ⟨⟨id, event, hget, -, hfrom⟩, hdue⟩ := (h.byOwner.keys owner).mem_dueKeys.mp hkey
      have hglobal : key ∈ dueKeys m.pendingEventSchedule nowUnixMs := h.all.mem_dueKeys.mpr ⟨⟨id, event, hget, hfrom⟩, hdue⟩
      have hhead := head_due.mpr (List.ne_nil_of_mem hglobal)
      obtain ⟨first, hhead, hle⟩ := (Option.any_eq_true _ _).mp hhead
      rw [decide_eq_true_eq] at hle
      rintro (hzero | hzero | hlater)
      · omega
      · omega
      · rw [hhead, Option.all_some, decide_eq_true_eq] at hlater
        omega
    rw [if_neg hfirst, if_neg hnone, selectInTurn_eq _ _ _ (by simpa using hpositive)]
    have hselection : m.selection nowUnixMs ((List.range maxPerOwner).flatMap fun ownerItem =>
        (turns (m.dueOwners nowUnixMs) cursor).map (ownerItem, ·)) =
        rounds (m.dueEvents nowUnixMs) (turns (m.dueOwners nowUnixMs) cursor) maxPerOwner := by
      unfold selection rounds Library.round
      rw [List.filterMap_flatMap]
      refine List.flatMap_congr fun ownerItem _ => ?_
      rw [List.filterMap_map]
      refine List.filterMap_congr fun owner _ => ?_
      show (m.dueEvent nowUnixMs owner ownerItem).map (owner, ·) = _
      rw [dueEvent_eq h]
    have hstart : (cursor.map fun last => ((m.dueOwners nowUnixMs).takeWhile (· ≤ last)).length).getD 0 =
        turnStart (m.dueOwners nowUnixMs) cursor := by
      cases cursor <;> rfl
    have hiterations : ((List.range maxPerOwner).flatMap fun ownerItem =>
        (List.range (m.dueOwners nowUnixMs).length).filterMap fun ownerOffset =>
          ((m.dueOwners nowUnixMs)[(turnStart (m.dueOwners nowUnixMs) cursor + ownerOffset) %
            (m.dueOwners nowUnixMs).length]?).map (ownerItem, ·)) =
        (List.range maxPerOwner).flatMap fun ownerItem => (turns (m.dueOwners nowUnixMs) cursor).map (ownerItem, ·) := by
      refine List.flatMap_congr fun ownerItem _ => ?_
      rw [← turns_eq_filterMap, List.map_filterMap]
    rw [hstart, hiterations, hselection]
    rfl

end Indexed

/-! ### Fairness -/

/-- An event of this id is due, and it is of this owner. -/
def Due (m : A2aMapper) (nowUnixMs : Nat) (owner : A2aContextOwner) (eventId : String) : Prop :=
  ∃ event, m.pendingEvents[eventId]? = some event ∧ IsDue nowUnixMs owner event

/-- A batch within its limits: due events, none of them twice, and of each owner those that its schedule has first. -/
structure FairBatch (m : A2aMapper) (nowUnixMs maxTotal maxPerOwner : Nat) (batch : List A2aPendingEventIntent) :
    Prop where
  due : ∀ event ∈ batch, m.pendingEvents[event.eventId]? = some event ∧ IsDue nowUnixMs event.owner event
  total : batch.length ≤ maxTotal
  perOwner : ∀ owner, (batch.filter fun event => event.owner = owner).length ≤ maxPerOwner
  nodup : (batch.map (·.eventId)).Nodup
  inOrder : ∀ owner, ∃ later, ((batch.filter fun event => event.owner = owner) ++ later).Pairwise Before ∧
    ∀ event, event ∈ (batch.filter fun event => event.owner = owner) ++ later ↔
      m.pendingEvents[event.eventId]? = some event ∧ IsDue nowUnixMs owner event

section Indexed

variable (h : Indexed m.pendingEvents m.pendingEventSchedule m.pendingEventScheduleByOwner m.dispatchEventReadiness)
include h

theorem due_iff {eventId : String} :
    Due m nowUnixMs owner eventId ↔ ∃ event ∈ m.dueEvents nowUnixMs owner, event.eventId = eventId := by
  constructor
  · rintro ⟨event, hget, hdue⟩
    have hid := h.own_id eventId event hget
    exact ⟨event, (mem_dueEvents h).mpr ⟨hid ▸ hget, hdue⟩, hid⟩
  · rintro ⟨event, hmem, rfl⟩
    exact ⟨event, (mem_dueEvents h).mp hmem⟩

/-- The owners of the batch are those that have a due event. -/
theorem mem_dueOwners_iff_due : owner ∈ m.dueOwners nowUnixMs ↔ ∃ eventId, Due m nowUnixMs owner eventId := by
  rw [mem_dueOwners_iff h]
  constructor
  · intro hne
    obtain ⟨event, hmem⟩ := List.exists_mem_of_ne_nil _ hne
    exact ⟨event.eventId, (due_iff h).mpr ⟨event, hmem, rfl⟩⟩
  · rintro ⟨eventId, hdue⟩
    obtain ⟨event, hmem, -⟩ := (due_iff h).mp hdue
    exact List.ne_nil_of_mem hmem

/-- How many owners have a due event. -/
theorem ncard_due : {owner | ∃ eventId, Due m nowUnixMs owner eventId}.ncard = (m.dueOwners nowUnixMs).length := by
  have hset : {owner | ∃ eventId, Due m nowUnixMs owner eventId} =
      ((m.dueOwners nowUnixMs).toFinset : Set A2aContextOwner) := by
    ext owner
    rw [List.coe_toFinset, Set.mem_ofPred_eq, Set.mem_ofPred_eq, mem_dueOwners_iff_due h]
  rw [hset, Set.ncard_coe_finset, List.toFinset_card_of_nodup (nodup_of_sorted sorted_dueOwners)]

/-- What is served of the rounds are due events of the owners that they are served to. -/
theorem due_of_served {entry : A2aContextOwner × A2aPendingEventIntent} {clients : List A2aContextOwner}
    (hmem : entry ∈ (rounds (m.dueEvents nowUnixMs) clients maxPerOwner).take maxTotal) :
    entry.2.owner = entry.1 ∧ m.pendingEvents[entry.2.eventId]? = some entry.2 ∧ IsDue nowUnixMs entry.1 entry.2 := by
  obtain ⟨k, -, hround⟩ := List.mem_flatMap.mp (List.mem_of_mem_take hmem)
  obtain ⟨hget, hdue⟩ := (mem_dueEvents h).mp (List.mem_of_getElem? (mem_round.mp hround).2)
  exact ⟨hdue.1, hget, hdue⟩

theorem fairBatch (maxTotal maxPerOwner : Nat) (cursor : Option A2aContextOwner) :
    FairBatch m nowUnixMs maxTotal maxPerOwner
      (m.pendingEventsDueFairBatch nowUnixMs maxTotal maxPerOwner cursor).1 := by
  by_cases hzero : maxTotal = 0 ∨ maxPerOwner = 0
  · have hempty : (m.pendingEventsDueFairBatch nowUnixMs maxTotal maxPerOwner cursor).1 = [] := by
      unfold pendingEventsDueFairBatch
      rw [if_pos (hzero.imp_right .inl)]
    rw [hempty]
    exact ⟨by simp, Nat.zero_le _, fun _ => Nat.zero_le _, List.nodup_nil, fun owner =>
      ⟨m.dueEvents nowUnixMs owner, pairwise_dueEvents h, fun _ => mem_dueEvents h⟩⟩
  · rw [not_or] at hzero
    rw [pendingEventsDueFairBatch_eq h (Nat.pos_of_ne_zero hzero.1) (Nat.pos_of_ne_zero hzero.2)]
    dsimp only
    generalize hentries : (rounds (m.dueEvents nowUnixMs) (turns (m.dueOwners nowUnixMs) cursor) maxPerOwner).take
      maxTotal = entries
    have hserved : ∀ entry ∈ entries, entry.2.owner = entry.1 ∧ m.pendingEvents[entry.2.eventId]? = some entry.2 ∧
        IsDue nowUnixMs entry.1 entry.2 := fun entry hmem => due_of_served h (hentries ▸ hmem)
    have howners : (turns (m.dueOwners nowUnixMs) cursor).Nodup := nodup_turns sorted_dueOwners
    have hitems : ∀ owner, (entries.map Prod.snd).filter (fun event => event.owner = owner) = itemsOf owner entries := by
      intro owner
      unfold itemsOf
      rw [List.filter_map]
      refine congrArg (List.map Prod.snd) (List.filter_congr fun entry hmem => ?_)
      show decide (entry.2.owner = owner) = decide (entry.1 = owner)
      rw [(hserved entry hmem).1]
    have hfront : ∀ owner, itemsOf owner entries <+: (m.dueEvents nowUnixMs owner).take maxPerOwner := fun owner =>
      hentries ▸ served_rounds howners
    refine ⟨?_, ?_, fun owner => ?_, ?_, fun owner => ?_⟩
    · intro event hmem
      obtain ⟨entry, hentry, rfl⟩ := List.mem_map.mp hmem
      obtain ⟨howner, hget, hdue⟩ := hserved entry hentry
      exact ⟨hget, howner.symm ▸ hdue⟩
    · rw [List.length_map, ← hentries]
      exact List.length_take_le _ _
    · rw [hitems]
      exact Nat.le_trans (hfront owner).length_le (List.length_take_le _ _)
    · have hnodup : entries.Nodup :=
        hentries ▸ (nodup_rounds howners fun _ => nodup_dueEvents h).sublist (List.take_sublist _ _)
      rw [List.map_map]
      refine List.Nodup.map_on (fun a ha b hb hid => ?_) hnodup
      obtain ⟨hown, hget, -⟩ := hserved a ha
      obtain ⟨hown', hget', -⟩ := hserved b hb
      have hsame : a.2 = b.2 := by
        rw [show a.2.eventId = b.2.eventId from hid, hget', Option.some.injEq] at hget
        exact hget.symm
      exact Prod.ext (by rw [← hown, ← hown', hsame]) hsame
    · obtain ⟨later, hlater⟩ := (hfront owner).trans (List.take_prefix _ _)
      refine ⟨later, ?_⟩
      rw [hitems, hlater]
      exact ⟨pairwise_dueEvents h, fun _ => mem_dueEvents h⟩

end Indexed

/-- The cursor before each of the calls of a recovery loop, which meet the mapper as it is then. -/
def cursorAt (m : Nat → A2aMapper) (now : Nat → Nat) (maxTotal maxPerOwner : Nat) (cursor : Option A2aContextOwner) :
    Nat → Option A2aContextOwner
  | 0 => cursor
  | i + 1 => ((m i).pendingEventsDueFairBatch (now i) maxTotal maxPerOwner
      (cursorAt m now maxTotal maxPerOwner cursor i)).2

/-- The batch of each of the calls. -/
def batchAt (m : Nat → A2aMapper) (now : Nat → Nat) (maxTotal maxPerOwner : Nat) (cursor : Option A2aContextOwner)
    (i : Nat) : List A2aPendingEventIntent :=
  ((m i).pendingEventsDueFairBatch (now i) maxTotal maxPerOwner (cursorAt m now maxTotal maxPerOwner cursor i)).1

section Runs

variable {m : Nat → A2aMapper} {now : Nat → Nat}

/-- An owner that has a due event at every call of the window gets one in it. -/
theorem exists_batch (h : ∀ i, Indexed (m i).pendingEvents (m i).pendingEventSchedule (m i).pendingEventScheduleByOwner
    (m i).dispatchEventReadiness) (htotal : 0 < maxTotal) (hperOwner : 0 < maxPerOwner)
    (hdue : ∀ i owner eventId, Due (m (i + 1)) (now (i + 1)) owner eventId → Due (m i) (now i) owner eventId)
    (start : Nat) (howner : ∀ j < ((m 0).dueOwners (now 0)).length ⌈/⌉ maxTotal,
      ∃ eventId, Due (m (start + j)) (now (start + j)) owner eventId)
    (hfirst : ∃ eventId, Due (m start) (now start) owner eventId) :
    ∃ j < ((m 0).dueOwners (now 0)).length ⌈/⌉ maxTotal,
      ∃ event ∈ batchAt m now maxTotal maxPerOwner cursor (start + j), event.owner = owner := by
  have hall : ∀ i, (m i).dueOwners (now i) ⊆ (m 0).dueOwners (now 0) := by
    intro i
    induction i with
    | zero => exact List.Subset.refl _
    | succ i ih =>
      intro owner hmem
      obtain ⟨eventId, hevent⟩ := (mem_dueOwners_iff_due (h _)).mp hmem
      exact ih ((mem_dueOwners_iff_due (h _)).mpr ⟨eventId, hdue i owner eventId hevent⟩)
  have hserves : ∀ i, Serves maxTotal ((m i).dueOwners (now i)) (cursorAt m now maxTotal maxPerOwner cursor i)
      ((batchAt m now maxTotal maxPerOwner cursor i).map (·.owner))
      (cursorAt m now maxTotal maxPerOwner cursor (i + 1)) := by
    intro i
    have hitems : ∀ owner ∈ (m i).dueOwners (now i), (m i).dueEvents (now i) owner ≠ [] := fun owner hmem =>
      (mem_dueOwners_iff (h i)).mp hmem
    have hserved := serves_rounds htotal hperOwner hitems (cursorAt m now maxTotal maxPerOwner cursor i)
    unfold batchAt
    rw [cursorAt, pendingEventsDueFairBatch_eq (h i) htotal hperOwner]
    dsimp only
    rw [List.map_map]
    have hsame : ∀ entry ∈ (rounds ((m i).dueEvents (now i)) (turns ((m i).dueOwners (now i))
        (cursorAt m now maxTotal maxPerOwner cursor i)) maxPerOwner).take maxTotal,
        ((·.owner) ∘ Prod.snd) entry = Prod.fst entry := fun entry hmem => (due_of_served (h i) hmem).1
    rw [List.map_congr_left hsame]
    exact hserved
  obtain ⟨j, hj, hmem⟩ := exists_served htotal (fun i => sorted_dueOwners)
    (nodup_of_sorted sorted_dueOwners) hall hserves start
    (fun j hj => (mem_dueOwners_iff_due (h _)).mpr (howner j hj)) (hall start ((mem_dueOwners_iff_due (h _)).mpr hfirst))
  obtain ⟨event, hevent, heq⟩ := List.mem_map.mp hmem
  exact ⟨j, hj, event, hevent, heq⟩

/-- Where what is not returned stays due, an event that is due when the window starts is due until its owner gets
one. -/
theorem due_until (hstays : ∀ i owner eventId, Due (m i) (now i) owner eventId →
      (∀ event ∈ batchAt m now maxTotal maxPerOwner cursor i, event.owner ≠ owner) →
      Due (m (i + 1)) (now (i + 1)) owner eventId)
    {start window : Nat} {eventId : String} (hfirst : Due (m start) (now start) owner eventId)
    (hnever : ∀ j < window, ∀ event ∈ batchAt m now maxTotal maxPerOwner cursor (start + j), event.owner ≠ owner) :
    ∀ j ≤ window, Due (m (start + j)) (now (start + j)) owner eventId := by
  intro j hj
  induction j with
  | zero => exact hfirst
  | succ j ih => exact hstays _ _ _ (ih (Nat.le_of_succ_le hj)) (hnever j hj)

end Runs

/-- **Fair recovery.** While the due events do not get more, every batch keeps to its limits, returns nothing twice
and takes the events of each owner in the order of its schedule. An owner that has a due event at every call of a
window gets one in it, and where only what is returned may be settled, so does one that has a due event at its start:
as many calls are enough as it takes to serve each of the first owners once. -/
theorem recovery_fair [Digest] (log : Nat → List A2aOperation) (now : Nat → Nat) (cursor : Option A2aContextOwner)
    (maxTotal maxPerOwner : Nat) (htotal : 0 < maxTotal) (hperOwner : 0 < maxPerOwner)
    (hdue : ∀ i owner eventId, Due (.afterRun (log (i + 1))) (now (i + 1)) owner eventId →
      Due (.afterRun (log i)) (now i) owner eventId) :
    let m := fun i => A2aMapper.afterRun (log i)
    let batches := batchAt m now maxTotal maxPerOwner cursor
    let window := {owner | ∃ eventId, Due (m 0) (now 0) owner eventId}.ncard ⌈/⌉ maxTotal
    (∀ i, FairBatch (m i) (now i) maxTotal maxPerOwner (batches i)) ∧
      (∀ start owner, (∀ j ≤ window, ∃ eventId, Due (m (start + j)) (now (start + j)) owner eventId) →
        ∃ j < window, ∃ event ∈ batches (start + j), event.owner = owner) ∧
      ((∀ i owner eventId, Due (m i) (now i) owner eventId → eventId ∉ (batches i).map (·.eventId) →
          Due (m (i + 1)) (now (i + 1)) owner eventId) →
        ∀ start owner, (∃ eventId, Due (m start) (now start) owner eventId) →
          ∃ j < window, ∃ event ∈ batches (start + j), event.owner = owner) := by
  intro m batches window
  have h := fun i => (kept_afterRun (log i)).indexed
  have hwindow : window = ((m 0).dueOwners (now 0)).length ⌈/⌉ maxTotal := congrArg (· ⌈/⌉ maxTotal) (ncard_due (h 0))
  refine ⟨fun i => fairBatch (h i) _ _ _, fun start owner hevery => ?_, fun hstays start owner hfirst => ?_⟩
  · rw [hwindow] at hevery ⊢
    exact exists_batch h htotal hperOwner hdue start (fun j hj => hevery j (Nat.le_of_lt hj)) (hevery 0 (Nat.zero_le _))
  · by_contra hnever
    push Not at hnever
    obtain ⟨eventId, hevent⟩ := hfirst
    have hstill := due_until (fun i owner eventId hevent hout => hstays i owner eventId hevent fun hmem => ?_) hevent hnever
    · rw [hwindow] at hstill hnever
      obtain ⟨j, hj, event, hmem, howner⟩ := exists_batch h htotal hperOwner hdue start
        (fun j hj => ⟨eventId, hstill j (Nat.le_of_lt hj)⟩) ⟨eventId, hevent⟩
      exact hnever j hj event hmem howner
    · obtain ⟨returned, hreturned, rfl⟩ := List.mem_map.mp hmem
      obtain ⟨hget, -⟩ := (fairBatch (h i) _ _ _).due returned hreturned
      obtain ⟨stored, hstored, howner, -⟩ := hevent
      rw [hget, Option.some.injEq] at hstored
      exact hout returned hreturned (hstored ▸ howner)

/-- Messages of two principals to an agent. -/
def twoSends : List A2aOperation :=
  [.prepareSendMessage (fun _ => none) ⟨"m-1", some "chat", none, .user, [.text "hello"], ∅⟩
      ⟨"c-1", "r-1", none, none⟩ (some ⟨"alice", none, scopes [sendMessageScope]⟩) 0,
    .prepareSendMessage (fun _ => none) ⟨"m-1", some "chat", none, .user, [.text "hello"], ∅⟩
      ⟨"c-1", "r-1", none, none⟩ (some ⟨"bob", none, scopes [sendMessageScope]⟩) 0]

/-- With batches of one event, each of them gets one in as many calls as there are owners. -/
theorem recovery_fair_twoSends :
    let _ : Digest := sha256
    ∀ start owner, (∃ eventId, Due (.afterRun twoSends) 0 owner eventId) →
      ∃ j < {owner | ∃ eventId, Due (.afterRun twoSends) 0 owner eventId}.ncard ⌈/⌉ 1,
        ∃ event ∈ batchAt (fun _ => .afterRun twoSends) (fun _ => 0) 1 1 none (start + j), event.owner = owner := by
  intro inst start owner hdue
  exact (recovery_fair (fun _ => twoSends) (fun _ => 0) none 1 1 (by decide) (by decide)
    fun _ _ _ hdue => hdue).2.1 start owner fun _ _ => hdue

end A2aMapper

end AikitRuntime.A2a
