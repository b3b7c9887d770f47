import AikitRuntime.A2a.Capacities

/-!
# Indexes of the events

Three indexes say what can be read off the events: which are to be published and when, for everyone and for
each owner, and how many of a dispatch's events are settled. They are kept up to date at every insertion and
replacement, and built anew from the events when a mapper is restored (`rebuild…`).

An index is known by what it holds: `Holds` and `HoldsByOwner` for the schedules, `Counts` for the numbers.
Two indexes that hold the same are equal, so what is kept up to date is what would be rebuilt.
-/

namespace AikitRuntime.A2a

open Library Durability Mcp Std A2aPendingEventScheduleKey

/-! ### Rebuilding -/

/-- `rebuild_pending_event_schedule`. -/
def rebuildPendingEventSchedule (events : BTreeMap A2aPendingEventIntent) : Schedule :=
  (events.values.filterMap fromEvent).foldl (fun schedule key => schedule.insert key ()) ∅

/-- The schedules of all owners. -/
abbrev Schedules : Type := ExtTreeMap A2aContextOwner Schedule A2aContextOwner.cmp

/-- The loop of `rebuild_pending_event_schedule_by_owner`. -/
def scheduleForOwner (schedules : Schedules) (event : A2aPendingEventIntent) : Schedules :=
  match fromEvent event with
  | none => schedules
  | some key => schedules.insert event.owner ((schedules[event.owner]?.getD ∅).insert key ())

/-- `rebuild_pending_event_schedule_by_owner`. -/
def rebuildPendingEventScheduleByOwner (events : BTreeMap A2aPendingEventIntent) : Schedules :=
  events.values.foldl scheduleForOwner ∅

/-- `rebuild_dispatch_event_readiness`. -/
def rebuildDispatchEventReadiness (events : BTreeMap A2aPendingEventIntent) : Readiness :=
  events.values.foldl addDispatchEventReadiness ∅

/-! ### Schedules -/

section Schedules

variable {schedule schedule' : Schedule} {schedules schedules' : Schedules}
  {P P' : A2aPendingEventScheduleKey → Prop} {Q Q' : A2aContextOwner → A2aPendingEventScheduleKey → Prop}
  {event : A2aPendingEventIntent} {key : A2aPendingEventScheduleKey} {owner : A2aContextOwner}

/-- A schedule has these keys. -/
def Holds (P : A2aPendingEventScheduleKey → Prop) (schedule : Schedule) : Prop :=
  ∀ key, schedule[key]? = some () ↔ P key

/-- The schedules of the owners have these keys, and an owner without keys has none. -/
structure HoldsByOwner (Q : A2aContextOwner → A2aPendingEventScheduleKey → Prop) (schedules : Schedules) : Prop where
  keys : ∀ owner, Holds (Q owner) (schedules[owner]?.getD ∅)
  kept : ∀ (owner : A2aContextOwner) (schedule : Schedule), schedules[owner]? = some schedule → schedule ≠ ∅

theorem Holds.congr (h : Holds P schedule) (hsame : ∀ key, P key ↔ P' key) : Holds P' schedule :=
  fun key => (h key).trans (hsame key)

theorem Holds.eq (h : Holds P schedule) (h' : Holds P schedule') : schedule = schedule' := by
  refine ExtTreeMap.ext_getElem? fun key => ?_
  have hsame : schedule[key]? = some () ↔ schedule'[key]? = some () := (h key).trans (h' key).symm
  cases hleft : schedule[key]? with
  | some _ => exact (hsame.mp hleft).symm
  | none =>
    cases hright : schedule'[key]? with
    | some _ =>
      rw [hsame.mpr hright] at hleft
      cases hleft
    | none => rfl

theorem holds_empty : Holds (fun _ => False) ∅ := fun key => by simp

theorem Holds.insert (key : A2aPendingEventScheduleKey) (h : Holds P schedule) :
    Holds (fun other => key = other ∨ P other) (schedule.insert key ()) := by
  intro other
  rw [getElem?_insert_map]
  by_cases hkey : key = other
  · simp [hkey]
  · simp [hkey, h other]

theorem Holds.erase (h : Holds P schedule) : Holds (fun other => key ≠ other ∧ P other) (schedule.erase key) := by
  intro other
  rw [getElem?_erase_map]
  by_cases hkey : key = other
  · simp [hkey]
  · simp [hkey, h other]

theorem HoldsByOwner.congr (h : HoldsByOwner Q schedules) (hsame : ∀ owner key, Q owner key ↔ Q' owner key) :
    HoldsByOwner Q' schedules :=
  ⟨fun owner => (h.keys owner).congr (hsame owner), h.kept⟩

theorem HoldsByOwner.eq (h : HoldsByOwner Q schedules) (h' : HoldsByOwner Q schedules') : schedules = schedules' := by
  refine ExtTreeMap.ext_getElem? fun owner => ?_
  have hsame := (h.keys owner).eq (h'.keys owner)
  cases hleft : schedules[owner]? with
  | none =>
    cases hright : schedules'[owner]? with
    | none => rfl
    | some schedule =>
      rw [hleft, hright, Option.getD_none, Option.getD_some] at hsame
      exact absurd hsame.symm (h'.kept owner schedule hright)
  | some schedule =>
    cases hright : schedules'[owner]? with
    | none =>
      rw [hleft, hright, Option.getD_none, Option.getD_some] at hsame
      exact absurd hsame (h.kept owner schedule hleft)
    | some schedule' => rw [hleft, hright, Option.getD_some, Option.getD_some] at hsame; rw [hsame]

theorem holdsByOwner_empty : HoldsByOwner (fun _ _ => False) ∅ :=
  ⟨fun _ => by rw [ExtTreeMap.getElem?_empty]; exact holds_empty, fun _ _ h => by simp at h⟩

/-- One more event in the schedule of its owner. -/
theorem HoldsByOwner.scheduled (h : HoldsByOwner Q schedules) (event : A2aPendingEventIntent) :
    HoldsByOwner (fun owner key => event.owner = owner ∧ fromEvent event = some key ∨
      Q owner key) (scheduleForOwner schedules event) := by
  unfold scheduleForOwner
  split
  · next hnone => exact h.congr fun owner key => by simp [hnone]
  · next key hsome =>
    refine ⟨fun owner => ?_, fun owner schedule hget => ?_⟩
    · rw [getElem?_insert_map]
      by_cases howner : event.owner = owner
      · subst howner
        rw [if_pos rfl, Option.getD_some]
        exact ((h.keys event.owner).insert _).congr fun key => by simp [hsome]
      · rw [if_neg howner]
        exact (h.keys owner).congr fun key => by simp [howner]
    · rw [getElem?_insert_map] at hget
      by_cases howner : event.owner = owner
      · rw [if_pos howner, Option.some.injEq] at hget
        rintro rfl
        have hkey := ((h.keys event.owner).insert key key).mpr (.inl rfl)
        rw [hget] at hkey
        simp at hkey
      · rw [if_neg howner] at hget
        exact h.kept owner schedule hget

variable {m : A2aMapper}

/-- What `withoutSchedule` leaves of the schedules of the owners. -/
theorem HoldsByOwner.unschedule (h : HoldsByOwner Q m.pendingEventScheduleByOwner) :
    HoldsByOwner (fun owner key => ¬ (event.owner = owner ∧ fromEvent event = some key) ∧
      Q owner key) (m.withoutSchedule event).pendingEventScheduleByOwner := by
  unfold A2aMapper.withoutSchedule
  split
  · next hnone => exact h.congr fun owner key => by simp [hnone]
  · next key hsome =>
    dsimp only
    have hkeys := h.keys event.owner
    split
    · next hmissing =>
      rw [hmissing, Option.getD_none] at hkeys
      refine h.congr fun owner other => ⟨fun hq => ⟨?_, hq⟩, fun hq => hq.2⟩
      rintro ⟨rfl, _⟩
      have hthere := (hkeys other).mpr hq
      simp at hthere
    · next schedule hget =>
      rw [hget, Option.getD_some] at hkeys
      have herased : Holds (fun other => key ≠ other ∧ Q event.owner other) (schedule.erase key) := hkeys.erase
      split
      · next hempty =>
        rw [ExtTreeMap.isEmpty_iff] at hempty
        rw [hempty] at herased
        refine ⟨fun owner => ?_, fun owner rest hrest => ?_⟩
        · rw [getElem?_erase_map]
          by_cases howner : event.owner = owner
          · subst howner
            rw [if_pos rfl, Option.getD_none]
            exact herased.congr fun other => by simp [hsome]
          · rw [if_neg howner]
            exact (h.keys owner).congr fun other => by simp [howner]
        · rw [getElem?_erase_map] at hrest
          by_cases howner : event.owner = owner
          · rw [if_pos howner] at hrest
            cases hrest
          · rw [if_neg howner] at hrest
            exact h.kept owner rest hrest
      · next hmore =>
        rw [ExtTreeMap.isEmpty_iff] at hmore
        refine ⟨fun owner => ?_, fun owner rest hrest => ?_⟩
        · rw [getElem?_insert_map]
          by_cases howner : event.owner = owner
          · subst howner
            rw [if_pos rfl, Option.getD_some]
            exact herased.congr fun other => by simp [hsome]
          · rw [if_neg howner]
            exact (h.keys owner).congr fun other => by simp [howner]
        · rw [getElem?_insert_map] at hrest
          by_cases howner : event.owner = owner
          · rw [if_pos howner, Option.some.injEq] at hrest
            exact hrest ▸ hmore
          · rw [if_neg howner] at hrest
            exact h.kept owner rest hrest

theorem HoldsByOwner.reschedule (h : HoldsByOwner Q m.pendingEventScheduleByOwner) :
    HoldsByOwner (fun owner key => event.owner = owner ∧ fromEvent event = some key ∨
      Q owner key) (m.withSchedule event).pendingEventScheduleByOwner := by
  have hschedule := h.scheduled event
  unfold scheduleForOwner at hschedule
  unfold A2aMapper.withSchedule
  split
  · next hnone =>
    rw [hnone] at hschedule
    simpa only [hnone] using hschedule
  · next key hsome =>
    rw [hsome] at hschedule
    simpa only [hsome] using hschedule

theorem Holds.unschedule (h : Holds P m.pendingEventSchedule) :
    Holds (fun key => ¬ (fromEvent event = some key) ∧ P key)
      (m.withoutSchedule event).pendingEventSchedule := by
  unfold A2aMapper.withoutSchedule
  split
  · next hnone => exact h.congr fun key => by simp [hnone]
  · next key hsome => exact h.erase.congr fun other => by simp [hsome]

theorem Holds.reschedule (h : Holds P m.pendingEventSchedule) :
    Holds (fun key => fromEvent event = some key ∨ P key)
      (m.withSchedule event).pendingEventSchedule := by
  unfold A2aMapper.withSchedule
  split
  · next hnone => exact h.congr fun key => by simp [hnone]
  · next key hsome => exact (h.insert _).congr fun other => by simp [hsome]

/-- What is rebuilt from some keys holds them. -/
theorem holds_foldl (keys : List A2aPendingEventScheduleKey) (h : Holds P schedule) :
    Holds (fun key => key ∈ keys ∨ P key) (keys.foldl (fun schedule key => schedule.insert key ()) schedule) := by
  induction keys generalizing P schedule with
  | nil => exact h.congr fun key => by simp
  | cons first rest ih => exact (ih (h.insert _)).congr fun key => by simp [eq_comm (a := first), or_left_comm, or_assoc]

theorem holdsByOwner_foldl (entries : List A2aPendingEventIntent) (h : HoldsByOwner Q schedules) :
    HoldsByOwner (fun owner key => (∃ event ∈ entries, event.owner = owner ∧
      fromEvent event = some key) ∨ Q owner key) (entries.foldl scheduleForOwner schedules) := by
  induction entries generalizing Q schedules with
  | nil => exact h.congr fun owner key => by simp
  | cons first rest ih =>
    exact (ih (h.scheduled first)).congr fun owner key => by simp [or_left_comm, or_assoc]

end Schedules

/-! ### Readiness -/

section Readiness

variable {readiness readiness' : Readiness} {count count' : A2aDispatchEventBinding → Nat × Nat}
  {event : A2aPendingEventIntent}

/-- One for an event that is bound to a dispatch. -/
def boundTo (binding : A2aDispatchEventBinding) (event : A2aPendingEventIntent) : Nat :=
  if A2aDispatchEventBinding.fromEvent event = some binding then 1 else 0

/-- One for such an event that is settled. -/
def settledFor (binding : A2aDispatchEventBinding) (event : A2aPendingEventIntent) : Nat :=
  if A2aDispatchEventBinding.fromEvent event = some binding ∧ event.state = .settled then 1 else 0

theorem settledFor_le (binding : A2aDispatchEventBinding) (event : A2aPendingEventIntent) :
    settledFor binding event ≤ boundTo binding event := by
  unfold settledFor boundTo
  split
  · next h =>
    simp only [h.1, if_true, Nat.le_refl]
  · exact Nat.zero_le _

theorem boundTo_le (binding : A2aDispatchEventBinding) (event : A2aPendingEventIntent) :
    boundTo binding event ≤ 1 := by
  unfold boundTo
  split <;> decide

/-- The numbers with one more event. -/
def countWith (count : A2aDispatchEventBinding → Nat × Nat) (event : A2aPendingEventIntent)
    (binding : A2aDispatchEventBinding) : Nat × Nat :=
  ((count binding).1 + boundTo binding event, (count binding).2 + settledFor binding event)

/-- The index has these numbers, and none for a dispatch without events. -/
def Counts (count : A2aDispatchEventBinding → Nat × Nat) (readiness : Readiness) : Prop :=
  ∀ binding, readiness[binding]? = if (count binding).1 = 0 then none else some (count binding)

theorem Counts.eq (h : Counts count readiness) (h' : Counts count readiness') : readiness = readiness' :=
  ExtTreeMap.ext_getElem? fun binding => by rw [h binding, h' binding]

theorem counts_empty : Counts (fun _ => (0, 0)) ∅ := fun binding => by simp

/-- One more event is counted, where the numbers are small enough. -/
theorem Counts.add (h : Counts count readiness) (hfits : ∀ binding, (count binding).1 < u64Max)
    (hsettled : ∀ binding, (count binding).2 ≤ (count binding).1) :
    Counts (countWith count event) (addDispatchEventReadiness readiness event) := by
  intro binding
  unfold addDispatchEventReadiness countWith boundTo settledFor
  cases hbound : A2aDispatchEventBinding.fromEvent event with
  | none =>
    simp only [reduceCtorEq, if_false, false_and, Nat.add_zero]
    exact h binding
  | some own =>
    dsimp only
    rw [getElem?_insert_map]
    by_cases hown : own = binding
    · subst hown
      have hfit := hfits own
      have hle := hsettled own
      have hcounts : readiness[own]?.getD (0, 0) = count own := by
        rw [h own]
        by_cases hzero : (count own).1 = 0
        · rw [if_pos hzero, Option.getD_none]
          exact Prod.ext hzero.symm (by omega)
        · rw [if_neg hzero, Option.getD_some]
      rw [hcounts]
      have hfirst : saturatingAdd (count own).1 1 = (count own).1 + 1 := by
        unfold saturatingAdd
        omega
      have hsecond : saturatingAdd (count own).2 1 = (count own).2 + 1 := by
        unfold saturatingAdd
        omega
      by_cases hstate : event.state = .settled
      · simp [hstate, hfirst, hsecond]
      · simp [hstate, hfirst]
    · simp only [hown, if_false, Option.some.injEq, false_and, Nat.add_zero]
      exact h binding

/-- An event that is counted is taken out again. -/
theorem Counts.remove (h : Counts (countWith count event) readiness) :
    Counts count (removeDispatchEventReadiness readiness event) := by
  intro binding
  have hthere := h binding
  unfold countWith boundTo settledFor at hthere
  unfold removeDispatchEventReadiness
  cases hbound : A2aDispatchEventBinding.fromEvent event with
  | none =>
    rw [hbound] at hthere
    simpa using hthere
  | some own =>
    have hown := h own
    simp only [countWith, boundTo, settledFor, hbound, if_true, true_and, Nat.add_one_ne_zero,
      if_false] at hown
    simp only [hown, Nat.add_sub_cancel]
    rw [hbound] at hthere
    by_cases hzero : (count own).1 = 0
    · rw [if_pos hzero, getElem?_erase_map]
      by_cases hsame : own = binding
      · subst hsame
        rw [if_pos rfl, if_pos hzero]
      · rw [if_neg hsame]
        simpa [hsame] using hthere
    · rw [if_neg hzero, getElem?_insert_map]
      by_cases hsame : own = binding
      · subst hsame
        rw [if_pos rfl, if_neg hzero]
        by_cases hstate : event.state = .settled
        · simp [hstate]
        · simp [hstate]
      · rw [if_neg hsame]
        simpa [hsame] using hthere

/-- What is rebuilt from some events counts them. -/
theorem counts_foldl (entries : List A2aPendingEventIntent) (h : Counts count readiness)
    (hfits : ∀ binding, (count binding).1 + entries.length < u64Max)
    (hsettled : ∀ binding, (count binding).2 ≤ (count binding).1) :
    Counts (fun binding => ((count binding).1 + (entries.map (boundTo binding)).sum,
      (count binding).2 + (entries.map (settledFor binding)).sum)) (entries.foldl addDispatchEventReadiness readiness) := by
  induction entries generalizing count readiness with
  | nil => exact h
  | cons first rest ih =>
    have hadded := @Counts.add _ _ first h
      (fun binding => Nat.lt_of_le_of_lt (Nat.le_add_right _ _) (hfits binding)) hsettled
    have hrest := ih hadded (fun binding => ?_) fun binding => ?_
    · refine fun binding => (hrest binding).trans ?_
      simp only [countWith, List.map_cons, List.sum_cons, Nat.add_assoc]
    · have hfit := hfits binding
      have hone := boundTo_le binding first
      simp only [countWith, List.length_cons] at hfit ⊢
      omega
    · exact Nat.add_le_add (hsettled binding) (settledFor_le binding first)

end Readiness

/-! ### The indexes of the mapper -/

/-- An event that is to be published then. -/
def IsScheduled (key : A2aPendingEventScheduleKey) (event : A2aPendingEventIntent) : Prop :=
  fromEvent event = some key

/-- An event of the owner that is to be published then. -/
def IsScheduledFor (owner : A2aContextOwner) (key : A2aPendingEventScheduleKey)
    (event : A2aPendingEventIntent) : Prop :=
  event.owner = owner ∧ fromEvent event = some key

/-- How many events are bound to a dispatch, and how many of them are settled. -/
def countIn (entries : BTreeMap A2aPendingEventIntent) (binding : A2aDispatchEventBinding) : Nat × Nat :=
  (total (fun _ => boundTo binding) entries, total (fun _ => settledFor binding) entries)

/-- The indexes of some events: every event is under its own id, and the indexes hold what the events say. -/
structure Indexed (entries : BTreeMap A2aPendingEventIntent) (schedule : Schedule) (schedules : Schedules)
    (readiness : Readiness) : Prop where
  own_id : ∀ (id : String) (event : A2aPendingEventIntent), entries[id]? = some event → event.eventId = id
  all : Holds (fun key => Listed entries (IsScheduled key)) schedule
  byOwner : HoldsByOwner (fun owner key => Listed entries (IsScheduledFor owner key)) schedules
  ready : Counts (countIn entries) readiness

theorem A2aPendingEventScheduleKey.fromEvent_eventId {event : A2aPendingEventIntent}
    {key : A2aPendingEventScheduleKey} (h : fromEvent event = some key) : key.eventId = event.eventId := by
  unfold fromEvent at h
  split at h
  · rw [← Option.some.inj h]
  · cases h

theorem countIn_le (entries : BTreeMap A2aPendingEventIntent) (binding : A2aDispatchEventBinding) :
    (countIn entries binding).1 ≤ entries.size ∧ (countIn entries binding).2 ≤ (countIn entries binding).1 := by
  rw [size_eq_total]
  exact ⟨total_le_total fun _ => boundTo_le binding, total_le_total fun _ => settledFor_le binding⟩

namespace Indexed

variable {m : A2aMapper} {entries : BTreeMap A2aPendingEventIntent} {schedule : Schedule} {schedules : Schedules}
  {readiness : Readiness} {id : String} {event current : A2aPendingEventIntent}

theorem empty : Indexed ∅ ∅ ∅ ∅ where
  own_id _ _ h := by simp at h
  all := holds_empty.congr fun key => ⟨False.elim, fun h => not_listed_empty h⟩
  byOwner := holdsByOwner_empty.congr fun owner key => ⟨False.elim, fun h => not_listed_empty h⟩
  ready := by
    refine fun binding => (counts_empty binding).trans ?_
    simp [countIn]

/-- Two events are not scheduled by one key. -/
theorem key_unique (h : Indexed entries schedule schedules readiness) (hget : entries[id]? = some current)
    {key : A2aPendingEventScheduleKey} {other : String} (hother : entries[other]? = some event)
    (hkey : fromEvent event = some key)
    (hcurrent : fromEvent current = some key) : other = id := by
  rw [← h.own_id id current hget, ← h.own_id other event hother,
    ← fromEvent_eventId hkey, fromEvent_eventId hcurrent]

/-- An event is taken out of the indexes. -/
theorem withoutEvent (h : Indexed entries m.pendingEventSchedule m.pendingEventScheduleByOwner readiness)
    (hget : entries[id]? = some current) :
    Indexed (entries.erase id) (m.withoutSchedule current).pendingEventSchedule
      (m.withoutSchedule current).pendingEventScheduleByOwner (removeDispatchEventReadiness readiness current) where
  own_id other event hother := by
    rw [getElem?_erase_map] at hother
    by_cases hkey : id = other
    · rw [if_pos hkey] at hother
      cases hother
    · rw [if_neg hkey] at hother
      exact h.own_id other event hother
  all := h.all.unschedule.congr fun key =>
    (listed_erase (p := IsScheduled key) hget fun other event hother hkey hcurrent =>
      h.key_unique hget hother hkey hcurrent).symm
  byOwner := h.byOwner.unschedule.congr fun owner key =>
    (listed_erase (p := IsScheduledFor owner key) hget fun other event hother hkey hcurrent =>
      h.key_unique hget hother hkey.2 hcurrent.2).symm
  ready := by
    refine Counts.remove fun binding => (h.ready binding).trans ?_
    have hcount : countIn entries binding = countWith (countIn (entries.erase id)) current binding := by
      unfold countWith countIn
      rw [← total_erase hget, ← total_erase hget]
    rw [hcount]

/-- An event is added to the indexes. -/
theorem withEvent (h : Indexed (entries.erase event.eventId) m.pendingEventSchedule m.pendingEventScheduleByOwner readiness)
    (hfits : (entries.erase event.eventId).size < u64Max) :
    Indexed (entries.insert event.eventId event) (m.withSchedule event).pendingEventSchedule
      (m.withSchedule event).pendingEventScheduleByOwner (addDispatchEventReadiness readiness event) where
  own_id other stored hother := by
    rw [getElem?_insert_map] at hother
    by_cases hkey : event.eventId = other
    · rw [if_pos hkey, Option.some.injEq] at hother
      rw [← hother, hkey]
    · rw [if_neg hkey] at hother
      exact h.own_id other stored (by rw [getElem?_erase_map, if_neg hkey, hother])
  all := h.all.reschedule.congr fun key => (listed_insert (p := IsScheduled key)).symm
  byOwner := h.byOwner.reschedule.congr fun owner key => (listed_insert (p := IsScheduledFor owner key)).symm
  ready := by
    have hadded : Counts (countWith (countIn (entries.erase event.eventId)) event)
        (addDispatchEventReadiness readiness event) :=
      h.ready.add (fun binding => Nat.lt_of_le_of_lt (countIn_le _ binding).1 hfits)
        fun binding => (countIn_le _ binding).2
    refine fun binding => (hadded binding).trans ?_
    have hgone : (entries.erase event.eventId)[event.eventId]? = none := by rw [getElem?_erase_map, if_pos rfl]
    have hcount : countWith (countIn (entries.erase event.eventId)) event binding =
        countIn (entries.insert event.eventId event) binding := by
      unfold countWith countIn
      rw [← insert_erase_self, total_insert_new hgone, total_insert_new hgone]
    rw [hcount]

/-- What is kept up to date is what would be rebuilt. -/
theorem rebuilt (h : Indexed entries schedule schedules readiness) (hfits : entries.size < u64Max) :
    schedule = rebuildPendingEventSchedule entries ∧ schedules = rebuildPendingEventScheduleByOwner entries ∧
      readiness = rebuildDispatchEventReadiness entries := by
  refine ⟨h.all.eq ?_, h.byOwner.eq ?_, h.ready.eq ?_⟩
  · refine (holds_foldl _ holds_empty).congr fun key => ?_
    rw [List.mem_filterMap, or_false]
    exact ⟨fun ⟨event, hmem, hkey⟩ => have ⟨id, hget⟩ := BTreeMap.mem_values.mp hmem
        ⟨id, event, hget, hkey⟩,
      fun ⟨id, event, hget, hkey⟩ => ⟨event, BTreeMap.mem_values.mpr ⟨id, hget⟩, hkey⟩⟩
  · refine (holdsByOwner_foldl _ holdsByOwner_empty).congr fun owner key => ?_
    rw [or_false]
    exact ⟨fun ⟨event, hmem, hkey⟩ => have ⟨id, hget⟩ := BTreeMap.mem_values.mp hmem
        ⟨id, event, hget, hkey⟩,
      fun ⟨id, event, hget, hkey⟩ => ⟨event, BTreeMap.mem_values.mpr ⟨id, hget⟩, hkey⟩⟩
  · have hrebuilt := counts_foldl entries.values counts_empty (fun _ => by
      rw [Nat.zero_add, BTreeMap.values, List.length_map, ExtTreeMap.length_toList]
      exact hfits) fun _ => Nat.le_refl 0
    refine fun binding => (hrebuilt binding).trans ?_
    have hcount : countIn entries binding = (0 + (entries.values.map (boundTo binding)).sum,
        0 + (entries.values.map (settledFor binding)).sum) := by
      rw [Nat.zero_add, Nat.zero_add, BTreeMap.values, List.map_map, List.map_map]
      rfl
    rw [hcount]

end Indexed

end AikitRuntime.A2a
