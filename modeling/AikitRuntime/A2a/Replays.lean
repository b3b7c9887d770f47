import AikitRuntime.A2a.EventStore

/-!
# What the event store remembers

Over every sequence of calls, the store knows each event under its identity for ever, the events of a task are numbered
in the order in which they were appended, and a bucket holds the newest of them. Only a bucket that ends with a terminal
event is ever evicted. A reader that goes from page to page gets the events of the task one after the other, or the
answer that some are gone.
-/

namespace AikitRuntime.A2a

open Library Durability Mcp Std

/-! ### Runs -/

/-- A call of the store. -/
inductive EventStoreCall where
  | append (call : AppendCall)
  | replayPage (owner : A2aEventOwner) (taskId : String) (afterEventId throughHighWater : Option Nat)
    (limits : A2aReplayLimits)

/-- The store, and the events it stored, in the order in which they were appended. -/
structure EventHistory where
  store : InMemoryA2aEventStore
  inserted : List A2aPersistedEvent

/-- The events of one task. -/
def eventsOf (inserted : List A2aPersistedEvent) (key : A2aEventKey) : List A2aPersistedEvent :=
  inserted.filter (·.key = key)

namespace EventHistory

/-- Nothing stored yet. -/
def start (maxBuckets maxBucketsPerOwner : Nat) : EventHistory :=
  ⟨⟨⟨∅, ∅, ∅, 0⟩, maxBuckets, maxBucketsPerOwner⟩, []⟩

/-- What an append came to. -/
def record (inserted : List A2aPersistedEvent) :
    Except A2aEventAppendError A2aEventAppendOutcome × InMemoryA2aEventStore → EventHistory
  | (.ok (.inserted event), store) => ⟨store, inserted ++ [event]⟩
  | (_, store) => ⟨store, inserted⟩

variable (h : EventHistory)

/-- The state after a call. A replay leaves it as it is. -/
def step : EventStoreCall → EventHistory
  | .append call => record h.inserted (h.store.append call)
  | .replayPage _ _ _ _ _ => h

/-- The state after calls. -/
def after (calls : List EventStoreCall) : EventHistory := calls.foldl step h

end EventHistory

/-! ### The invariant -/

/-- The sizes of the events in a bucket. -/
def bucketBytes (events : List (A2aPersistedEvent × Nat)) : Nat := (events.map (·.2)).sum

/-- A bucket holds the newest of the events of its task. -/
structure Buckets (events : List A2aPersistedEvent) (bucket : InMemoryEventBucket) : Prop where
  newest : bucket.events.map (·.1) <:+ events
  nonempty : bucket.events ≠ []
  sizes : ∀ entry ∈ bucket.events, entry.2 = entry.1.response.bytes
  retained : bucket.retainedBytes ≤ bucketBytes bucket.events
  terminal : ∀ entry, bucket.events.getLast? = some entry → bucket.terminal = entry.1.response.isTerminal

/-- What is so in every run: of the state of the store, and the events it stored. -/
structure Remembers (s : InMemoryEventStoreState) (inserted : List A2aPersistedEvent) : Prop where
  counted : ∀ key, Counted (·.eventId) (eventsOf inserted key)
  identified : ∀ event ∈ inserted, validateLogicalEventId event.logicalEventId = .ok ()
  logical : ∀ (id : String) (existing : InMemoryLogicalEvent), s.logicalEvents[id]? = some existing ↔
    existing.event ∈ inserted ∧ existing.event.logicalEventId = id ∧ existing.key = existing.event.key
  next : ∀ key, (eventsOf inserted key).length < s.nextId key
  exact : s.touchSequence < u64Max → ∀ key, s.nextId key = (eventsOf inserted key).length + 1
  buckets : ∀ (key : A2aEventKey) (bucket : InMemoryEventBucket),
    s.buckets[key]? = some bucket → Buckets (eventsOf inserted key) bucket

/-! ### Eviction -/

/-- Some terminal buckets were evicted, and nothing else happened. -/
structure Evicts (s s' : InMemoryEventStoreState) : Prop where
  logicalEvents : s'.logicalEvents = s.logicalEvents
  nextIds : s'.nextIds = s.nextIds
  touchSequence : s'.touchSequence = s.touchSequence
  kept : ∀ (key : A2aEventKey) (bucket : InMemoryEventBucket), s'.buckets[key]? = some bucket → s.buckets[key]? = some bucket
  evicted : ∀ (key : A2aEventKey) (bucket : InMemoryEventBucket), s.buckets[key]? = some bucket →
    s'.buckets[key]? = some bucket ∨ bucket.terminal = true

namespace Evicts

variable {s t u : InMemoryEventStoreState}

theorem refl (s : InMemoryEventStoreState) : Evicts s s := ⟨rfl, rfl, rfl, fun _ _ h => h, fun _ _ h => .inl h⟩

theorem trans (h : Evicts s t) (h' : Evicts t u) : Evicts s u where
  logicalEvents := h'.logicalEvents.trans h.logicalEvents
  nextIds := h'.nextIds.trans h.nextIds
  touchSequence := h'.touchSequence.trans h.touchSequence
  kept key bucket hbucket := h.kept key bucket (h'.kept key bucket hbucket)
  evicted key bucket hbucket := by
    obtain hkept | hterminal := h.evicted key bucket hbucket
    · exact h'.evicted key bucket hkept
    · exact .inr hterminal

end Evicts

theorem oldest_mem {entries : List (A2aEventKey × InMemoryEventBucket)} {entry : A2aEventKey × InMemoryEventBucket}
    (h : InMemoryEventStoreState.oldest entries = some entry) : entry ∈ entries := by
  induction entries generalizing entry with
  | nil => cases h
  | cons first rest ih =>
    rw [InMemoryEventStoreState.oldest] at h
    cases hrest : InMemoryEventStoreState.oldest rest with
    | none =>
      rw [hrest] at h
      cases h
      exact List.mem_cons_self
    | some other =>
      rw [hrest] at h
      dsimp only at h
      by_cases hlt : other.2.lastTouched < first.2.lastTouched
      · rw [if_pos hlt] at h
        exact List.mem_cons_of_mem _ (ih (hrest.trans h))
      · rw [if_neg hlt] at h
        cases h
        exact List.mem_cons_self

theorem evictOldestTerminalBucket_evicts (s : InMemoryEventStoreState) (owner : Option A2aEventOwner) :
    Evicts s (s.evictOldestTerminalBucket owner).2 := by
  unfold InMemoryEventStoreState.evictOldestTerminalBucket
  dsimp only
  generalize hcandidates : s.buckets.toList.filter _ = candidates
  cases holdest : InMemoryEventStoreState.oldest candidates with
  | none => exact .refl s
  | some candidate =>
    have hmem := oldest_mem holdest
    rw [← hcandidates] at hmem
    obtain ⟨hlisted, hterminal⟩ := List.mem_filter.mp hmem
    have hbucket := ExtTreeMap.mem_toList_iff_getElem?_eq_some.mp hlisted
    refine ⟨rfl, rfl, rfl, fun key bucket hkept => ?_, fun key bucket hkey => ?_⟩
    · dsimp only at hkept
      rw [ExtTreeMap.getElem?_erase] at hkept
      split at hkept
      · cases hkept
      · exact hkept
    · by_cases heq : candidate.1 = key
      · subst heq
        rw [hbucket] at hkey
        cases hkey
        exact .inr (Bool.and_eq_true _ _ ▸ hterminal).1
      · refine .inl ?_
        dsimp only
        rw [ExtTreeMap.getElem?_erase, if_neg, hkey]
        simpa using heq

theorem ensureEventBucketCapacity_evicts (s : InMemoryEventStoreState) (owner : A2aEventOwner)
    (maxBuckets maxBucketsPerOwner : Nat) : Evicts s (s.ensureEventBucketCapacity owner maxBuckets maxBucketsPerOwner).2 := by
  unfold InMemoryEventStoreState.ensureEventBucketCapacity
  dsimp only
  have hone (found : Bool × InMemoryEventStoreState) (t : InMemoryEventStoreState) (owner : Option A2aEventOwner)
      (P : Prop) [Decidable P] (h : (if P then t.evictOldestTerminalBucket owner else (true, t)) = found) :
      Evicts t found.2 := by
    subst h
    by_cases hP : P
    · rw [if_pos hP]
      exact evictOldestTerminalBucket_evicts t owner
    · rw [if_neg hP]
      exact .refl t
  generalize hforOwner : (if maxBucketsPerOwner ≤ _ then s.evictOldestTerminalBucket (some owner) else (true, s)) =
    forOwner
  have hfirst := hone forOwner s (some owner) _ hforOwner
  cases hfound : !forOwner.1 with
  | true =>
    rw [if_pos rfl]
    exact hfirst
  | false =>
    rw [if_neg Bool.false_ne_true]
    generalize hglobal : (if maxBuckets ≤ _ then forOwner.2.evictOldestTerminalBucket none else (true, forOwner.2)) =
      global
    have hsecond := hone global forOwner.2 none _ hglobal
    cases hroom : !global.1 with
    | true =>
      rw [if_pos rfl]
      exact hfirst.trans hsecond
    | false =>
      rw [if_neg Bool.false_ne_true]
      exact hfirst.trans hsecond

theorem admit_evicts (s : InMemoryEventStoreState) (call : AppendCall) (maxBuckets maxBucketsPerOwner : Nat) :
    Evicts s (s.admitBucket call maxBuckets maxBucketsPerOwner).2 := by
  unfold InMemoryEventStoreState.admitBucket
  cases hbucket : s.buckets[call.key]? with
  | none => exact ensureEventBucketCapacity_evicts s call.owner maxBuckets maxBucketsPerOwner
  | some bucket =>
    dsimp only
    by_cases hterminal : bucket.terminal = true
    · rw [if_pos hterminal]
      exact .refl s
    · rw [if_neg hterminal]
      exact .refl s

/-- An eviction forgets no event. -/
theorem Remembers.evicts {s s' : InMemoryEventStoreState} {inserted : List A2aPersistedEvent}
    (h : Remembers s inserted) (hevicts : Evicts s s') : Remembers s' inserted where
  counted := h.counted
  identified := h.identified
  logical id existing := by
    rw [hevicts.logicalEvents]
    exact h.logical id existing
  next key := by
    unfold InMemoryEventStoreState.nextId
    rw [hevicts.nextIds]
    exact h.next key
  exact hlt key := by
    rw [hevicts.touchSequence] at hlt
    unfold InMemoryEventStoreState.nextId
    rw [hevicts.nextIds]
    exact h.exact hlt key
  buckets key bucket hbucket := h.buckets key bucket (hevicts.kept key bucket hbucket)

/-! ### Retention -/

theorem trim_suffix (retention : A2aEventRetention) (entries : List (A2aPersistedEvent × Nat)) (retained : Nat) :
    (trim retention entries retained).1 <:+ entries := by
  induction entries generalizing retained with
  | nil => exact List.suffix_refl _
  | cons entry rest ih =>
    rw [trim]
    split
    · exact (ih _).trans (List.suffix_cons entry rest)
    · exact List.suffix_refl _

/-- The newest event stays, and no more is counted than is there. -/
theorem trim_concat {retention : A2aEventRetention} (last : A2aPersistedEvent × Nat) (hevents : retention.maxEvents ≠ 0)
    (hbytes : last.2 ≤ retention.maxRetainedBytes) (front : List (A2aPersistedEvent × Nat)) (retained : Nat)
    (hretained : retained ≤ bucketBytes (front ++ [last])) :
    (trim retention (front ++ [last]) retained).1 ≠ [] ∧
      (trim retention (front ++ [last]) retained).2 ≤ bucketBytes (trim retention (front ++ [last]) retained).1 := by
  induction front generalizing retained with
  | nil =>
    have hle : retained ≤ last.2 := by simpa [bucketBytes] using hretained
    have hkeeps : ¬(retention.maxEvents < [].length (α := A2aPersistedEvent × Nat) + 1 ∨
        retention.maxRetainedBytes < retained) := by
      rw [List.length_nil]
      omega
    rw [List.nil_append, trim, if_neg hkeeps]
    exact ⟨List.cons_ne_nil _ _, hretained⟩
  | cons entry front ih =>
    rw [List.cons_append, trim]
    split
    · refine ih _ ?_
      have hsum : bucketBytes (entry :: (front ++ [last])) = entry.2 + bucketBytes (front ++ [last]) := rfl
      rw [List.cons_append, hsum] at hretained
      omega
    · exact ⟨List.cons_ne_nil _ _, hretained⟩

theorem validateEventLimits_eq_ok {limits : A2aEventRetention} (h : validateEventLimits limits = .ok ()) :
    limits.maxEvents ≠ 0 ∧ limits.maxEventBytes ≤ limits.maxRetainedBytes := by
  have hnot := refuseIf_eq_ok.mp h
  omega

/-- What a valid call is. -/
theorem AppendCall.validate_eq_ok {call : AppendCall} (h : call.validate = .ok ()) :
    validateEventLimits call.retention = .ok () ∧ validateLogicalEventId call.logicalEventId = .ok () ∧
      call.response.bytes ≤ call.retention.maxEventBytes := by
  obtain ⟨_, hlimits, h⟩ := bind_eq_ok.mp h
  obtain ⟨_, hid, h⟩ := bind_eq_ok.mp h
  exact ⟨hlimits, hid, Nat.not_lt.mp (refuseIf_eq_ok.mp h)⟩

/-- The newest of a list are the newest of a longer one, with its last. -/
theorem suffix_concat {α : Type} {xs ys : List α} (h : xs <:+ ys) (x : α) : xs ++ [x] <:+ ys ++ [x] := by
  obtain ⟨front, rfl⟩ := h
  exact ⟨front, (List.append_assoc front xs [x]).symm⟩

variable {bucket : InMemoryEventBucket}

/-- A bucket that gets one more event. -/
theorem InMemoryEventBucket.push_buckets {events : List A2aPersistedEvent}
    (h : Buckets events bucket ∨ bucket = .empty) {call : AppendCall} (hvalid : call.validate = .ok ())
    (eventId touchSequence : Nat) :
    Buckets (events ++ [call.event eventId]) (bucket.push call (call.event eventId) touchSequence) := by
  have hnewest : bucket.events.map (·.1) <:+ events := by
    obtain h | rfl := h
    · exact h.newest
    · exact List.nil_suffix
  have hsizes : ∀ entry ∈ bucket.events, entry.2 = entry.1.response.bytes := by
    obtain h | rfl := h
    · exact h.sizes
    · exact fun _ hmem => absurd hmem List.not_mem_nil
  have hretained : bucket.retainedBytes ≤ bucketBytes bucket.events := by
    obtain h | rfl := h
    · exact h.retained
    · exact Nat.le_refl _
  obtain ⟨hlimits, -, hfits⟩ := AppendCall.validate_eq_ok hvalid
  obtain ⟨hevents, hbytes⟩ := validateEventLimits_eq_ok hlimits
  have hsum : saturatingAdd bucket.retainedBytes call.response.bytes ≤
      bucketBytes (bucket.events ++ [(call.event eventId, call.response.bytes)]) := by
    unfold saturatingAdd bucketBytes at *
    rw [List.map_append, List.sum_append, List.map_singleton, List.sum_singleton]
    omega
  obtain ⟨hne, hkept⟩ := trim_concat (call.event eventId, call.response.bytes) hevents
    (Nat.le_trans hfits hbytes) bucket.events _ hsum
  have hsuffix := trim_suffix call.retention (bucket.events ++ [(call.event eventId, call.response.bytes)])
    (saturatingAdd bucket.retainedBytes call.response.bytes)
  unfold InMemoryEventBucket.push
  refine ⟨?_, hne, fun entry hentry => ?_, hkept, fun entry hentry => ?_⟩
  · have hmapped := hsuffix.map (·.1)
    rw [List.map_append, List.map_singleton] at hmapped
    exact hmapped.trans (suffix_concat hnewest _)
  · obtain hold | hnew := List.mem_append.mp (hsuffix.subset hentry)
    · exact hsizes entry hold
    · rw [List.mem_singleton.mp hnew]
      rfl
  · obtain ⟨front, hfront⟩ := hsuffix
    dsimp only at hentry
    have hlast := congrArg List.getLast? hfront
    rw [List.getLast?_append, hentry, List.getLast?_append] at hlast
    cases hlast
    rfl

/-! ### Append -/

theorem eventsOf_concat_self (inserted : List A2aPersistedEvent) (event : A2aPersistedEvent) :
    eventsOf (inserted ++ [event]) event.key = eventsOf inserted event.key ++ [event] := by
  unfold eventsOf
  rw [List.filter_append, List.filter_singleton, decide_eq_true rfl]
  rfl

variable {event : A2aPersistedEvent}

theorem eventsOf_concat_of_ne {inserted : List A2aPersistedEvent} {key : A2aEventKey}
    (hne : event.key ≠ key) : eventsOf (inserted ++ [event]) key = eventsOf inserted key := by
  unfold eventsOf
  rw [List.filter_append, List.filter_singleton, decide_eq_false hne]
  exact List.append_nil _

variable {s : InMemoryEventStoreState} {inserted : List A2aPersistedEvent} {call : AppendCall}

theorem nextId_insert (nextIds : ExtTreeMap A2aEventKey Nat A2aEventKey.cmp) (key other : A2aEventKey) (n : Nat) :
    ((nextIds.insert key n)[other]?).getD 1 = if key = other then n else (nextIds[other]?).getD 1 := by
  rw [ExtTreeMap.getElem?_insert]
  by_cases heq : key = other
  · rw [if_pos (LawfulEqCmp.compare_eq_iff_eq.mpr heq), if_pos heq]
    rfl
  · rw [if_neg (mt LawfulEqCmp.compare_eq_iff_eq.mp heq), if_neg heq]

/-- The counter of a task went on, but no event can be stored any more. -/
theorem Remembers.exhausted (h : Remembers s inserted) (htouch : u64Max ≤ s.touchSequence) (key : A2aEventKey) :
    Remembers { s with nextIds := s.nextIds.insert key (s.nextId key + 1) } inserted where
  counted := h.counted
  identified := h.identified
  logical := h.logical
  next other := by
    unfold InMemoryEventStoreState.nextId
    rw [nextId_insert]
    by_cases heq : key = other
    · rw [if_pos heq, ← heq]
      exact Nat.lt_succ_of_lt (h.next key)
    · rw [if_neg heq]
      exact h.next other
  exact hlt := absurd hlt (Nat.not_lt.mpr htouch)
  buckets := h.buckets

/-- **A new event** gets the next number of its task. -/
theorem Remembers.insert (h : Remembers s inserted) (hvalid : call.validate = .ok ())
    (hnew : s.logicalEvents[call.logicalEventId]? = none) (htouch : s.touchSequence < u64Max) :
    Remembers
      { touchSequence := s.touchSequence + 1
        nextIds := s.nextIds.insert call.key (s.nextId call.key + 1)
        buckets := s.buckets.insert call.key
          ((s.buckets[call.key]?.getD .empty).push call (call.event (s.nextId call.key)) (s.touchSequence + 1))
        logicalEvents := s.logicalEvents.insert call.logicalEventId ⟨call.key, call.event (s.nextId call.key)⟩ }
      (inserted ++ [call.event (s.nextId call.key)]) := by
  have hnext : s.nextId call.key = (eventsOf inserted call.key).length + 1 := h.exact htouch call.key
  generalize hevent : call.event (s.nextId call.key) = event
  have hkey : event.key = call.key := by rw [← hevent]; rfl
  have hid : event.logicalEventId = call.logicalEventId := by rw [← hevent]; rfl
  have hself : eventsOf (inserted ++ [event]) call.key = eventsOf inserted call.key ++ [event] := by
    rw [← hkey]
    exact eventsOf_concat_self inserted event
  have hothers : ∀ key, call.key ≠ key → eventsOf (inserted ++ [event]) key = eventsOf inserted key :=
    fun key hne => eventsOf_concat_of_ne (hkey ▸ hne)
  refine ⟨fun key => ?_, fun other hother => ?_, fun id existing => ?_, fun key => ?_, fun _ key => ?_,
    fun key bucket hbucket => ?_⟩
  · by_cases heq : call.key = key
    · subst heq
      rw [hself]
      refine (h.counted call.key).push ?_
      rw [← hevent, ← hnext]
      rfl
    · rw [hothers key heq]
      exact h.counted key
  · obtain hold | hlast := List.mem_append.mp hother
    · exact h.identified other hold
    · rw [List.mem_singleton.mp hlast, hid]
      exact (AppendCall.validate_eq_ok hvalid).2.1
  · -- no event was stored under this identity before
    have hfresh : ∀ other ∈ inserted, other.logicalEventId ≠ call.logicalEventId := by
      intro other hother heq
      have hstored := (h.logical call.logicalEventId ⟨other.key, other⟩).mpr ⟨hother, heq, rfl⟩
      rw [hnew] at hstored
      cases hstored
    rw [BTreeMap.get_insert, List.mem_append, List.mem_singleton]
    by_cases heq : call.logicalEventId = id
    · rw [if_pos heq, Option.some.injEq]
      constructor
      · rintro rfl
        exact ⟨.inr rfl, hid.trans heq, hkey.symm⟩
      · rintro ⟨hmem | hlast, hexisting, hsame⟩
        · exact absurd (hexisting.trans heq.symm) (hfresh _ hmem)
        · obtain ⟨key, stored⟩ := existing
          dsimp only at hlast hsame
          rw [hsame, hlast, hkey]
    · rw [if_neg heq, h.logical id existing]
      constructor
      · rintro ⟨hmem, hexisting, hsame⟩
        exact ⟨.inl hmem, hexisting, hsame⟩
      · rintro ⟨hmem | hlast, hexisting, hsame⟩
        · exact ⟨hmem, hexisting, hsame⟩
        · rw [hlast] at hexisting
          exact absurd (hid.symm.trans hexisting) heq
  · unfold InMemoryEventStoreState.nextId
    rw [nextId_insert]
    by_cases heq : call.key = key
    · subst heq
      rw [if_pos rfl, hself, List.length_append, List.length_singleton]
      exact Nat.succ_lt_succ (h.next call.key)
    · rw [if_neg heq, hothers key heq]
      exact h.next key
  · unfold InMemoryEventStoreState.nextId
    rw [nextId_insert]
    by_cases heq : call.key = key
    · subst heq
      rw [if_pos rfl, hself, List.length_append, List.length_singleton]
      exact congrArg (· + 1) hnext
    · rw [if_neg heq, hothers key heq]
      exact h.exact htouch key
  · dsimp only at hbucket
    rw [ExtTreeMap.getElem?_insert] at hbucket
    by_cases heq : call.key = key
    · subst heq
      rw [if_pos (LawfulEqCmp.compare_eq_iff_eq.mpr rfl), Option.some.injEq] at hbucket
      rw [hself, ← hbucket, ← hevent]
      refine InMemoryEventBucket.push_buckets ?_ hvalid _ _
      cases hold : s.buckets[call.key]? with
      | none => exact .inr rfl
      | some bucket => exact .inl (h.buckets call.key bucket hold)
    · rw [if_neg (mt LawfulEqCmp.compare_eq_iff_eq.mp heq)] at hbucket
      rw [hothers key heq]
      exact h.buckets key bucket hbucket

/-- What an append comes to. -/
inductive Appends (s : InMemoryEventStoreState) (inserted : List A2aPersistedEvent) (call : AppendCall) :
    Except A2aEventAppendError A2aEventAppendOutcome → InMemoryEventStoreState → Prop where
  | refused {s' : InMemoryEventStoreState} (error : A2aEventAppendError) (remembers : Remembers s' inserted) :
    Appends s inserted call (.error error) s'
  | existing {event : InMemoryLogicalEvent} (found : s.logicalEvents[call.logicalEventId]? = some event) :
    Appends s inserted call (.ok (.existing event.event)) s
  | inserted {s' : InMemoryEventStoreState} {eventId : Nat} (next : eventId = s.nextId call.key)
    (remembers : Remembers s' (inserted ++ [call.event eventId])) :
    Appends s inserted call (.ok (.inserted (call.event eventId))) s'

theorem Remembers.insertEvent (h : Remembers s inserted) (hvalid : call.validate = .ok ())
    (hnew : s.logicalEvents[call.logicalEventId]? = none) :
    Appends s inserted call (s.insertEvent call).1 (s.insertEvent call).2 := by
  unfold InMemoryEventStoreState.insertEvent
  dsimp only
  by_cases hlimit : s.nextId call.key = 0 ∨ maxEventId < s.nextId call.key
  · rw [if_pos hlimit]
    exact .refused _ h
  · rw [if_neg hlimit]
    have hfollowing : checkedAdd (s.nextId call.key) 1 = some (s.nextId call.key + 1) := by
      rw [checkedAdd_eq_some]
      unfold maxEventId at hlimit
      unfold u64Max
      omega
    rw [hfollowing]
    dsimp only
    cases htouch : checkedAdd s.touchSequence 1 with
    | none =>
      refine .refused _ (h.exhausted ?_ call.key)
      unfold checkedAdd at htouch
      split at htouch
      · cases htouch
      · omega
    | some touchSequence =>
      obtain ⟨rfl, hle⟩ := checkedAdd_eq_some.mp htouch
      exact .inserted rfl (h.insert hvalid hnew hle)

variable {store : InMemoryA2aEventStore}

theorem Remembers.append (h : Remembers store.state inserted) (call : AppendCall) :
    Appends store.state inserted call (store.append call).1 (store.append call).2.state := by
  unfold InMemoryA2aEventStore.append
  cases hvalid : call.validate with
  | error error => exact .refused _ h
  | ok _ =>
    dsimp only
    cases hfound : store.state.logicalEvents[call.logicalEventId]? with
    | some existing =>
      dsimp only
      unfold AppendCall.resolve
      split
      · exact .refused _ h
      · exact .existing hfound
    | none =>
      have hevicts := admit_evicts store.state call store.maxBuckets store.maxBucketsPerOwner
      generalize store.state.admitBucket call store.maxBuckets store.maxBucketsPerOwner = admitted at hevicts
      dsimp only
      cases hadmitted : admitted.1 with
      | error error => exact .refused error (h.evicts hevicts)
      | ok _ =>
        have hnew : admitted.2.logicalEvents[call.logicalEventId]? = none := by rw [hevicts.logicalEvents, hfound]
        have hinsert := (h.evicts hevicts).insertEvent hvalid hnew
        dsimp only
        generalize admitted.2.insertEvent call = done at hinsert ⊢
        obtain ⟨result, after⟩ := done
        dsimp only at hinsert ⊢
        cases hinsert with
        | refused error hremembers => exact .refused error hremembers
        | existing hstored =>
          rw [hnew] at hstored
          cases hstored
        | inserted hnext hremembers =>
          refine .inserted ?_ hremembers
          rw [hnext]
          unfold InMemoryEventStoreState.nextId
          rw [hevicts.nextIds]

/-! ### Runs keep the invariant -/

theorem remembers_start (maxBuckets maxBucketsPerOwner : Nat) :
    Remembers (EventHistory.start maxBuckets maxBucketsPerOwner).store.state [] where
  counted _ := .nil
  identified _ hmem := absurd hmem List.not_mem_nil
  logical id existing := by
    constructor
    · intro hstored
      rw [show (EventHistory.start maxBuckets maxBucketsPerOwner).store.state.logicalEvents = ∅ from rfl,
        BTreeMap.get_empty] at hstored
      cases hstored
    · rintro ⟨hmem, -⟩
      cases hmem
  next key := by
    show 0 < ((∅ : ExtTreeMap A2aEventKey Nat A2aEventKey.cmp)[key]?).getD 1
    rw [ExtTreeMap.getElem?_empty]
    exact Nat.zero_lt_one
  exact _ key := by
    show ((∅ : ExtTreeMap A2aEventKey Nat A2aEventKey.cmp)[key]?).getD 1 = 1
    rw [ExtTreeMap.getElem?_empty]
    rfl
  buckets key bucket hbucket := by
    rw [show (EventHistory.start maxBuckets maxBucketsPerOwner).store.state.buckets = ∅ from rfl,
      ExtTreeMap.getElem?_empty] at hbucket
    cases hbucket

/-- **A call.** -/
theorem Remembers.step {h : EventHistory} (hremembers : Remembers h.store.state h.inserted) (call : EventStoreCall) :
    Remembers (h.step call).store.state (h.step call).inserted := by
  cases call with
  | replayPage owner taskId afterEventId throughHighWater limits => exact hremembers
  | append call =>
    have happends := hremembers.append call
    rw [EventHistory.step]
    generalize h.store.append call = done at happends ⊢
    obtain ⟨result, after⟩ := done
    dsimp only at happends
    generalize hstate : after.state = state at happends
    cases happends with
    | refused error hafter => exact hstate ▸ hafter
    | existing hfound => exact hstate ▸ hremembers
    | inserted _ hafter => exact hstate ▸ hafter

/-- **A run.** -/
theorem Remembers.after {h : EventHistory} (hremembers : Remembers h.store.state h.inserted)
    (calls : List EventStoreCall) : Remembers (h.after calls).store.state (h.after calls).inserted := by
  induction calls generalizing h with
  | nil => exact hremembers
  | cons call calls ih => exact ih (hremembers.step call)

/-! ### Identities -/

/-- **An identity** that was stored before stands for the event that was stored. -/
theorem Remembers.known (h : Remembers store.state inserted)
    (hmem : event ∈ inserted) (hid : call.logicalEventId = event.logicalEventId)
    (hlimits : validateEventLimits call.retention = .ok ()) :
    if call.owner = event.owner ∧ call.taskId = event.taskId ∧ call.response = event.response ∧
        call.response.bytes ≤ call.retention.maxEventBytes then
      store.append call = (.ok (.existing event), store)
    else ∃ error, store.append call = (.error (.permanent error), store) := by
  have hfound : store.state.logicalEvents[call.logicalEventId]? = some ⟨event.key, event⟩ :=
    (h.logical _ _).mpr ⟨hmem, hid.symm, rfl⟩
  have hvalidate : call.validate =
      refuseIf (call.retention.maxEventBytes < call.response.bytes)
        (.conflict "A2A event exceeds the configured event byte limit") := by
    unfold AppendCall.validate
    rw [hlimits, ok_bind, hid, h.identified event hmem, ok_bind]
  by_cases hfits : call.response.bytes ≤ call.retention.maxEventBytes
  · rw [refuseIf_of_not (Nat.not_lt.mpr hfits)] at hvalidate
    have happend : store.append call = (call.resolve ⟨event.key, event⟩, store) := by
      unfold InMemoryA2aEventStore.append
      rw [hvalidate]
      dsimp only
      rw [hfound]
    rw [happend]
    unfold AppendCall.resolve
    by_cases hsame : call.owner = event.owner ∧ call.taskId = event.taskId ∧ call.response = event.response
    · obtain ⟨howner, htask, hresponse⟩ := hsame
      rw [if_pos ⟨howner, htask, hresponse, hfits⟩, if_neg]
      rintro (hkey | hother | hother | hother | hother)
      · exact hkey (congr (congrArg A2aEventKey.mk howner.symm) htask.symm)
      · exact hother hid.symm
      · exact hother howner.symm
      · exact hother htask.symm
      · exact hother hresponse.symm
    · rw [if_neg fun hall => hsame ⟨hall.1, hall.2.1, hall.2.2.1⟩, if_pos]
      · exact ⟨_, rfl⟩
      · by_contra hnone
        push Not at hnone
        exact hsame ⟨hnone.2.2.1.symm, hnone.2.2.2.1.symm, hnone.2.2.2.2.symm⟩
  · rw [if_neg fun hall => hfits hall.2.2.2]
    rw [refuseIf_of (Nat.not_le.mp hfits)] at hvalidate
    unfold InMemoryA2aEventStore.append
    rw [hvalidate]
    exact ⟨_, rfl⟩

/-! ### What is evicted -/

theorem insertEvent_kept (s : InMemoryEventStoreState) (call : AppendCall) (key : A2aEventKey)
    (h : (s.insertEvent call).2.buckets[key]? = none) : s.buckets[key]? = none := by
  unfold InMemoryEventStoreState.insertEvent at h
  dsimp only at h
  by_cases hlimit : s.nextId call.key = 0 ∨ maxEventId < s.nextId call.key
  · rw [if_pos hlimit] at h
    exact h
  · rw [if_neg hlimit] at h
    cases hfollowing : checkedAdd (s.nextId call.key) 1 with
    | none =>
      rw [hfollowing] at h
      exact h
    | some following =>
      rw [hfollowing] at h
      dsimp only at h
      cases htouch : checkedAdd s.touchSequence 1 with
      | none =>
        rw [htouch] at h
        exact h
      | some touchSequence =>
        rw [htouch] at h
        dsimp only at h
        rw [ExtTreeMap.getElem?_insert] at h
        split at h
        · cases h
        · exact h

/-- A bucket that an append removes was terminal. -/
theorem append_evicts (store : InMemoryA2aEventStore) (call : AppendCall) {key : A2aEventKey} (hbucket : store.state.buckets[key]? = some bucket)
    (hgone : (store.append call).2.state.buckets[key]? = none) : bucket.terminal = true := by
  have hstays {P : Prop} (h : store.state.buckets[key]? = none) : P := by
    rw [hbucket] at h
    cases h
  unfold InMemoryA2aEventStore.append at hgone
  cases hvalid : call.validate with
  | error error =>
    rw [hvalid] at hgone
    exact hstays hgone
  | ok _ =>
    rw [hvalid] at hgone
    dsimp only at hgone
    cases hfound : store.state.logicalEvents[call.logicalEventId]? with
    | some existing =>
      rw [hfound] at hgone
      exact hstays hgone
    | none =>
      rw [hfound] at hgone
      dsimp only at hgone
      have hevicts := admit_evicts store.state call store.maxBuckets store.maxBucketsPerOwner
      generalize store.state.admitBucket call store.maxBuckets store.maxBucketsPerOwner = admitted at hevicts hgone
      have hmissing : admitted.2.buckets[key]? = none := by
        cases hadmitted : admitted.1 with
        | error error =>
          rw [hadmitted] at hgone
          exact hgone
        | ok _ =>
          rw [hadmitted] at hgone
          exact insertEvent_kept admitted.2 call key hgone
      obtain hkept | hterminal := hevicts.evicted key bucket hbucket
      · rw [hmissing] at hkept
        cases hkept
      · exact hterminal

/-- **An evicted bucket** ended with a terminal event, the last of its task. -/
theorem Remembers.evicted {h : EventHistory} (hremembers : Remembers h.store.state h.inserted) (call : EventStoreCall)
    {key : A2aEventKey} (hbucket : h.store.state.buckets[key]? = some bucket)
    (hgone : (h.step call).store.state.buckets[key]? = none) :
    ∃ event, (bucket.events.map (·.1)).getLast? = some event ∧ (eventsOf h.inserted key).getLast? = some event ∧
      event.response.isTerminal = true := by
  have hterminal : bucket.terminal = true := by
    cases call with
    | replayPage owner taskId afterEventId throughHighWater limits =>
      rw [EventHistory.step, hbucket] at hgone
      cases hgone
    | append call =>
      refine append_evicts h.store call hbucket ?_
      rw [EventHistory.step] at hgone
      generalize h.store.append call = done at hgone ⊢
      obtain ⟨result, after⟩ := done
      match result with
      | .ok (.inserted event) => exact hgone
      | .ok (.existing event) => exact hgone
      | .error error => exact hgone
  have hholds := hremembers.buckets key bucket hbucket
  obtain ⟨entry, hentry⟩ := Option.ne_none_iff_exists'.mp (mt List.getLast?_eq_none_iff.mp hholds.nonempty)
  have hlast : (bucket.events.map (·.1)).getLast? = some entry.1 := by
    rw [List.getLast?_map, hentry]
    rfl
  refine ⟨entry.1, hlast, ?_, ?_⟩
  · obtain ⟨front, hfront⟩ := hholds.newest
    rw [← hfront, List.getLast?_append, hlast]
    rfl
  · rw [← hholds.terminal entry hentry]
    exact hterminal

/-! ### Pages -/

variable {limits : A2aReplayLimits}

variable {after : Nat} {entries : List (A2aPersistedEvent × Nat)}

/-- A page is a beginning of what is left, and is empty only where the first event does not fit. -/
theorem pageEvents_prefix {highWater : Nat} (hsorted : entries.Pairwise fun x y => x.1.eventId < y.1.eventId)
    (count bytes : Nat) :
    pageEvents (some after) highWater limits entries count bytes <+:
      between (·.eventId) after highWater (entries.map (·.1)) := by
  induction entries generalizing count bytes with
  | nil => exact List.prefix_refl _
  | cons entry rest ih =>
    obtain ⟨event, eventBytes⟩ := entry
    obtain ⟨hlater, hrest⟩ := List.pairwise_cons.mp hsorted
    rw [pageEvents, List.map_cons]
    unfold between at ih ⊢
    by_cases hseen : event.eventId ≤ after
    · rw [if_pos (by simpa using hseen), List.filter_cons_of_neg (by simp only [decide_eq_true_eq]; omega)]
      exact ih hrest count bytes
    rw [if_neg (by simpa using hseen)]
    by_cases hbeyond : highWater < event.eventId
    · rw [if_pos hbeyond]
      exact List.nil_prefix
    rw [if_neg hbeyond]
    split
    · exact List.nil_prefix
    · rw [List.filter_cons_of_pos (by simp only [decide_eq_true_eq]; omega)]
      exact (List.prefix_cons_inj event).mpr (ih hrest _ _)

theorem pageEvents_eq_nil {highWater : Nat} (hlimits : limits.maxEvents ≠ 0) (hsorted : entries.Pairwise fun x y => x.1.eventId < y.1.eventId)
    (hnil : pageEvents (some after) highWater limits entries 0 0 = []) :
    between (·.eventId) after highWater (entries.map (·.1)) = [] ∨
      ∃ entry ∈ entries, (after < entry.1.eventId ∧ entry.1.eventId ≤ highWater) ∧ limits.maxBytes < entry.2 := by
  induction entries with
  | nil => exact .inl rfl
  | cons entry rest ih =>
    obtain ⟨event, eventBytes⟩ := entry
    obtain ⟨hlater, hrest⟩ := List.pairwise_cons.mp hsorted
    rw [pageEvents] at hnil
    unfold between at ih ⊢
    rw [List.map_cons]
    by_cases hseen : event.eventId ≤ after
    · rw [if_pos (by simpa using hseen)] at hnil
      rw [List.filter_cons_of_neg (by simp only [decide_eq_true_eq]; omega)]
      obtain hnone | ⟨entry, hmem, hbig⟩ := ih hrest hnil
      · exact .inl hnone
      · exact .inr ⟨entry, List.mem_cons_of_mem _ hmem, hbig⟩
    rw [if_neg (by simpa using hseen)] at hnil
    by_cases hbeyond : highWater < event.eventId
    · refine .inl (List.filter_eq_nil_iff.mpr fun other hother => ?_)
      simp only [decide_eq_true_eq]
      obtain rfl | hrest := List.mem_cons.mp hother
      · omega
      · obtain ⟨later, hmem, rfl⟩ := List.mem_map.mp hrest
        have hlt := hlater later hmem
        dsimp only at hlt
        omega
    rw [if_neg hbeyond] at hnil
    split at hnil
    · next hfull =>
      refine .inr ⟨(event, eventBytes), List.mem_cons_self, ⟨Nat.lt_of_not_le hseen, Nat.le_of_not_lt hbeyond⟩, ?_⟩
      unfold saturatingAdd at hfull
      dsimp only
      omega
    · cases hnil

/-- What a page from a cursor is. -/
structure PageOf (s : InMemoryEventStoreState) (events : List A2aPersistedEvent) (key : A2aEventKey) (cursor : Nat)
    (through : Option Nat) (limits : A2aReplayLimits) (page : A2aReplayPage) : Prop where
  beginning : page.events <+: between (·.eventId) cursor page.highWater events
  bounded : cursor ≤ page.highWater ∧ page.highWater < s.nextId key
  fixed : ∀ highWater, through = some highWater → page.highWater = highWater
  progress : page.events = [] →
    between (·.eventId) cursor page.highWater events = [] ∨
      ∃ event ∈ between (·.eventId) cursor page.highWater events, limits.maxBytes < event.response.bytes

/-- **A page**, or what is said instead of one. -/
theorem Remembers.page (h : Remembers store.state inserted) (owner : A2aEventOwner)
    (taskId : String) (cursor : Nat) (through : Option Nat)
    (hlimits : limits.maxEvents ≠ 0 ∧ limits.maxBytes ≠ 0) (hcursor : cursor ≤ through.getD cursor)
    (hthrough : through.getD cursor < store.state.nextId ⟨owner, taskId⟩) :
    store.replayPage owner taskId (some cursor) through limits = .error .retentionGap ∨
      ∃ page, store.replayPage owner taskId (some cursor) through limits = .ok page ∧
        PageOf store.state (eventsOf inserted ⟨owner, taskId⟩) ⟨owner, taskId⟩ cursor through limits page := by
  unfold InMemoryA2aEventStore.replayPage
  rw [refuseIf_of_not (by omega), ok_bind]
  dsimp only
  cases hbucket : store.state.buckets[(⟨owner, taskId⟩ : A2aEventKey)]? with
  | none => exact .inl rfl
  | some bucket =>
    have hholds := h.buckets _ _ hbucket
    have hcounted := h.counted ⟨owner, taskId⟩
    generalize hevents : eventsOf inserted ⟨owner, taskId⟩ = events at hholds hcounted ⊢
    generalize hnext : store.state.nextId ⟨owner, taskId⟩ = next at hthrough ⊢
    generalize hhigh : through.getD (next - 1) = highWater
    have hbounded : cursor ≤ highWater ∧ highWater < next := by
      subst hhigh
      cases through with
      | none =>
        dsimp only [Option.getD_none] at hcursor hthrough ⊢
        omega
      | some w => exact ⟨hcursor, hthrough⟩
    dsimp only
    rw [refuseIf_of_not (by simp only [Option.any_some, decide_eq_true_eq]; omega), ok_bind]
    by_cases hgap : (some cursor).any (fun after =>
        saturatingAdd after 1 < (bucket.events.head?.map (·.1.eventId)).getD next) = true
    · rw [refuseIf_of hgap]
      exact .inl rfl
    · rw [refuseIf_of_not hgap, ok_bind]
      refine .inr ⟨_, rfl, ?_⟩
      have hsorted : bucket.events.Pairwise fun x y => x.1.eventId < y.1.eventId := by
        have hnumbers := hcounted.pairwise.sublist hholds.newest.sublist
        rw [List.pairwise_map] at hnumbers
        exact hnumbers
      have hsame : between (·.eventId) cursor highWater (bucket.events.map (·.1)) =
          between (·.eventId) cursor highWater events := by
        refine hcounted.between_suffix hholds.newest (fun event hfirst => ?_) (mt List.map_eq_nil_iff.mp hholds.nonempty)
        rw [List.head?_map] at hfirst
        obtain ⟨entry, hentry, rfl⟩ := Option.map_eq_some_iff.mp hfirst
        rw [hentry, Option.any_some, decide_eq_true_eq] at hgap
        dsimp only [Option.map_some, Option.getD_some] at hgap
        unfold saturatingAdd at hgap
        omega
      refine ⟨?_, hnext ▸ hbounded, fun w hw => ?_, fun hnil => ?_⟩
      · rw [← hsame]
        exact pageEvents_prefix hsorted 0 0
      · rw [← hhigh, hw]
        rfl
      · obtain hnone | ⟨entry, hmem, hrange, hbig⟩ := pageEvents_eq_nil hlimits.1 hsorted hnil
        · exact .inl (hsame ▸ hnone)
        · have hlisted := hholds.newest.subset (List.mem_map_of_mem hmem)
          refine .inr ⟨entry.1, List.mem_filter.mpr ⟨hlisted, decide_eq_true hrange⟩, ?_⟩
          rw [← hholds.sizes entry hmem]
          exact hbig

/-! ### Readers -/

/-- A reader of one task: the number of the last event it saw, the high water of its first page, and what it got. -/
structure EventReader where
  cursor : Nat
  highWater : Option Nat
  output : List A2aPersistedEvent

/-- A reader that starts after an event. -/
def EventReader.start (cursor : Nat) : EventReader := ⟨cursor, none, []⟩

/-- The next page. -/
def EventReader.page (reader : EventReader) (store : InMemoryA2aEventStore) (owner : A2aEventOwner) (taskId : String)
    (limits : A2aReplayLimits) : Except A2aEventStoreError EventReader := do
  let page ← store.replayPage owner taskId (some reader.cursor) reader.highWater limits
  return ⟨(page.events.getLast?.map (·.eventId)).getD reader.cursor, some page.highWater, reader.output ++ page.events⟩

/-- What happens while somebody reads. -/
inductive ReaderEvent where
  | call (call : EventStoreCall)
  | page (limits : A2aReplayLimits)

/-- The pages that are asked for. -/
def pageCount : List ReaderEvent → Nat
  | [] => 0
  | .call _ :: rest => pageCount rest
  | .page _ :: rest => pageCount rest + 1

/-- A reader beside other calls, to its first failure. -/
def readAlong (owner : A2aEventOwner) (taskId : String) :
    List ReaderEvent → EventHistory → EventReader → Except A2aEventStoreError (EventHistory × EventReader)
  | [], h, reader => .ok (h, reader)
  | .call call :: rest, h, reader => readAlong owner taskId rest (h.step call) reader
  | .page limits :: rest, h, reader => do
    let next ← reader.page h.store owner taskId limits
    readAlong owner taskId rest h next

/-- What a reader has: everything after `start`, up to its cursor. -/
structure EventReader.Has (reader : EventReader) (h : EventHistory) (key : A2aEventKey) (start : Nat) : Prop where
  remembers : Remembers h.store.state h.inserted
  output : reader.output = between (·.eventId) start reader.cursor (eventsOf h.inserted key)
  bounded : start ≤ reader.cursor ∧ reader.cursor ≤ reader.highWater.getD reader.cursor ∧
    reader.highWater.getD reader.cursor < h.store.state.nextId key

theorem insertEvent_nextId_le (s : InMemoryEventStoreState) (call : AppendCall) (key : A2aEventKey) :
    s.nextId key ≤ (s.insertEvent call).2.nextId key := by
  unfold InMemoryEventStoreState.insertEvent
  dsimp only
  by_cases hlimit : s.nextId call.key = 0 ∨ maxEventId < s.nextId call.key
  · simp only [hlimit, if_true, Nat.le_refl]
  · rw [if_neg hlimit]
    cases hfollowing : checkedAdd (s.nextId call.key) 1 with
    | none => exact Nat.le_refl _
    | some following =>
      obtain ⟨rfl, -⟩ := checkedAdd_eq_some.mp hfollowing
      have hgrows : s.nextId key ≤ ((s.nextIds.insert call.key (s.nextId call.key + 1))[key]?).getD 1 := by
        rw [nextId_insert]
        by_cases heq : call.key = key
        · rw [if_pos heq, ← heq]
          exact Nat.le_succ _
        · rw [if_neg heq]
          exact Nat.le_refl _
      dsimp only
      cases htouch : checkedAdd s.touchSequence 1 with
      | none => exact hgrows
      | some touchSequence => exact hgrows

theorem append_nextId_le (store : InMemoryA2aEventStore) (call : AppendCall) (key : A2aEventKey) :
    store.state.nextId key ≤ (store.append call).2.state.nextId key := by
  unfold InMemoryA2aEventStore.append
  cases call.validate with
  | error error => exact Nat.le_refl _
  | ok _ =>
    dsimp only
    cases store.state.logicalEvents[call.logicalEventId]? with
    | some existing => exact Nat.le_refl _
    | none =>
      have hevicts := admit_evicts store.state call store.maxBuckets store.maxBucketsPerOwner
      generalize store.state.admitBucket call store.maxBuckets store.maxBucketsPerOwner = admitted at hevicts
      have hsame : store.state.nextId key = admitted.2.nextId key := by
        unfold InMemoryEventStoreState.nextId
        rw [hevicts.nextIds]
      dsimp only
      rw [hsame]
      cases admitted.1 with
      | error error => exact Nat.le_refl _
      | ok _ => exact insertEvent_nextId_le admitted.2 call key

/-- A call: the numbers go on, and new events have numbers that were not given yet. -/
theorem Remembers.step_grows {h : EventHistory} (hremembers : Remembers h.store.state h.inserted)
    (call : EventStoreCall) (key : A2aEventKey) :
    h.store.state.nextId key ≤ (h.step call).store.state.nextId key ∧
      ∃ more, eventsOf (h.step call).inserted key = eventsOf h.inserted key ++ more ∧
        ∀ event ∈ more, h.store.state.nextId key ≤ event.eventId := by
  cases call with
  | replayPage owner taskId afterEventId throughHighWater limits =>
    exact ⟨Nat.le_refl _, [], (List.append_nil _).symm, fun _ hmem => absurd hmem List.not_mem_nil⟩
  | append call =>
    have happends := hremembers.append call
    have hle := append_nextId_le h.store call key
    have hnone (event : A2aPersistedEvent) (hmem : event ∈ []) : h.store.state.nextId key ≤ event.eventId :=
      absurd hmem List.not_mem_nil
    rw [EventHistory.step]
    generalize h.store.append call = done at happends hle ⊢
    obtain ⟨result, after⟩ := done
    dsimp only at happends hle
    generalize hstate : after.state = state at happends hle
    cases happends with
    | refused error _ => exact ⟨hstate ▸ hle, [], (List.append_nil _).symm, hnone⟩
    | existing _ => exact ⟨hstate ▸ hle, [], (List.append_nil _).symm, hnone⟩
    | @inserted _ eventId hnext _ =>
      refine ⟨hstate ▸ hle, ?_⟩
      by_cases heq : call.key = key
      · subst heq
        refine ⟨[call.event eventId], eventsOf_concat_self h.inserted (call.event eventId), fun event hmem => ?_⟩
        rw [List.mem_singleton.mp hmem, ← hnext]
        exact Nat.le_refl _
      · refine ⟨[], ?_, hnone⟩
        rw [List.append_nil]
        exact eventsOf_concat_of_ne heq

variable {reader : EventReader} {h : EventHistory} {key : A2aEventKey} {start : Nat}

/-- What a call does to an interval of numbers that were given. -/
theorem Remembers.between_step (hremembers : Remembers h.store.state h.inserted) (call : EventStoreCall) (a : Nat)
    {b : Nat} (hb : b < h.store.state.nextId key) :
    between (·.eventId) a b (eventsOf (h.step call).inserted key) =
      between (·.eventId) a b (eventsOf h.inserted key) := by
  obtain ⟨-, more, hmore, hnew⟩ := hremembers.step_grows call key
  rw [hmore]
  exact between_append_of_lt fun event hmem => Nat.lt_of_lt_of_le hb (hnew event hmem)

/-- Calls beside a reader take nothing from it. -/
theorem EventReader.Has.beside (hhas : reader.Has h key start) (call : EventStoreCall) : reader.Has (h.step call) key start where
  remembers := hhas.remembers.step call
  output := by
    rw [hhas.remembers.between_step call start (by have := hhas.bounded; omega)]
    exact hhas.output
  bounded := by
    have hle := (hhas.remembers.step_grows call key).1
    have hbounded := hhas.bounded
    omega

variable {owner : A2aEventOwner} {taskId : String}

/-- **A page** continues where the one before ended. -/
theorem EventReader.Has.page (hhas : reader.Has h ⟨owner, taskId⟩ start) (hlimits : limits.maxEvents ≠ 0 ∧ limits.maxBytes ≠ 0) :
    reader.page h.store owner taskId limits = .error .retentionGap ∨
      ∃ next, reader.page h.store owner taskId limits = .ok next ∧ next.Has h ⟨owner, taskId⟩ start ∧
        (∀ highWater, reader.highWater = some highWater → next.highWater = some highWater) ∧
        reader.cursor ≤ next.cursor ∧ ∃ highWater, next.highWater = some highWater ∧
          (reader.cursor < next.cursor ∨
            between (·.eventId) next.cursor highWater (eventsOf h.inserted ⟨owner, taskId⟩) = [] ∨
            ∃ event ∈ between (·.eventId) next.cursor highWater (eventsOf h.inserted ⟨owner, taskId⟩),
              limits.maxBytes < event.response.bytes) := by
  have hbounded := hhas.bounded
  unfold EventReader.page
  obtain herror | ⟨page, hok, hpage⟩ := hhas.remembers.page owner taskId reader.cursor reader.highWater hlimits
    hbounded.2.1 hbounded.2.2
  · rw [herror]
    exact .inl rfl
  · rw [hok, ok_bind]
    refine .inr ⟨_, rfl, ?_⟩
    have hcounted := hhas.remembers.counted ⟨owner, taskId⟩
    obtain ⟨hsegment, hlast, hlength⟩ := hcounted.prefix_between hpage.beginning
    have hcursor : (page.events.getLast?.map (·.eventId)).getD reader.cursor = reader.cursor + page.events.length := by
      by_cases hnil : page.events = []
      · rw [hnil]
        rfl
      · rw [hlast hnil]
        rfl
    have hpageBounded := hpage.bounded
    rw [hcursor]
    refine ⟨⟨hhas.remembers, ?_, ?_⟩, fun w hw => congrArg some (hpage.fixed w hw), Nat.le_add_right _ _,
      page.highWater, rfl, ?_⟩
    · rw [hhas.output]
      dsimp only
      conv_lhs => rw [hsegment]
      exact hcounted.between_append hbounded.1 (Nat.le_add_right _ _)
    · dsimp only [Option.getD_some]
      omega
    · by_cases hnil : page.events = []
      · refine .inr ?_
        rw [hnil, List.length_nil, Nat.add_zero]
        exact hpage.progress hnil
      · have hpos := List.length_pos_of_ne_nil hnil
        dsimp only
        omega

/-- One reader and history after another: nothing that was given a number is lost or changed. -/
structure Continues (key : A2aEventKey) (reader : EventReader) (h : EventHistory) (reader' : EventReader)
    (h' : EventHistory) : Prop where
  fixed : ∀ highWater, reader.highWater = some highWater → reader'.highWater = some highWater
  cursor : reader.cursor ≤ reader'.cursor
  nextId : h.store.state.nextId key ≤ h'.store.state.nextId key
  same : ∀ a b, b < h.store.state.nextId key →
    between (·.eventId) a b (eventsOf h'.inserted key) = between (·.eventId) a b (eventsOf h.inserted key)

theorem Continues.refl (key : A2aEventKey) (reader : EventReader) (h : EventHistory) : Continues key reader h reader h :=
  ⟨fun _ hw => hw, Nat.le_refl _, Nat.le_refl _, fun _ _ _ => rfl⟩

theorem Continues.trans {r s t : EventReader} {a b c : EventHistory} (h : Continues key r a s b)
    (h' : Continues key s b t c) : Continues key r a t c where
  fixed w hw := h'.fixed w (h.fixed w hw)
  cursor := Nat.le_trans h.cursor h'.cursor
  nextId := Nat.le_trans h.nextId h'.nextId
  same x y hy := (h'.same x y (Nat.lt_of_lt_of_le hy h.nextId)).trans (h.same x y hy)

theorem Remembers.continues (hremembers : Remembers h.store.state h.inserted) (reader : EventReader)
    (call : EventStoreCall) (key : A2aEventKey) : Continues key reader h reader (h.step call) :=
  ⟨fun _ hw => hw, Nat.le_refl _, (hremembers.step_grows call key).1,
    fun a _ hb => hremembers.between_step call a hb⟩

/-- **A run of a reader**, and how far it gets. -/
theorem EventReader.Has.run (es : List ReaderEvent)
    (hhas : reader.Has h ⟨owner, taskId⟩ start)
    (hlimits : ∀ limits, .page limits ∈ es → limits.maxEvents ≠ 0 ∧ limits.maxBytes ≠ 0) :
    readAlong owner taskId es h reader = .error .retentionGap ∨
      ∃ h' reader', readAlong owner taskId es h reader = .ok (h', reader') ∧ reader'.Has h' ⟨owner, taskId⟩ start ∧
        Continues ⟨owner, taskId⟩ reader h reader' h' ∧
        ∀ highWater, reader'.highWater = some highWater →
          (∀ limits, .page limits ∈ es →
            ∀ event ∈ between (·.eventId) start highWater (eventsOf h'.inserted ⟨owner, taskId⟩),
              event.response.bytes ≤ limits.maxBytes) →
          between (·.eventId) reader'.cursor highWater (eventsOf h'.inserted ⟨owner, taskId⟩) = [] ∨
            reader.cursor + pageCount es ≤ reader'.cursor := by
  induction es generalizing h reader with
  | nil => exact .inr ⟨h, reader, rfl, hhas, .refl _ reader h, fun _ _ _ => .inr (Nat.le_refl _)⟩
  | cons e es ih =>
    have hrest : ∀ limits, ReaderEvent.page limits ∈ es → limits.maxEvents ≠ 0 ∧ limits.maxBytes ≠ 0 :=
      fun limits hmem => hlimits limits (List.mem_cons_of_mem _ hmem)
    cases e with
    | call call =>
      rw [readAlong]
      obtain herror | ⟨h', reader', hok, hhas', hcontinues, hfar⟩ := ih (hhas.beside call) hrest
      · exact .inl herror
      · refine .inr ⟨h', reader', hok, hhas', (hhas.remembers.continues reader call _).trans hcontinues,
          fun w hw hfits => ?_⟩
        exact hfar w hw fun limits hmem => hfits limits (List.mem_cons_of_mem _ hmem)
    | page limits =>
      rw [readAlong]
      obtain herror | ⟨next, hnext, hhas, hfixed, hcursor, w, hw, hprogress⟩ :=
        hhas.page (hlimits limits List.mem_cons_self)
      · rw [herror]
        exact .inl rfl
      · rw [hnext, ok_bind]
        obtain herror | ⟨h', reader', hok, hhas', hcontinues, hfar⟩ := ih hhas hrest
        · exact .inl herror
        · refine .inr ⟨h', reader', hok, hhas', ?_, fun w' hw' hfits => ?_⟩
          · exact (Continues.mk hfixed hcursor (Nat.le_refl _) fun _ _ _ => rfl).trans hcontinues
          · have hlater := hfar w' hw' fun limits hmem => hfits limits (List.mem_cons_of_mem _ hmem)
            have hsame : w' = w := Option.some.inj (hw'.symm.trans (hcontinues.fixed w hw))
            subst hsame
            have hbounded := hhas.bounded
            rw [hw, Option.getD_some] at hbounded
            rw [pageCount]
            obtain hlt | hnone | ⟨event, hmem, hbig⟩ := hprogress
            · obtain hnone | hle := hlater
              · exact .inl hnone
              · exact .inr (by omega)
            · -- nothing was left then, and nothing is left now
              refine .inl (between_eq_nil_of_le hcontinues.cursor ?_)
              rw [hcontinues.same next.cursor w' hbounded.2.2]
              exact hnone
            · rw [← hcontinues.same next.cursor w' hbounded.2.2] at hmem
              have hfit := hfits limits List.mem_cons_self event (mem_between_of_le hbounded.1 hmem)
              omega

/-! ### The store over every run -/

/-- What the store promises after any calls. -/
structure Dependable (h : EventHistory) : Prop where
  /-- An identity that was stored stands for the event that was stored. -/
  known : ∀ event ∈ h.inserted, ∀ call : AppendCall, call.logicalEventId = event.logicalEventId →
    validateEventLimits call.retention = .ok () →
    if call.owner = event.owner ∧ call.taskId = event.taskId ∧ call.response = event.response ∧
        call.response.bytes ≤ call.retention.maxEventBytes then
      h.store.append call = (.ok (.existing event), h.store)
    else ∃ error, h.store.append call = (.error (.permanent error), h.store)
  /-- The events of a task are numbered in the order in which they were appended. -/
  numbered : ∀ key, (eventsOf h.inserted key).map (·.eventId) = List.range' 1 (eventsOf h.inserted key).length
  /-- A bucket that the next call evicts ends with a terminal event. -/
  evicted : ∀ (call : EventStoreCall) (key : A2aEventKey) (bucket : InMemoryEventBucket),
    h.store.state.buckets[key]? = some bucket → (h.step call).store.state.buckets[key]? = none →
    ∃ event, (bucket.events.map (·.1)).getLast? = some event ∧ (eventsOf h.inserted key).getLast? = some event ∧
      event.response.isTerminal = true
  /-- A reader beside other calls gets everything after its cursor, unless some of it is gone. -/
  replayed : ∀ (owner : A2aEventOwner) (taskId : String) (cursor : Nat) (es : List ReaderEvent),
    cursor ≤ (eventsOf h.inserted ⟨owner, taskId⟩).length →
    (∀ limits, .page limits ∈ es → limits.maxEvents ≠ 0 ∧ limits.maxBytes ≠ 0) →
    readAlong owner taskId es h (.start cursor) = .error .retentionGap ∨
      ∃ h' reader, readAlong owner taskId es h (.start cursor) = .ok (h', reader) ∧
        reader.output = between (·.eventId) cursor reader.cursor (eventsOf h'.inserted ⟨owner, taskId⟩) ∧
        ∀ highWater, reader.highWater = some highWater → reader.cursor ≤ highWater ∧
          ((∀ limits, .page limits ∈ es →
              ∀ event ∈ between (·.eventId) cursor highWater (eventsOf h'.inserted ⟨owner, taskId⟩),
                event.response.bytes ≤ limits.maxBytes) →
            highWater ≤ cursor + pageCount es →
            reader.output = between (·.eventId) cursor highWater (eventsOf h'.inserted ⟨owner, taskId⟩))

/-- **Every run** of the store is dependable. -/
theorem eventStore_dependable (maxBuckets maxBucketsPerOwner : Nat) (calls : List EventStoreCall) :
    Dependable ((EventHistory.start maxBuckets maxBucketsPerOwner).after calls) := by
  have hremembers := Remembers.after (remembers_start maxBuckets maxBucketsPerOwner) calls
  generalize (EventHistory.start maxBuckets maxBucketsPerOwner).after calls = h at hremembers ⊢
  refine ⟨fun event hmem call hid hlimits => hremembers.known hmem hid hlimits, hremembers.counted,
    fun call key bucket hbucket hgone => hremembers.evicted call hbucket hgone, ?_⟩
  intro owner taskId cursor es hcursor hlimits
  have hnext := hremembers.next ⟨owner, taskId⟩
  have hstart : (EventReader.start cursor).Has h ⟨owner, taskId⟩ cursor := by
    refine ⟨hremembers, ?_, Nat.le_refl _, Nat.le_refl _, Nat.lt_of_le_of_lt hcursor hnext⟩
    exact (between_self cursor _).symm
  obtain hgap | ⟨h', reader, hok, hhas, -, hfar⟩ := EventReader.Has.run es hstart hlimits
  · exact .inl hgap
  · have hbounded := hhas.bounded
    refine .inr ⟨h', reader, hok, hhas.output, fun w hw => ?_⟩
    rw [hw, Option.getD_some] at hbounded
    refine ⟨hbounded.2.1, fun hfits hpages => ?_⟩
    have hcounted := hhas.remembers.counted ⟨owner, taskId⟩
    rw [hhas.output, ← hcounted.between_append hbounded.1 hbounded.2.1]
    obtain hnone | hle := hfar w hw hfits
    · rw [hnone, List.append_nil]
    · have hend : reader.cursor = w := by
        have hstarted : (EventReader.start cursor).cursor = cursor := rfl
        omega
      rw [hend, between_self, List.append_nil]

/-- A status of the task `t` is appended. -/
def appendStatus (retention : A2aEventRetention) : AppendCall :=
  ⟨"e", ⟨"s", none⟩, "t", .statusUpdate ⟨"t", "c", ⟨.working, none⟩⟩, retention⟩

/-- A store with this one event. -/
def afterStatus : EventHistory := (EventHistory.start 1 1).after [.append (appendStatus ⟨1, 4096, 4096⟩)]

theorem afterStatus_inserted : afterStatus.inserted = [(appendStatus ⟨1, 4096, 4096⟩).event 1] := by
  decide +kernel

/-- With room for one byte only, the same event is refused. -/
theorem append_status_again :
    (afterStatus.store.append (appendStatus ⟨1, 1, 1⟩)).1 =
      .error (.permanent (.conflict "A2A event exceeds the configured event byte limit")) := by
  decide +kernel

variable {highWater : Option Nat}

/-- Pages of one byte do not get to the event, and do not fail. -/
theorem page_status (h : highWater = none ∨ highWater = some 1) :
    EventReader.page ⟨0, highWater, []⟩ afterStatus.store ⟨"s", none⟩ "t" ⟨1, 1⟩ = .ok ⟨0, some 1, []⟩ := by
  obtain rfl | rfl := h
  · rfl
  · rfl

theorem readAlong_status (pages : Nat) (h : highWater = none ∨ highWater = some 1) :
    ∃ w, (w = none ∨ w = some 1) ∧
      readAlong ⟨"s", none⟩ "t" (List.replicate pages (.page ⟨1, 1⟩)) afterStatus ⟨0, highWater, []⟩ =
        .ok (afterStatus, ⟨0, w, []⟩) := by
  induction pages generalizing highWater with
  | zero => exact ⟨highWater, h, rfl⟩
  | succ pages ih =>
    rw [List.replicate_succ, readAlong, page_status h, ok_bind]
    exact ih (.inr rfl)

/-- Limits that the store accepts, but that have no room for an event: the same event is not recognised, and a reader
does not get to its high water. -/
theorem not_dependable_in_any_limits :
    (¬ ∀ (calls : List EventStoreCall) (event : A2aPersistedEvent) (call : AppendCall),
      event ∈ ((EventHistory.start 1 1).after calls).inserted → call.logicalEventId = event.logicalEventId →
      validateEventLimits call.retention = .ok () → call.owner = event.owner → call.taskId = event.taskId →
      call.response = event.response →
      (((EventHistory.start 1 1).after calls).store.append call).1 = .ok (.existing event)) ∧
    ¬ ∀ (calls : List EventStoreCall) (owner : A2aEventOwner) (taskId : String) (cursor : Nat)
      (limits : A2aReplayLimits),
      cursor ≤ (eventsOf ((EventHistory.start 1 1).after calls).inserted ⟨owner, taskId⟩).length →
      limits.maxEvents ≠ 0 ∧ limits.maxBytes ≠ 0 →
      ∃ pages,
        readAlong owner taskId (List.replicate pages (.page limits)) ((EventHistory.start 1 1).after calls)
          (.start cursor) = .error .retentionGap ∨
        ∃ h' reader highWater,
          readAlong owner taskId (List.replicate pages (.page limits)) ((EventHistory.start 1 1).after calls)
            (.start cursor) = .ok (h', reader) ∧ reader.highWater = some highWater ∧
          reader.output = between (·.eventId) cursor highWater (eventsOf h'.inserted ⟨owner, taskId⟩) := by
  constructor
  · intro hall
    have hmem : (appendStatus ⟨1, 4096, 4096⟩).event 1 ∈ afterStatus.inserted := by
      rw [afterStatus_inserted]
      exact List.mem_singleton_self _
    have hok := hall [.append (appendStatus ⟨1, 4096, 4096⟩)] _ (appendStatus ⟨1, 1, 1⟩) hmem rfl (by decide) rfl rfl rfl
    cases append_status_again.symm.trans hok
  · intro hall
    obtain ⟨pages, hgap | ⟨h', reader, w, hok, hw, houtput⟩⟩ := hall [.append (appendStatus ⟨1, 4096, 4096⟩)]
      ⟨"s", none⟩ "t" 0 ⟨1, 1⟩ (Nat.zero_le _) ⟨by decide, by decide⟩
    · obtain ⟨_, -, hread⟩ := readAlong_status pages (.inl rfl)
      cases hread.symm.trans hgap
    · obtain ⟨w', hw', hread⟩ := readAlong_status pages (.inl rfl)
      cases hread.symm.trans hok
      obtain rfl | rfl := hw'
      · cases hw
      · cases hw
        dsimp only at houtput
        rw [afterStatus_inserted] at houtput
        revert houtput
        decide +kernel

end AikitRuntime.A2a
