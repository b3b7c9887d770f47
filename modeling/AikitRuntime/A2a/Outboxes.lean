import AikitRuntime.A2a.Runs

/-!
# What the outboxes allow

An insertion into an outbox needs a new key, and a replacement keeps the identity of what it replaces. Each
lemma here says what one of the mapper's updates leaves, as a record update, so that everything it does not
name is as before by definition.
-/

namespace AikitRuntime.A2a

open Library Durability Mcp

/-! ### Capacities -/

namespace Outbox

variable {R : Type} {outbox : Outbox R} {records : BTreeMap R} {bytes added : Nat} {key : String}
  {record : R}

/-- What is inserted has a new key. -/
theorem preflightNew_new (h : outbox.preflightNew records bytes key record = .ok added) :
    records[key]? = none := by
  simp only [preflightNew, bind_eq_ok, refuseIf_eq_ok, exists_unit, Bool.not_eq_true] at h
  exact BTreeMap.contains_eq_false.mp h.1

end Outbox

namespace A2aMapper

variable {m m' : A2aMapper}

theorem nextRevision_eq_ok {revision : Nat} :
    m.nextRevision = .ok revision ↔ m.revision + 1 ≤ maxSafeInteger ∧ revision = m.revision + 1 := by
  simp only [nextRevision, bind_eq_ok, refuseIf_eq_ok, exists_unit, Nat.not_lt, pure, Except.pure,
    Except.ok.injEq, eq_comm (a := m.revision + 1)]

/-! ### Dispatches -/

section Dispatches

variable {dispatchId : String} {record replacement : A2aDispatchOutboxRecord} {revision : Nat}

theorem insertNewDispatch_spec (h : m.insertNewDispatch record = .ok m') :
    m.dispatchOutbox[record.dispatchId]? = none ∧ ∃ bytes,
      m' = { m with
        dispatchBytes := bytes
        dispatchOutbox := m.dispatchOutbox.insert record.dispatchId record } := by
  simp only [insertNewDispatch, bind_eq_ok, pure, Except.pure, Except.ok.injEq] at h
  obtain ⟨added, hadded, rfl⟩ := h
  exact ⟨Outbox.preflightNew_new hadded, _, rfl⟩

theorem replaceDispatchRecord_spec (h : m.replaceDispatchRecord dispatchId replacement = .ok m') :
    ∃ current, m.dispatchOutbox[dispatchId]? = some current ∧
      replacement.SameIdentity dispatchId current ∧ ∃ bytes,
      m' = { m with
        dispatchBytes := bytes, dispatchOutbox := m.dispatchOutbox.insert dispatchId replacement } := by
  simp only [replaceDispatchRecord, bind_eq_ok, okOr_eq_ok, refuseIf_eq_ok, exists_unit, not_not, pure,
    Except.pure, Except.ok.injEq] at h
  obtain ⟨current, hget, hsame, bytes, _, rfl⟩ := h
  exact ⟨current, hget, hsame, bytes, rfl⟩

/-- A settled dispatch stays; another one is settled at the revision. -/
theorem settleDispatchAtRevision_spec (h : m.settleDispatchAtRevision dispatchId revision = .ok m') :
    ∃ current, m.dispatchOutbox[dispatchId]? = some current ∧
      ((current.state = .settled ∧ m' = m) ∨
        (current.state ≠ .settled ∧
          ({ current with state := .settled, lastError := none, updatedRevision := revision } :
            A2aDispatchOutboxRecord).SameIdentity dispatchId current ∧ ∃ bytes,
          m' = { m with
            dispatchBytes := bytes
            dispatchOutbox := m.dispatchOutbox.insert dispatchId
              { current with state := .settled, lastError := none, updatedRevision := revision } })) := by
  simp only [settleDispatchAtRevision, bind_eq_ok, okOr_eq_ok] at h
  obtain ⟨current, hget, h⟩ := h
  refine ⟨current, hget, ?_⟩
  split at h
  · next hsettled => exact .inl ⟨hsettled, (Except.ok.inj h).symm⟩
  · next hopen =>
    obtain ⟨current', hget', hsame, bytes, rfl⟩ := replaceDispatchRecord_spec h
    rw [hget, Option.some.injEq] at hget'
    subst hget'
    exact .inr ⟨hopen, hsame, bytes, rfl⟩

end Dispatches

/-! ### Cancellations -/

section Cancellations

variable {cancellationId taskId : String} {record replacement : A2aCancellationOutboxRecord}
  {revision : Nat}

theorem insertNewCancellation_spec (h : m.insertNewCancellation record = .ok m') :
    m.cancellationOutbox[record.cancellationId]? = none ∧ ∃ bytes,
      m' = { m with
        cancellationBytes := bytes
        cancellationOutbox := m.cancellationOutbox.insert record.cancellationId record } := by
  simp only [insertNewCancellation, bind_eq_ok, pure, Except.pure, Except.ok.injEq] at h
  obtain ⟨added, hadded, rfl⟩ := h
  exact ⟨Outbox.preflightNew_new hadded, _, rfl⟩

theorem replaceCancellationRecord_spec
    (h : m.replaceCancellationRecord cancellationId replacement = .ok m') :
    ∃ current, m.cancellationOutbox[cancellationId]? = some current ∧
      replacement.SameIdentity cancellationId current ∧ ∃ bytes,
      m' = { m with
        cancellationBytes := bytes
        cancellationOutbox := m.cancellationOutbox.insert cancellationId replacement } := by
  simp only [replaceCancellationRecord, bind_eq_ok, okOr_eq_ok, refuseIf_eq_ok, exists_unit, not_not,
    pure, Except.pure, Except.ok.injEq] at h
  obtain ⟨current, hget, hsame, bytes, _, rfl⟩ := h
  exact ⟨current, hget, hsame, bytes, rfl⟩

/-- The control of a task is settled at the revision, if the task has one that is not. -/
theorem settleTaskCancellationAtRevision_spec
    (h : m.settleTaskCancellationAtRevision taskId revision = .ok m') :
    m' = m ∨ ∃ cancellationId current, m.cancellationOutbox[cancellationId]? = some current ∧
      current.taskId = taskId ∧ current.state ≠ .settled ∧
      ({ current with state := .settled, lastError := none, updatedRevision := revision } :
        A2aCancellationOutboxRecord).SameIdentity cancellationId current ∧ ∃ bytes,
      m' = { m with
        cancellationBytes := bytes
        cancellationOutbox := m.cancellationOutbox.insert cancellationId
          { current with state := .settled, lastError := none, updatedRevision := revision } } := by
  unfold settleTaskCancellationAtRevision at h
  split at h
  · exact .inl (Except.ok.inj h).symm
  · next cancellationId current hfind =>
    split at h
    · exact .inl (Except.ok.inj h).symm
    · next hopen =>
      obtain ⟨current', hget, hsame, bytes, rfl⟩ := replaceCancellationRecord_spec h
      have hthere := BTreeMap.mem_toList.mp (List.mem_of_find?_eq_some hfind)
      rw [hthere, Option.some.injEq] at hget
      subst hget
      have htask : current.taskId = taskId := by simpa using List.find?_some hfind
      exact .inr ⟨cancellationId, current, hthere, htask, hopen, hsame, bytes, rfl⟩

end Cancellations

/-! ### Events -/

section Events

variable {eventId : String} {event replacement : A2aPendingEventIntent}

theorem withSchedule_spec (m : A2aMapper) (event : A2aPendingEventIntent) :
    ∃ schedule byOwner, m.withSchedule event =
      { m with pendingEventSchedule := schedule, pendingEventScheduleByOwner := byOwner } := by
  unfold withSchedule
  split
  · exact ⟨_, _, rfl⟩
  · exact ⟨_, _, rfl⟩

theorem withoutSchedule_spec (m : A2aMapper) (event : A2aPendingEventIntent) :
    ∃ schedule byOwner, m.withoutSchedule event =
      { m with pendingEventSchedule := schedule, pendingEventScheduleByOwner := byOwner } := by
  unfold withoutSchedule
  split
  · exact ⟨_, _, rfl⟩
  · exact ⟨_, _, rfl⟩

theorem insertNewPendingEvent_spec (h : m.insertNewPendingEvent event = .ok m') :
    m.pendingEvents[event.eventId]? = none ∧ ∃ bytes schedule byOwner readiness,
      m' = { m with
        pendingEvents := m.pendingEvents.insert event.eventId event
        pendingEventBytes := bytes
        pendingEventSchedule := schedule
        pendingEventScheduleByOwner := byOwner
        dispatchEventReadiness := readiness } := by
  simp only [insertNewPendingEvent, bind_eq_ok, pure, Except.pure, Except.ok.injEq] at h
  obtain ⟨added, hadded, rfl⟩ := h
  obtain ⟨schedule, byOwner, hscheduled⟩ :=
    withSchedule_spec { m with pendingEventBytes := m.pendingEventBytes + added } event
  rw [hscheduled]
  exact ⟨Outbox.preflightNew_new hadded, _, schedule, byOwner, _, rfl⟩

theorem replacePendingEvent_spec (h : m.replacePendingEvent eventId replacement = .ok m') :
    ∃ current, m.pendingEvents[eventId]? = some current ∧ replacement.SameIdentity eventId current ∧
      ∃ bytes schedule byOwner readiness,
      m' = { m with
        pendingEvents := m.pendingEvents.insert eventId replacement
        pendingEventBytes := bytes
        pendingEventSchedule := schedule
        pendingEventScheduleByOwner := byOwner
        dispatchEventReadiness := readiness } := by
  simp only [replacePendingEvent, bind_eq_ok, okOr_eq_ok, refuseIf_eq_ok, exists_unit, not_not, pure,
    Except.pure, Except.ok.injEq] at h
  obtain ⟨current, hget, hsame, bytes, _, rfl⟩ := h
  obtain ⟨_, _, hwithout⟩ := withoutSchedule_spec { m with pendingEventBytes := bytes } current
  rw [hwithout]
  obtain ⟨schedule, byOwner, hwith⟩ := withSchedule_spec
    { m with
      pendingEventBytes := bytes
      pendingEventSchedule := _
      pendingEventScheduleByOwner := _ } replacement
  rw [hwith]
  exact ⟨current, hget, hsame, bytes, schedule, byOwner, _, rfl⟩

/-- Events that are inserted one after another. -/
theorem insertEvents_spec {new : List A2aPendingEventIntent} (h : m.insertEvents new = .ok m') :
    ∃ events bytes schedule byOwner readiness,
      m' = { m with
        pendingEvents := events
        pendingEventBytes := bytes
        pendingEventSchedule := schedule
        pendingEventScheduleByOwner := byOwner
        dispatchEventReadiness := readiness } := by
  induction new generalizing m with
  | nil => exact ⟨_, _, _, _, _, (Except.ok.inj h).symm⟩
  | cons event rest ih =>
    simp only [insertEvents, bind_eq_ok] at h
    obtain ⟨inserted, hinsert, h⟩ := h
    obtain ⟨_, _, _, _, _, rfl⟩ := insertNewPendingEvent_spec hinsert
    obtain ⟨_, _, _, _, _, rfl⟩ := ih h
    exact ⟨_, _, _, _, _, rfl⟩

end Events

end A2aMapper

end AikitRuntime.A2a
