import AikitRuntime.A2a.Acceptance
import AikitRuntime.A2a.Indexes

/-!
# Operations as updates

`Update` is one elementary update of a mapper: a record is inserted into an outbox or replaced there, a task
moves or starts, a context is opened, a receipt is kept, or the counters go on. Each comes with what was
checked before it was made. Every operation is a chain of updates, so what an update keeps (`Kept`), every
operation keeps.
-/

namespace AikitRuntime.A2a

open Library Durability Mcp Relation

/-- One update of a mapper. -/
inductive Update : A2aMapper → A2aMapper → Prop where
  /-- The next number and the revision are set. -/
  | counted (m : A2aMapper) (nextSequence revision : Nat) : Update m { m with nextSequence, revision }
  /-- A new record goes into the outbox of dispatches. -/
  | dispatchInserted {m m' : A2aMapper} {record : A2aDispatchOutboxRecord}
    (h : m.insertNewDispatch record = .ok m') : Update m m'
  /-- A record of that outbox is replaced. -/
  | dispatchReplaced {m m' : A2aMapper} {dispatchId : String} {record : A2aDispatchOutboxRecord}
    (h : m.replaceDispatchRecord dispatchId record = .ok m') : Update m m'
  /-- A new record goes into the outbox of cancellations. -/
  | cancellationInserted {m m' : A2aMapper} {record : A2aCancellationOutboxRecord}
    (h : m.insertNewCancellation record = .ok m') : Update m m'
  /-- A record of that outbox is replaced. -/
  | cancellationReplaced {m m' : A2aMapper} {cancellationId : String} {record : A2aCancellationOutboxRecord}
    (h : m.replaceCancellationRecord cancellationId record = .ok m') : Update m m'
  /-- A new event is pending. -/
  | eventInserted {m m' : A2aMapper} {event : A2aPendingEventIntent}
    (h : m.insertNewPendingEvent event = .ok m') : Update m m'
  /-- A pending event is replaced. -/
  | eventReplaced {m m' : A2aMapper} {eventId : String} {event : A2aPendingEventIntent}
    (h : m.replacePendingEvent eventId event = .ok m') : Update m m'
  /-- A task is changed, and keeps its owner. -/
  | taskMoved {m : A2aMapper} {taskId : String} {before after : A2aTaskRecord}
    (hget : m.tasks[taskId]? = some before) (howner : after.owner = before.owner) :
    Update m { m with tasks := m.tasks.insert taskId after }
  /-- There is a new task, under an identifier of its own. -/
  | taskStarted {m : A2aMapper} {n : Nat} {task : A2aTaskRecord}
    (hnew : m.tasks[generatedId "a2a-task" n]? = none) (hcount : m.tasks.size < maxTasks)
    (howner : total (ofOwner A2aTaskRecord.owner task.owner) m.tasks < maxTasksPerOwner) (hn : n ≤ maxSafeInteger) :
    Update m { m with tasks := m.tasks.insert (generatedId "a2a-task" n) task }
  /-- There is a new context, with a session of its own. -/
  | contextOpened {m : A2aMapper} {key : String} {owner : A2aContextOwner} {n : Nat}
    (hnew : m.contexts[key]? = none) (hcount : m.contexts.size < maxTasks)
    (howner : total (ofOwner id owner) m.contextOwners < maxTasksPerOwner) (hn : n ≤ maxSafeInteger) :
    Update m { m with
      contexts := m.contexts.insert key (generatedId "a2a-session" n)
      contextOwners := m.contextOwners.insert key owner }
  /-- The receipt of a message is kept, where there is room for it. -/
  | received {m : A2aMapper} {receipt : A2aMessageReceipt}
    (hroom : messageReceipts.Room m.receipts m.receiptBytes
      (scopedReceiptKey receipt.owner receipt.message.messageId) receipt) :
    Update m { m with
      receipts := m.receipts.insert (scopedReceiptKey receipt.owner receipt.message.messageId) receipt
      receiptBytes := m.receiptBytes +
        messageReceipts.entryBytes (scopedReceiptKey receipt.owner receipt.message.messageId) receipt }

/-- Some updates, one after another. -/
abbrev Updates : A2aMapper → A2aMapper → Prop := ReflTransGen Update

/-! ### What updates keep -/

/-- What every mapper keeps true of its bytes, numbers, indexes, and keys. -/
structure Kept (m : A2aMapper) : Prop where
  capacities : m.WithinCapacities
  indexed : Indexed m.pendingEvents m.pendingEventSchedule m.pendingEventScheduleByOwner m.dispatchEventReadiness
  receiptKeys : ∀ (key : String) (receipt : A2aMessageReceipt), m.receipts[key]? = some receipt →
    key = scopedReceiptKey receipt.owner receipt.message.messageId
  contextOwners : ∀ key : String, m.contexts[key]? = none → m.contextOwners[key]? = none
  sessions : ∀ (key sessionId : String), m.contexts[key]? = some sessionId →
    ∃ n, n ≤ maxSafeInteger ∧ sessionId = generatedId "a2a-session" n
  taskIds : ∀ (taskId : String) (task : A2aTaskRecord), m.tasks[taskId]? = some task →
    ∃ n, n ≤ maxSafeInteger ∧ taskId = generatedId "a2a-task" n

theorem kept_new : Kept .new where
  capacities :=
    ⟨.empty, by simp [A2aMapper.new], fun _ => by simp [A2aMapper.new], Outbox.measured_empty,
      Outbox.measured_empty, Outbox.measured_empty, Outbox.measured_empty⟩
  indexed := .empty
  receiptKeys _ _ h := by simp [A2aMapper.new] at h
  contextOwners _ _ := by simp [A2aMapper.new]
  sessions _ _ h := by simp [A2aMapper.new] at h
  taskIds _ _ h := by simp [A2aMapper.new] at h

section Outboxes

variable {m m' : A2aMapper}

theorem A2aMapper.insertNewDispatch_eq_ok {record : A2aDispatchOutboxRecord} :
    m.insertNewDispatch record = .ok m' ↔
      dispatches.Room m.dispatchOutbox m.dispatchBytes record.dispatchId record ∧ m' = { m with
        dispatchBytes := m.dispatchBytes + dispatches.entryBytes record.dispatchId record
        dispatchOutbox := m.dispatchOutbox.insert record.dispatchId record } := by
  simp only [insertNewDispatch, bind_eq_ok, dispatches.preflightNew_eq_ok (by decide) (by decide),
    pure, Except.pure, Except.ok.injEq]
  exact ⟨fun ⟨_, ⟨hroom, rfl⟩, heq⟩ => ⟨hroom, heq.symm⟩, fun ⟨hroom, heq⟩ => ⟨_, ⟨hroom, rfl⟩, heq.symm⟩⟩

theorem A2aMapper.insertNewCancellation_eq_ok {record : A2aCancellationOutboxRecord} :
    m.insertNewCancellation record = .ok m' ↔
      cancellations.Room m.cancellationOutbox m.cancellationBytes record.cancellationId record ∧ m' = { m with
        cancellationBytes := m.cancellationBytes + cancellations.entryBytes record.cancellationId record
        cancellationOutbox := m.cancellationOutbox.insert record.cancellationId record } := by
  simp only [insertNewCancellation, bind_eq_ok,
    cancellations.preflightNew_eq_ok (by decide) (by decide), pure, Except.pure, Except.ok.injEq]
  exact ⟨fun ⟨_, ⟨hroom, rfl⟩, heq⟩ => ⟨hroom, heq.symm⟩, fun ⟨hroom, heq⟩ => ⟨_, ⟨hroom, rfl⟩, heq.symm⟩⟩

variable {event : A2aPendingEventIntent}

/-- An event that is inserted has room, and is put into the indexes. -/
theorem A2aMapper.insertNewPendingEvent_eq_ok :
    m.insertNewPendingEvent event = .ok m' ↔
      events.Room m.pendingEvents m.pendingEventBytes event.eventId event ∧
        let scheduled := { m with
          pendingEventBytes := m.pendingEventBytes + events.entryBytes event.eventId event }.withSchedule event
        m' = { scheduled with
          dispatchEventReadiness := addDispatchEventReadiness scheduled.dispatchEventReadiness event
          pendingEvents := scheduled.pendingEvents.insert event.eventId event } := by
  simp only [insertNewPendingEvent, bind_eq_ok, events.preflightNew_eq_ok (by decide) (by decide),
    pure, Except.pure, Except.ok.injEq]
  exact ⟨fun ⟨_, ⟨hroom, rfl⟩, heq⟩ => ⟨hroom, heq.symm⟩, fun ⟨hroom, heq⟩ => ⟨_, ⟨hroom, rfl⟩, heq.symm⟩⟩

/-- A new event keeps the events measured and indexed. -/
theorem Kept.insertNewPendingEvent (hkept : Kept m)
    (h : m.insertNewPendingEvent event = .ok m') : Kept m' := by
  obtain ⟨hroom, hm'⟩ := A2aMapper.insertNewPendingEvent_eq_ok.mp h
  have hindexed := hkept.indexed
  rw [← erase_of_none hroom.new] at hindexed
  have hsize : (m.pendingEvents.erase event.eventId).size < u64Max := by
    rw [erase_of_none hroom.new]
    exact Nat.lt_of_lt_of_le hroom.count (by decide)
  have hwith := Indexed.withEvent (m := { m with
    pendingEventBytes := m.pendingEventBytes + events.entryBytes event.eventId event }) hindexed hsize
  have hmeasured := hkept.capacities.events.insert_new hroom
  dsimp only at hm'
  obtain ⟨schedule, schedules, hscheduled⟩ := A2aMapper.withSchedule_spec { m with
    pendingEventBytes := m.pendingEventBytes + events.entryBytes event.eventId event } event
  rw [hscheduled] at hm' hwith
  subst hm'
  exact { hkept with capacities := { hkept.capacities with events := hmeasured }, indexed := hwith }

/-- A replaced event is taken out of the indexes, and put into them again. -/
theorem Kept.replacePendingEvent {eventId : String} {replacement : A2aPendingEventIntent} (hkept : Kept m)
    (h : m.replacePendingEvent eventId replacement = .ok m') : Kept m' := by
  simp only [A2aMapper.replacePendingEvent, bind_eq_ok, okOr_eq_ok, refuseIf_eq_ok, exists_unit, not_not, pure,
    Except.pure, Except.ok.injEq] at h
  obtain ⟨current, hget, ⟨rfl, howner, _⟩, bytes, hbytes, hm'⟩ := h
  have hmeasured := hkept.capacities.events.insert_old hget howner hbytes
  have hwithout := Indexed.withoutEvent (m := { m with pendingEventBytes := bytes }) hkept.indexed hget
  have hsize : (m.pendingEvents.erase replacement.eventId).size < u64Max := by
    have hmax : events.maxCount < u64Max := by decide
    exact Nat.lt_of_le_of_lt (Nat.le_trans Std.ExtTreeMap.size_erase_le hkept.capacities.events.count) hmax
  have hwith := Indexed.withEvent (m := { m with pendingEventBytes := bytes }.withoutSchedule current) hwithout hsize
  obtain ⟨schedule, schedules, hless⟩ := A2aMapper.withoutSchedule_spec { m with pendingEventBytes := bytes } current
  rw [hless] at hm' hwith
  obtain ⟨schedule', schedules', hmore⟩ := A2aMapper.withSchedule_spec { m with
    pendingEventBytes := bytes
    pendingEventSchedule := schedule
    pendingEventScheduleByOwner := schedules } replacement
  rw [hmore] at hm' hwith
  subst hm'
  exact { hkept with capacities := { hkept.capacities with events := hmeasured }, indexed := hwith }

end Outboxes

variable {m m' : A2aMapper}

/-- What one update keeps. -/
theorem Update.kept (h : Update m m') (hkept : Kept m) : Kept m' := by
  have hcapacities := hkept.capacities
  cases h with
  | counted => exact { hkept with capacities := { hcapacities with } }
  | dispatchInserted h =>
    obtain ⟨hroom, rfl⟩ := A2aMapper.insertNewDispatch_eq_ok.mp h
    exact { hkept with capacities := { hcapacities with dispatches := hcapacities.dispatches.insert_new hroom } }
  | dispatchReplaced h =>
    simp only [A2aMapper.replaceDispatchRecord, bind_eq_ok, okOr_eq_ok, refuseIf_eq_ok, exists_unit, not_not, pure,
      Except.pure, Except.ok.injEq] at h
    obtain ⟨current, hget, ⟨_, howner, _⟩, bytes, hbytes, rfl⟩ := h
    exact { hkept with
      capacities := { hcapacities with dispatches := hcapacities.dispatches.insert_old hget howner hbytes } }
  | cancellationInserted h =>
    obtain ⟨hroom, rfl⟩ := A2aMapper.insertNewCancellation_eq_ok.mp h
    exact { hkept with
      capacities := { hcapacities with cancellations := hcapacities.cancellations.insert_new hroom } }
  | cancellationReplaced h =>
    simp only [A2aMapper.replaceCancellationRecord, bind_eq_ok, okOr_eq_ok, refuseIf_eq_ok, exists_unit, not_not,
      pure, Except.pure, Except.ok.injEq] at h
    obtain ⟨current, hget, ⟨_, howner, _⟩, bytes, hbytes, rfl⟩ := h
    exact { hkept with
      capacities := { hcapacities with cancellations := hcapacities.cancellations.insert_old hget howner hbytes } }
  | eventInserted h => exact hkept.insertNewPendingEvent h
  | eventReplaced h => exact hkept.replacePendingEvent h
  | taskMoved hget howner =>
    refine { hkept with
      capacities := { hcapacities with tasks := hcapacities.tasks.insert_old hget howner }
      taskIds := fun other task hother => ?_ }
    rcases BTreeMap.get_insert_eq_some hother with ⟨rfl, _⟩ | ⟨_, hold⟩
    · exact hkept.taskIds _ _ hget
    · exact hkept.taskIds other task hold
  | taskStarted hnew hcount howner hn =>
    refine { hkept with
      capacities := { hcapacities with tasks := hcapacities.tasks.insert_new hnew hcount howner }
      taskIds := fun other task hother => ?_ }
    rcases BTreeMap.get_insert_eq_some hother with ⟨rfl, _⟩ | ⟨_, hold⟩
    · exact ⟨_, hn, rfl⟩
    · exact hkept.taskIds other task hold
  | @contextOpened key owner n hnew hcount howner hn =>
    refine { hkept with
      capacities := { hcapacities with contexts := ?_, contextOwners := fun other => ?_ }
      contextOwners := fun other hnone => ?_
      sessions := fun other sessionId hget => ?_ }
    · rw [size_eq_total, total_insert_new hnew, ← size_eq_total]
      exact hcount
    · rw [total_insert_new (hkept.contextOwners key hnew)]
      by_cases hsame : owner = other
      · subst hsame
        simp only [ofOwner, id, if_true]
        exact howner
      · simp only [ofOwner, id, hsame, if_false]
        exact hcapacities.contextOwners other
    · rw [BTreeMap.get_insert] at hnone ⊢
      by_cases hsame : key = other
      · rw [if_pos hsame] at hnone
        cases hnone
      · rw [if_neg hsame] at hnone ⊢
        exact hkept.contextOwners other hnone
    · rcases BTreeMap.get_insert_eq_some hget with ⟨_, rfl⟩ | ⟨_, hold⟩
      · exact ⟨n, hn, rfl⟩
      · exact hkept.sessions other sessionId hold
  | received hroom =>
    refine { hkept with
      capacities := { hcapacities with receipts := hcapacities.receipts.insert_new hroom }
      receiptKeys := fun other stored hget => ?_ }
    rcases BTreeMap.get_insert_eq_some hget with ⟨rfl, rfl⟩ | ⟨_, hold⟩
    · rfl
    · exact hkept.receiptKeys other stored hold

/-- What updates keep. -/
theorem Updates.kept (h : Updates m m') (hkept : Kept m) : Kept m' := by
  induction h with
  | refl => exact hkept
  | tail _ hstep ih => exact hstep.kept ih

/-! ### Marks -/

namespace A2aMapper

variable {m m' : A2aMapper}

variable {dispatchId : String} {revision : Nat}

/-- A dispatch is replaced, and the revision goes on. -/
theorem updates_replaceDispatchRecord {record : A2aDispatchOutboxRecord}
    (h : m.replaceDispatchRecord dispatchId record = .ok m') : Updates m { m' with revision } :=
  .tail (.single (.dispatchReplaced h)) (.counted m' m'.nextSequence revision)

variable {cancellationId : String}

theorem updates_replaceCancellationRecord {record : A2aCancellationOutboxRecord} (h : m.replaceCancellationRecord cancellationId record = .ok m') :
    Updates m { m' with revision } :=
  .tail (.single (.cancellationReplaced h)) (.counted m' m'.nextSequence revision)

variable {eventId : String}

theorem updates_replacePendingEvent {event : A2aPendingEventIntent}
    (h : m.replacePendingEvent eventId event = .ok m') : Updates m { m' with revision } :=
  .tail (.single (.eventReplaced h)) (.counted m' m'.nextSequence revision)

theorem updates_markDispatchRunning (h : m.markDispatchRunning dispatchId = .ok m') :
    Updates m m' := by
  simp only [markDispatchRunning, bind_eq_ok, pure, Except.pure, Except.ok.injEq] at h
  obtain ⟨_, _, _, _, _, _, _, _, _, _, revision, _, replaced, hreplace, rfl⟩ := h
  exact updates_replaceDispatchRecord hreplace

theorem updates_markDispatchReconcilePending
    (h : m.markDispatchReconcilePending dispatchId = .ok m') : Updates m m' := by
  simp only [markDispatchReconcilePending, bind_eq_ok, pure, Except.pure, Except.ok.injEq] at h
  obtain ⟨_, _, _, _, revision, _, replaced, hreplace, rfl⟩ := h
  exact updates_replaceDispatchRecord hreplace

theorem updates_markDispatchSettled (h : m.markDispatchSettled dispatchId = .ok m') :
    Updates m m' := by
  simp only [markDispatchSettled, bind_eq_ok] at h
  obtain ⟨_, _, h⟩ := h
  split at h
  · rw [← Except.ok.inj h]
  · simp only [bind_eq_ok, pure, Except.pure, Except.ok.injEq] at h
    obtain ⟨revision, _, replaced, hreplace, rfl⟩ := h
    exact updates_replaceDispatchRecord hreplace

theorem updates_markCancellationRunning
    (h : m.markCancellationRunning cancellationId = .ok m') : Updates m m' := by
  simp only [markCancellationRunning, bind_eq_ok, pure, Except.pure, Except.ok.injEq] at h
  obtain ⟨_, _, _, _, _, _, _, _, _, _, revision, _, replaced, hreplace, rfl⟩ := h
  exact updates_replaceCancellationRecord hreplace

theorem updates_markCancellationReconcilePending
    (h : m.markCancellationReconcilePending cancellationId = .ok m') : Updates m m' := by
  simp only [markCancellationReconcilePending, bind_eq_ok, pure, Except.pure, Except.ok.injEq] at h
  obtain ⟨_, _, _, _, revision, _, replaced, hreplace, rfl⟩ := h
  exact updates_replaceCancellationRecord hreplace

theorem updates_markCancellationSettled
    (h : m.markCancellationSettled cancellationId = .ok m') : Updates m m' := by
  simp only [markCancellationSettled, bind_eq_ok] at h
  obtain ⟨_, _, h⟩ := h
  split at h
  · rw [← Except.ok.inj h]
  · simp only [bind_eq_ok, pure, Except.pure, Except.ok.injEq] at h
    obtain ⟨revision, _, replaced, hreplace, rfl⟩ := h
    exact updates_replaceCancellationRecord hreplace

theorem updates_markEventReconcilePending {failedAtUnixMs : Nat}
    (h : m.markEventReconcilePending eventId failedAtUnixMs = .ok m') : Updates m m' := by
  simp only [markEventReconcilePending, bind_eq_ok, pure, Except.pure, Except.ok.injEq] at h
  obtain ⟨_, _, _, _, revision, _, replaced, hreplace, rfl⟩ := h
  exact updates_replacePendingEvent hreplace

theorem updates_markEventQuarantined {reason : A2aEventQuarantineReason}
    (h : m.markEventQuarantined eventId reason = .ok m') : Updates m m' := by
  simp only [markEventQuarantined, bind_eq_ok] at h
  obtain ⟨_, _, _, _, h⟩ := h
  split at h
  · simp only [bind_eq_ok, pure, Except.pure, Except.ok.injEq] at h
    obtain ⟨_, _, rfl⟩ := h
    exact .refl
  · simp only [bind_eq_ok, pure, Except.pure, Except.ok.injEq] at h
    obtain ⟨_, _, revision, _, replaced, hreplace, rfl⟩ := h
    exact updates_replacePendingEvent hreplace

theorem updates_markEventSettled (h : m.markEventSettled eventId = .ok m') : Updates m m' := by
  simp only [markEventSettled, bind_eq_ok] at h
  obtain ⟨_, _, h⟩ := h
  split at h
  · rw [← Except.ok.inj h]
  · simp only [bind_eq_ok, pure, Except.pure, Except.ok.injEq] at h
    obtain ⟨_, _, revision, _, replaced, hreplace, rfl⟩ := h
    exact updates_replacePendingEvent hreplace

theorem updates_clampEvents {latestAllowed : Nat} {eventIds : List String}
    (h : clampEvents latestAllowed revision m eventIds = .ok m') : Updates m m' := by
  induction eventIds generalizing m with
  | nil => rw [← Except.ok.inj h]
  | cons eventId rest ih =>
    simp only [clampEvents, bind_eq_ok] at h
    obtain ⟨_, _, replaced, hreplace, h⟩ := h
    exact .head (.eventReplaced hreplace) (ih h)

theorem updates_clampRestoredEventRetryDeadlines {nowUnixMs : Nat}
    (h : m.clampRestoredEventRetryDeadlines nowUnixMs = .ok m') : Updates m m' := by
  unfold clampRestoredEventRetryDeadlines at h
  dsimp only at h
  split at h
  · rw [← Except.ok.inj h]
  · simp only [bind_eq_ok, pure, Except.pure, Except.ok.injEq] at h
    obtain ⟨revision, _, clamped, hclamp, rfl⟩ := h
    exact .tail (updates_clampEvents hclamp) (.counted clamped clamped.nextSequence revision)

/-! ### Transitions and completions -/

section Transitions

variable [Digest] {taskId : String} {next : A2aTaskState} {statusMessage : Option String}
  {dispatchAck cancellationAck : Option (String × Nat)} {nowUnixMs revision : Nat}

variable {dispatchId : String}

omit [Digest] in
theorem updates_settleDispatchAtRevision
    (h : m.settleDispatchAtRevision dispatchId revision = .ok m') : Updates m m' ∧ m'.tasks = m.tasks := by
  simp only [settleDispatchAtRevision, bind_eq_ok] at h
  obtain ⟨_, _, h⟩ := h
  split at h
  · rw [← Except.ok.inj h]
    exact ⟨.refl, rfl⟩
  · refine ⟨.single (.dispatchReplaced h), ?_⟩
    obtain ⟨_, _, _, _, rfl⟩ := replaceDispatchRecord_spec h
    rfl

omit [Digest] in
theorem updates_settleTaskCancellationAtRevision
    (h : m.settleTaskCancellationAtRevision taskId revision = .ok m') : Updates m m' ∧ m'.tasks = m.tasks := by
  unfold settleTaskCancellationAtRevision at h
  split at h
  · rw [← Except.ok.inj h]
    exact ⟨.refl, rfl⟩
  · split at h
    · rw [← Except.ok.inj h]
      exact ⟨.refl, rfl⟩
    · refine ⟨.single (.cancellationReplaced h), ?_⟩
      obtain ⟨_, _, _, _, rfl⟩ := replaceCancellationRecord_spec h
      rfl

omit [Digest] in
theorem updates_insertNewPendingEvent {event : A2aPendingEventIntent} (h : m.insertNewPendingEvent event = .ok m') :
    Updates m m' ∧ m'.tasks = m.tasks := by
  refine ⟨.single (.eventInserted h), ?_⟩
  obtain ⟨_, _, _, _, _, rfl⟩ := insertNewPendingEvent_spec h
  rfl

omit [Digest] in
theorem updates_insertEvents {new : List A2aPendingEventIntent} (h : m.insertEvents new = .ok m') :
    Updates m m' ∧ m'.tasks = m.tasks := by
  induction new generalizing m with
  | nil =>
    rw [← Except.ok.inj h]
    exact ⟨.refl, rfl⟩
  | cons event rest ih =>
    simp only [insertEvents, bind_eq_ok] at h
    obtain ⟨inserted, hinsert, h⟩ := h
    obtain ⟨hfirst, hsame⟩ := updates_insertNewPendingEvent hinsert
    obtain ⟨hrest, hsame'⟩ := ih h
    exact ⟨hfirst.trans hrest, hsame'.trans hsame⟩

omit [Digest] in
/-- The last updates of an operation: a task moves, at the next revision. -/
theorem updates_moveTask {before after : A2aTaskRecord} (hget : m.tasks[taskId]? = some before)
    (howner : after.owner = before.owner) :
    Updates m { m with revision, tasks := m.tasks.insert taskId after } :=
  .tail (.single (.counted m m.nextSequence revision))
    (Update.taskMoved (m := { m with revision }) hget howner)

theorem updates_transitionTaskCandidate
    (h : m.transitionTaskCandidate taskId next statusMessage dispatchAck cancellationAck nowUnixMs = .ok m') :
    Updates m m' := by
  simp only [transitionTaskCandidate, bind_eq_ok, okOr_eq_ok, pure, Except.pure, Except.ok.injEq] at h
  obtain ⟨existing, hget, _, _, _, _, _, _, _, _, revision, _, _, _, settled, hsettled, cancelled, hcancelled,
    inserted, hinsert, rfl⟩ := h
  have hfirst : Updates m settled ∧ settled.tasks = m.tasks := by
    unfold settleStoppedDispatch at hsettled
    split at hsettled
    · rw [← Except.ok.inj hsettled]
      exact ⟨.refl, rfl⟩
    · split at hsettled
      · exact updates_settleDispatchAtRevision hsettled
      · rw [← Except.ok.inj hsettled]
        exact ⟨.refl, rfl⟩
  have hsecond : Updates settled cancelled ∧ cancelled.tasks = settled.tasks := by
    unfold settleStoppedCancellation at hcancelled
    split at hcancelled
    · exact updates_settleTaskCancellationAtRevision hcancelled
    · rw [← Except.ok.inj hcancelled]
      exact ⟨.refl, rfl⟩
  have hthird := updates_insertNewPendingEvent hinsert
  rw [← hfirst.2, ← hsecond.2, ← hthird.2] at hget
  exact ((hfirst.1.trans hsecond.1).trans hthird.1).trans (updates_moveTask hget rfl)

variable {expectedAttempt : Nat}

theorem updates_transitionDispatchTask
    (h : m.transitionDispatchTask dispatchId expectedAttempt next statusMessage nowUnixMs = .ok m') :
    Updates m m' := by
  simp only [transitionDispatchTask, bind_eq_ok] at h
  obtain ⟨_, _, _, _, _, _, h⟩ := h
  split at h
  · simp only [bind_eq_ok, pure, Except.pure, Except.ok.injEq] at h
    obtain ⟨_, _, rfl⟩ := h
    exact .refl
  · exact updates_transitionTaskCandidate h

theorem updates_acknowledgeCancellation
    (h : m.acknowledgeCancellation cancellationId expectedAttempt statusMessage nowUnixMs = .ok m') :
    Updates m m' := by
  simp only [acknowledgeCancellation, bind_eq_ok] at h
  obtain ⟨_, _, h⟩ := h
  exact updates_transitionTaskCandidate h

theorem updates_completeDispatchOutput
    {output : A2aDispatchCompletionOutput} {task : A2aTaskRecord} (hwell : WellKept m)
    (h : m.completeDispatchOutput dispatchId expectedAttempt output nowUnixMs = .ok (task, m')) : Updates m m' := by
  simp only [completeDispatchOutput, bind_eq_ok, okOr_eq_ok] at h
  obtain ⟨dispatch, _, _, _, existing, hget, h⟩ := h
  split at h
  · simp only [bind_eq_ok, pure, Except.pure, Except.ok.injEq, Prod.mk.injEq] at h
    obtain ⟨_, _, _, rfl⟩ := h
    exact .refl
  · simp only [bind_eq_ok, pure, Except.pure, Except.ok.injEq, Prod.mk.injEq] at h
    obtain ⟨_, _, _, _, _, _, _, _, revision, _, response, _, _, _, replaced, hreplace, settled, hsettle, cancelled,
      hcancel, published, hpublish, inserted, hinsert, rfl, rfl⟩ := h
    have hmapping := (hwell.tasks _ existing hget).mapping
    have hfirst : Updates m replaced ∧ replaced.tasks = m.tasks := by
      refine ⟨.single (.dispatchReplaced hreplace), ?_⟩
      obtain ⟨_, _, _, _, rfl⟩ := replaceDispatchRecord_spec hreplace
      rfl
    have hsecond := updates_settleDispatchAtRevision hsettle
    have hthird := updates_settleTaskCancellationAtRevision hcancel
    have hfourth := updates_insertEvents hpublish
    have hlast := updates_insertNewPendingEvent hinsert
    rw [← hmapping, ← hfirst.2, ← hsecond.2, ← hthird.2, ← hfourth.2, ← hlast.2] at hget
    exact ((((hfirst.1.trans hsecond.1).trans hthird.1).trans hfourth.1).trans hlast.1).trans
      (updates_moveTask hget rfl)

/-! ### Cancellations -/

theorem updates_requestCancellation {existing projected : A2aTaskRecord} {envelope : GovernanceEnvelope}
    (hget : m.tasks[taskId]? = some existing)
    (h : m.requestCancellation existing envelope taskId = .ok (projected, m')) : Updates m m' := by
  simp only [requestCancellation, bind_eq_ok, pure, Except.pure, Except.ok.injEq, Prod.mk.injEq] at h
  obtain ⟨inserted, hevent, cancelling, hcontrol, _, rfl⟩ := h
  have hfirst := updates_insertNewPendingEvent hevent
  have hsecond : Updates inserted cancelling ∧ cancelling.tasks = inserted.tasks := by
    refine ⟨.single (.cancellationInserted hcontrol), ?_⟩
    obtain ⟨_, _, rfl⟩ := insertNewCancellation_spec hcontrol
    rfl
  rw [← hfirst.2, ← hsecond.2] at hget
  exact (hfirst.1.trans hsecond.1).trans (updates_moveTask hget rfl)

theorem updates_prepareCancelTaskCandidate {correlation : CorrelationIdentity}
    {principal : Option ProtocolPrincipal} :
    Updates m (m.prepareCancelTaskCandidate taskId correlation principal).2 := by
  unfold prepareCancelTaskCandidate
  split
  · exact .refl
  · next existing hget =>
    dsimp only
    split
    · split
      · exact .refl
      · split
        · exact .refl
        · split
          · split
            · exact .refl
            · next projected cancelling hrequest => exact updates_requestCancellation hget hrequest
          · exact .refl
    · exact .refl

end Transitions

end A2aMapper

end AikitRuntime.A2a
