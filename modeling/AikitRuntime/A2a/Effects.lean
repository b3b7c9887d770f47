import AikitRuntime.A2a.Outboxes

/-!
# What an operation does

`Effect` says what one operation can do to the tasks, the dispatches and the cancellation controls of a
mapper: an entry stays, a new one is created, or one moves, and how. Every operation has such an effect on
a mapper that is `WellKept`, and a mapper stays so.
-/

namespace AikitRuntime.A2a

open Library Durability Mcp

/-! ### Moves -/

/-- How the attempts of a dispatch or of a cancellation go on. -/
inductive AttemptMove {S : Type} (queued running reconcilePending settled : S) (limit : Nat) :
    S → Nat → S → Nat → Prop where
  | run (state : S) (attempts : Nat) (hstate : state = queued ∨ state = reconcilePending)
      (hlimit : attempts + 1 ≤ limit) :
    AttemptMove queued running reconcilePending settled limit state attempts running (attempts + 1)
  | reconcile (state : S) (attempts : Nat) (hstate : state = queued ∨ state = running) :
    AttemptMove queued running reconcilePending settled limit state attempts reconcilePending attempts
  | settle (state : S) (attempts : Nat) (hstate : state ≠ settled) :
    AttemptMove queued running reconcilePending settled limit state attempts settled attempts

/-- How a dispatch moves. -/
structure DispatchMove (id : String) (before after : A2aDispatchOutboxRecord) : Prop where
  identity : after.SameIdentity id before
  attempt : AttemptMove .queued .running .reconcilePending .settled maxDispatchAttempts
    before.state before.attempts after.state after.attempts

/-- How a cancellation control moves. -/
structure CancellationMove (id : String) (before after : A2aCancellationOutboxRecord) : Prop where
  identity : after.SameIdentity id before
  attempt : AttemptMove .queued .running .reconcilePending .settled maxCancellationAttempts
    before.state before.attempts after.state after.attempts

/-- Every control of a task that is not settled is the one that is acknowledged, at its attempt. -/
def Unfenced (m : A2aMapper) (acknowledged : Option (String × Nat)) (taskId : String) : Prop :=
  ∀ (id : String) (control : A2aCancellationOutboxRecord), m.cancellationOutbox[id]? = some control →
    control.taskId = taskId → control.state ≠ .settled →
    acknowledged = some (control.cancellationId, control.attempts)

/-- How a task moves. -/
structure TaskMove (m : A2aMapper) (acknowledged : Option (String × Nat)) (taskId : String)
    (before after : A2aTaskRecord) : Prop where
  mapping : after.mapping = before.mapping
  owner : after.owner = before.owner
  live : before.state.isTerminal = false
  unfenced : Unfenced m acknowledged taskId

/-- A new task, with an id that was generated. -/
structure NewTask (nextSequence : Nat) (taskId : String) (task : A2aTaskRecord) : Prop where
  mapping : task.mapping.taskId = taskId
  generated : ∃ n, n < nextSequence ∧ taskId = generatedId "a2a-task" n

/-- A new dispatch, of a task of its owner. -/
structure NewDispatch (m : A2aMapper) (id : String) (record : A2aDispatchOutboxRecord) : Prop where
  id_eq : record.dispatchId = id
  state : record.state = .queued
  attempts : record.attempts = 0
  task : ∃ task, m.tasks[record.taskId]? = some task ∧ task.owner = record.owner

/-- A new control, of a task of its owner. -/
structure NewCancellation [Digest] (m : A2aMapper) (id : String) (record : A2aCancellationOutboxRecord) :
    Prop where
  id_eq : record.cancellationId = id
  state : record.state = .queued
  attempts : record.attempts = 0
  task : ∃ task, m.tasks[record.taskId]? = some task ∧ task.owner = record.owner ∧
    cancellationIdForTask task = id

/-- What an operation does. -/
structure Effect [Digest] (acknowledged : Option (String × Nat)) (m m' : A2aMapper) : Prop where
  tasks : ∀ taskId, EntryStep (NewTask m'.nextSequence taskId) (TaskMove m acknowledged taskId)
    m.tasks[taskId]? m'.tasks[taskId]?
  dispatches : ∀ id, EntryStep (NewDispatch m' id) (DispatchMove id)
    m.dispatchOutbox[id]? m'.dispatchOutbox[id]?
  cancellations : ∀ id, EntryStep (NewCancellation m' id) (CancellationMove id)
    m.cancellationOutbox[id]? m'.cancellationOutbox[id]?
  sequence : m.nextSequence ≤ m'.nextSequence

/-! ### The invariant -/

/-- Every entry is under its own key, and belongs to a task of its owner. -/
structure WellKept [Digest] (m : A2aMapper) : Prop where
  tasks : ∀ (taskId : String) (task : A2aTaskRecord), m.tasks[taskId]? = some task →
    NewTask m.nextSequence taskId task
  dispatches : ∀ (id : String) (record : A2aDispatchOutboxRecord), m.dispatchOutbox[id]? = some record →
    record.dispatchId = id ∧ record.attempts ≤ maxDispatchAttempts ∧
      ∃ task, m.tasks[record.taskId]? = some task ∧ task.owner = record.owner
  cancellations : ∀ (id : String) (record : A2aCancellationOutboxRecord),
    m.cancellationOutbox[id]? = some record →
    record.cancellationId = id ∧ record.attempts ≤ maxCancellationAttempts ∧
      ∃ task, m.tasks[record.taskId]? = some task ∧ task.owner = record.owner ∧
        cancellationIdForTask task = id

section

variable [Digest] {m m' : A2aMapper} {acknowledged : Option (String × Nat)}

/-- A control's id is that of its task. -/
theorem cancellationIdForTask_congr {task task' : A2aTaskRecord} (hmapping : task'.mapping = task.mapping)
    (howner : task'.owner = task.owner) : cancellationIdForTask task' = cancellationIdForTask task := by
  simp only [A2aTaskRecord.owner, A2aContextOwner.mk.injEq] at howner
  unfold cancellationIdForTask
  rw [hmapping, howner.1, howner.2]

/-- A task has one control. -/
theorem WellKept.one_control (hkept : WellKept m) {id id' : String}
    {control control' : A2aCancellationOutboxRecord} (h : m.cancellationOutbox[id]? = some control)
    (h' : m.cancellationOutbox[id']? = some control') (htask : control.taskId = control'.taskId) :
    id = id' ∧ control = control' := by
  obtain ⟨_, _, task, hget, _, hid⟩ := hkept.cancellations id control h
  obtain ⟨_, _, task', hget', _, hid'⟩ := hkept.cancellations id' control' h'
  rw [htask, hget', Option.some.injEq] at hget
  have heq : id = id' := by rw [← hid, ← hid', hget]
  subst heq
  rw [h, Option.some.injEq] at h'
  exact ⟨rfl, h'⟩

theorem wellKept_new : WellKept .new :=
  ⟨fun _ _ h => by simp [A2aMapper.new] at h, fun _ _ h => by simp [A2aMapper.new] at h,
    fun _ _ h => by simp [A2aMapper.new] at h⟩

/-- A task stays, with its mapping and its owner. -/
theorem Effect.task_stays (heffect : Effect acknowledged m m') {taskId : String} {task : A2aTaskRecord}
    (h : m.tasks[taskId]? = some task) :
    ∃ task', m'.tasks[taskId]? = some task' ∧ task'.mapping = task.mapping ∧ task'.owner = task.owner := by
  have hstep := heffect.tasks taskId
  rw [h] at hstep
  obtain ⟨task', hget, rfl | hmove⟩ := hstep.of_some
  · exact ⟨task', hget, rfl, rfl⟩
  · exact ⟨task', hget, hmove.mapping, hmove.owner⟩

omit [Digest] in
theorem AttemptMove.bounded {S : Type} {queued running reconcilePending settled state state' : S}
    {limit attempts attempts' : Nat} (hbound : attempts ≤ limit)
    (h : AttemptMove queued running reconcilePending settled limit state attempts state' attempts') :
    attempts' ≤ limit := by
  cases h with
  | run _ hlimit => exact hlimit
  | reconcile => exact hbound
  | settle => exact hbound

/-- An effect keeps the mapper well kept. -/
theorem Effect.wellKept (hkept : WellKept m) (heffect : Effect acknowledged m m') : WellKept m' where
  tasks taskId := by
    refine (heffect.tasks taskId).keeps (fun _ h => h) (fun before after h hmove => ?_) fun task h => ?_
    · exact ⟨by rw [hmove.mapping, h.mapping], h.generated⟩
    · obtain ⟨hmapping, n, hn, hid⟩ := hkept.tasks taskId task h
      exact ⟨hmapping, n, Nat.lt_of_lt_of_le hn heffect.sequence, hid⟩
  dispatches id := by
    refine (heffect.dispatches id).keeps (fun new h => ?_) (fun before after h hmove => ?_)
      fun record h => ?_
    · exact ⟨h.id_eq, by rw [h.attempts]; exact Nat.zero_le _, h.task⟩
    · obtain ⟨hid, howner, _, htask, _⟩ := hmove.identity
      obtain ⟨_, hbound, task, hget, htaskOwner⟩ := h
      exact ⟨hid, hmove.attempt.bounded hbound, task, by rw [htask, hget], by rw [htaskOwner, howner]⟩
    · obtain ⟨hid, hbound, task, hget, howner⟩ := hkept.dispatches id record h
      obtain ⟨task', hget', _, howner'⟩ := heffect.task_stays hget
      exact ⟨hid, hbound, task', hget', by rw [howner', howner]⟩
  cancellations id := by
    refine (heffect.cancellations id).keeps (fun new h => ?_) (fun before after h hmove => ?_)
      fun record h => ?_
    · exact ⟨h.id_eq, by rw [h.attempts]; exact Nat.zero_le _, h.task⟩
    · obtain ⟨hid, howner, htask, _⟩ := hmove.identity
      obtain ⟨_, hbound, task, hget, htaskOwner, htaskId⟩ := h
      exact ⟨hid, hmove.attempt.bounded hbound, task, by rw [htask, hget], by rw [htaskOwner, howner],
        htaskId⟩
    · obtain ⟨hid, hbound, task, hget, howner, htaskId⟩ := hkept.cancellations id record h
      obtain ⟨task', hget', hmapping, howner'⟩ := heffect.task_stays hget
      exact ⟨hid, hbound, task', hget', by rw [howner', howner],
        by rw [cancellationIdForTask_congr hmapping howner', htaskId]⟩

/-! ### Effects of updates -/

/-- Nothing of it changes. -/
theorem effect_of_eq (htasks : m'.tasks = m.tasks) (hdispatches : m'.dispatchOutbox = m.dispatchOutbox)
    (hcancellations : m'.cancellationOutbox = m.cancellationOutbox)
    (hsequence : m.nextSequence ≤ m'.nextSequence) : Effect acknowledged m m' :=
  ⟨fun _ => htasks ▸ .same _, fun _ => hdispatches ▸ .same _, fun _ => hcancellations ▸ .same _, hsequence⟩

theorem Effect.refl (m : A2aMapper) : Effect acknowledged m m := effect_of_eq rfl rfl rfl (Nat.le_refl _)

/-- One dispatch moves. -/
theorem effect_of_dispatch {id : String} {before after : A2aDispatchOutboxRecord} {bytes revision : Nat}
    (h : m.dispatchOutbox[id]? = some before) (hmove : DispatchMove id before after) :
    Effect acknowledged m
      { m with dispatchBytes := bytes, dispatchOutbox := m.dispatchOutbox.insert id after, revision } :=
  ⟨fun _ => .same _, fun _ => entryStep_insert_moved (M := DispatchMove) h hmove,
    fun _ => .same _, Nat.le_refl _⟩

/-- One control moves. -/
theorem effect_of_cancellation {id : String} {before after : A2aCancellationOutboxRecord}
    {bytes revision : Nat} (h : m.cancellationOutbox[id]? = some before)
    (hmove : CancellationMove id before after) :
    Effect acknowledged m
      { m with
        cancellationBytes := bytes, cancellationOutbox := m.cancellationOutbox.insert id after
        revision } :=
  ⟨fun _ => .same _, fun _ => .same _,
    fun _ => entryStep_insert_moved (M := CancellationMove) h hmove, Nat.le_refl _⟩

end

end AikitRuntime.A2a
