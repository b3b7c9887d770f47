import AikitRuntime.Mcp.Collection

/-!
# How receipts are answered

A task that ends answers every receipt that waits for it: the state is `release`d, and for each of these
receipts there is one message. Expiry does it for one due task after another, and cannot fail.
-/

namespace AikitRuntime.Mcp

open Library Durability McpServerState
open Agent (JsonSchema)

/-! ### One release -/

section Release

variable {state : McpServerState} {answer : McpRequestReceipt → Option Value} {at_ : Nat}

theorem get_release {key : String} : (state.release answer at_).1.receipts[key]? =
    state.receipts[key]?.map (answered answer at_) := BTreeMap.get_map

variable {receipt : McpRequestReceipt}

/-- What a receipt waits for keeps its answer. -/
theorem answered_of_none (h : answer receipt = none) :
    answered answer at_ receipt = receipt := by
  unfold McpServerState.answered
  rw [h]

theorem answered_of_some {response : Value} (h : answer receipt = some response) :
    answered answer at_ receipt = { receipt with state := .completed response at_ } := by
  unfold McpServerState.answered
  rw [h]

end Release

/-! ### The end of a task -/

/-- The response that a receipt gets when a task ends. -/
def taskAnswer (taskId : String) (result : ProtocolResult Value) (receipt : McpRequestReceipt) :
    Option Value :=
  (directAnswer taskId result receipt).or (waiterAnswer taskId result receipt)

section Task

variable {taskId : String} {result : ProtocolResult Value} {receipt : McpRequestReceipt} {response : Value}

/-- A tool call that waits for a task. -/
theorem directAnswer_eq_some (h : directAnswer taskId result receipt = some response) :
    receipt.state = .pendingHost "tools/call" (some taskId) ∧
      response.get "id" = some receipt.requestId := by
  unfold directAnswer at h
  split at h
  · next hstate =>
    split at h
    · next hmatches =>
      obtain ⟨rfl, rfl⟩ := hmatches
      rw [Option.some.injEq] at h
      refine ⟨hstate, ?_⟩
      rw [← h]
      cases result with
      | ok value => exact get_id_jsonrpcResult ..
      | error error => exact get_id_protocolErrorResponse ..
    · cases h
  · cases h

/-- A request that waits for the result of a task. -/
theorem waiterAnswer_eq_some (h : waiterAnswer taskId result receipt = some response) :
    receipt.state = .waitingForTask taskId ∧ response.get "id" = some receipt.requestId := by
  unfold waiterAnswer at h
  split at h
  · next hstate =>
    split at h
    · next hmatches =>
      obtain rfl := hmatches
      rw [Option.some.injEq] at h
      refine ⟨hstate, ?_⟩
      rw [← h]
      cases result with
      | ok value => exact get_id_jsonrpcResult ..
      | error error => exact get_id_protocolErrorResponse ..
    · cases h
  · cases h

/-- A receipt that gets a response waits for the task. -/
theorem taskAnswer_eq_some (h : taskAnswer taskId result receipt = some response) :
    receipt.taskId = some taskId ∧ response.get "id" = some receipt.requestId := by
  unfold taskAnswer at h
  rw [Option.or_eq_some_iff] at h
  rcases h with h | ⟨_, h⟩
  · obtain ⟨hstate, hid⟩ := directAnswer_eq_some h
    refine ⟨?_, hid⟩
    unfold McpRequestReceipt.taskId
    rw [hstate]
  · obtain ⟨hstate, hid⟩ := waiterAnswer_eq_some h
    refine ⟨?_, hid⟩
    unfold McpRequestReceipt.taskId
    rw [hstate]

/-- The two loops over the receipts are one. -/
theorem answered_answered {at_ : Nat} :
    answered (waiterAnswer taskId result) at_
        (answered (directAnswer taskId result) at_ receipt) =
      answered (taskAnswer taskId result) at_ receipt := by
  cases hdirect : directAnswer taskId result receipt with
  | none =>
    rw [answered_of_none hdirect]
    unfold McpServerState.answered taskAnswer
    rw [hdirect, Option.none_or]
  | some direct =>
    have htask : taskAnswer taskId result receipt = some direct := by
      unfold taskAnswer
      rw [hdirect, Option.some_or]
    rw [answered_of_some hdirect, answered_of_some htask]
    exact answered_of_none rfl

end Task

/-! #### Its release -/

/-- What an update of the times leaves of the metadata. -/
structure SameWire (metadata metadata' : McpTaskWireMetadata) : Prop where
  connectionId : metadata'.connectionId = metadata.connectionId
  expiresAtUnixMs : metadata'.expiresAtUnixMs = metadata.expiresAtUnixMs
  progressToken : metadata'.progressToken = metadata.progressToken

theorem sameWire_trans {a b c : Option McpTaskWireMetadata} (h : Option.Rel SameWire a b)
    (h' : Option.Rel SameWire b c) : Option.Rel SameWire a c := by
  cases h with
  | none =>
    cases h'
    exact .none
  | some hab =>
    cases h' with
    | some hbc =>
      exact .some ⟨hbc.connectionId.trans hab.connectionId, hbc.expiresAtUnixMs.trans hab.expiresAtUnixMs,
        hbc.progressToken.trans hab.progressToken⟩

/-- The same tasks have metadata, less the times. -/
def SameMetadata (state state' : McpServerState) : Prop :=
  ∀ id : String, Option.Rel SameWire state.taskMetadata[id]? state'.taskMetadata[id]?

theorem SameMetadata.refl (state : McpServerState) : SameMetadata state state := by
  intro id
  cases state.taskMetadata[id]? with
  | none => exact .none
  | some metadata => exact .some ⟨rfl, rfl, rfl⟩

theorem SameMetadata.trans {a b c : McpServerState} (h : SameMetadata a b) (h' : SameMetadata b c) :
    SameMetadata a c := fun id => sameWire_trans (h id) (h' id)

namespace McpServerState

variable {state : McpServerState} {taskId now : String} {nowUnixMs : Nat}

theorem sameMetadata_updateTaskTime (state : McpServerState) (taskId now : String) (nowUnixMs : Nat) :
    SameMetadata state (state.updateTaskTime taskId now nowUnixMs) := by
  unfold updateTaskTime
  split
  · exact .refl state
  · next metadata hmetadata =>
    intro id
    dsimp only
    rw [BTreeMap.get_insert]
    by_cases heq : taskId = id
    · rw [if_pos heq, ← heq, hmetadata]
      exact .some ⟨rfl, rfl, rfl⟩
    · rw [if_neg heq]
      exact SameMetadata.refl state id

theorem sameMetadata_stampTask (state : McpServerState) (taskId now : String) (nowUnixMs : Nat) :
    SameMetadata state (state.stampTask taskId now nowUnixMs) := by
  unfold stampTask
  split
  · exact .refl state
  · exact sameMetadata_updateTaskTime state _ now nowUnixMs

/-- A new time is all that is new. -/
theorem updateTaskTime_fields (state : McpServerState) (taskId now : String) (nowUnixMs : Nat) : ∃ taskMetadata,
    state.updateTaskTime taskId now nowUnixMs = { state with taskMetadata } := by
  unfold updateTaskTime
  split
  · exact ⟨_, rfl⟩
  · exact ⟨_, rfl⟩

theorem stampTask_fields (state : McpServerState) (taskId now : String) (nowUnixMs : Nat) : ∃ taskMetadata,
    state.stampTask taskId now nowUnixMs = { state with taskMetadata } := by
  unfold stampTask
  split
  · exact ⟨_, rfl⟩
  · exact updateTaskTime_fields ..

end McpServerState

/-- What the release of a task leaves. -/
structure Released (answer : McpRequestReceipt → Option Value) (at_ : Nat) (state state' : McpServerState) :
    Prop where
  schemaVersion : state'.schemaVersion = state.schemaVersion
  storageRevision : state'.storageRevision = state.storageRevision
  registry : state'.registry = state.registry
  connections : state'.connections = state.connections
  metadata : SameMetadata state state'
  receipts : ∀ key : String, state'.receipts[key]? =
    state.receipts[key]?.map (answered answer at_)

/-- **The end of a task answers the receipts that wait for it**. -/
theorem releaseTask_spec (state : McpServerState) (taskId : String) (result : ProtocolResult Value)
    (now : String) (nowUnixMs : Nat) : Released (taskAnswer taskId result) nowUnixMs state
      (state.releaseTask taskId result now nowUnixMs).1 := by
  have hsame := sameMetadata_stampTask state taskId now nowUnixMs
  obtain ⟨taskMetadata, hstamp⟩ := stampTask_fields state taskId now nowUnixMs
  unfold releaseTask
  rw [hstamp] at hsame ⊢
  refine ⟨rfl, rfl, rfl, rfl, hsame, fun key => ?_⟩
  show (release _ _ _).1.receipts[key]? = _
  rw [get_release]
  show Option.map _ ((release _ _ _).1.receipts[key]?) = _
  rw [get_release, Option.map_map]
  congr 1
  funext receipt
  exact answered_answered

/-! ### Expiry -/

/-- A task whose time is over. -/
def expiredTask (revision : Nat) (task : McpTask) : McpTask :=
  { task with
    status := .failed
    cancellation := none
    pendingApproval := none
    statusMessage := some "MCP task TTL expired"
    error := some (.conflict "MCP task TTL expired")
    updatedRevision := revision }

/-- What becomes of a task whose time is over. -/
inductive Overdue (task : McpTask) : McpTask → Prop where
  | ended (terminal : task.status.isTerminal = true) : Overdue task task
  | expired (running : task.status.isTerminal = false) (revision : Nat) :
    Overdue task (expiredTask revision task)

variable {task : McpTask}

theorem Overdue.isTerminal {task' : McpTask} (h : Overdue task task') :
    task'.status.isTerminal = true := by
  cases h with
  | ended hover => exact hover
  | expired _ revision => rfl

/-- The response that a receipt gets when tasks expire. -/
def expiryAnswer (ids : List String) (receipt : McpRequestReceipt) : Option Value :=
  (receipt.taskId.filter ids.contains).bind fun id =>
    taskAnswer id (.error (.conflict "MCP task TTL expired")) receipt

/-- What the expiry of tasks leaves. -/
structure Expired (ids : List String) (at_ : Nat) (state state' : McpServerState) : Prop where
  schemaVersion : state'.schemaVersion = state.schemaVersion
  storageRevision : state'.storageRevision = state.storageRevision
  tools : state'.registry.tools = state.registry.tools
  resources : state'.registry.resources = state.registry.resources
  prompts : state'.registry.prompts = state.registry.prompts
  sequence : state'.registry.nextTaskSequence = state.registry.nextTaskSequence
  connections : state'.connections = state.connections
  untouched : ∀ id : String, id ∉ ids → state'.registry.tasks[id]? = state.registry.tasks[id]?
  ended : ∀ id ∈ ids, ∃ task task', state.registry.tasks[id]? = some task ∧
    state'.registry.tasks[id]? = some task' ∧ Overdue task task'
  metadata : SameMetadata state state'
  receipts : ∀ key : String, state'.receipts[key]? =
    state.receipts[key]?.map (answered (expiryAnswer ids) at_)

/-- What one expiry leaves of the registry. -/
theorem expireTask_spec {reg : McpServerRegistry} {taskId : String}
    (hget : reg.tasks[taskId]? = some task) : ∃ reg' task', reg.expireTask taskId = .ok reg' ∧
      reg'.tools = reg.tools ∧ reg'.resources = reg.resources ∧ reg'.prompts = reg.prompts ∧
      reg'.nextTaskSequence = reg.nextTaskSequence ∧ Overdue task task' ∧
      ∀ a : String, reg'.tasks[a]? = if taskId = a then some task' else reg.tasks[a]? := by
  have hfound : reg.reported taskId = .ok task := okOr_eq_ok.mpr hget
  unfold McpServerRegistry.expireTask
  rw [hfound, ok_bind]
  cases hstatus : task.status.isTerminal with
  | true =>
    refine ⟨reg, task, rfl, rfl, rfl, rfl, rfl, .ended hstatus, fun a => ?_⟩
    by_cases heq : taskId = a
    · rw [if_pos heq, ← heq, hget]
    · rw [if_neg heq]
  | false => exact ⟨_, _, rfl, rfl, rfl, rfl, rfl, .expired hstatus _, fun a => BTreeMap.get_insert⟩

variable {id : String}

/-- A receipt that was answered is not answered again. -/
theorem answered_expiry {rest : List String} {at_ : Nat} {receipt : McpRequestReceipt} :
    answered (expiryAnswer rest) at_ (answered
        (taskAnswer id (.error (.conflict "MCP task TTL expired"))) at_ receipt) =
      answered (expiryAnswer (id :: rest)) at_ receipt := by
  cases hfirst : taskAnswer id (.error (.conflict "MCP task TTL expired")) receipt with
  | some response =>
    have hall : expiryAnswer (id :: rest) receipt = some response := by
      unfold expiryAnswer
      rw [(taskAnswer_eq_some hfirst).1, Option.filter_some, if_pos (by simp)]
      exact hfirst
    rw [answered_of_some hfirst, answered_of_some hall]
    exact answered_of_none rfl
  | none =>
    rw [answered_of_none hfirst]
    have hall : expiryAnswer (id :: rest) receipt = expiryAnswer rest receipt := by
      unfold expiryAnswer
      cases hwaits : receipt.taskId with
      | none => rfl
      | some a =>
        by_cases heq : a = id
        · subst heq
          simp only [Option.filter_some]
          split <;> split <;> simp [hfirst]
        · simp [Option.filter_some, heq]
    unfold McpServerState.answered
    rw [hall]

/-- One expiry after another. -/
theorem Expired.cons {id : String} {rest : List String} {at_ : Nat} {state next state' : McpServerState}
    {registry : McpServerRegistry} {task task' : McpTask} (hget : state.registry.tasks[id]? = some task)
    (htools : registry.tools = state.registry.tools) (hresources : registry.resources = state.registry.resources)
    (hprompts : registry.prompts = state.registry.prompts)
    (hsequence : registry.nextTaskSequence = state.registry.nextTaskSequence) (hoverdue : Overdue task task')
    (htasks : ∀ a : String, registry.tasks[a]? = if id = a then some task' else state.registry.tasks[a]?)
    (hreleased : Released (taskAnswer id (.error (.conflict "MCP task TTL expired"))) at_
      { state with registry } next) (hrest : Expired rest at_ next state') :
    Expired (id :: rest) at_ state state' := by
  have hnext (a : String) : next.registry.tasks[a]? = if id = a then some task' else state.registry.tasks[a]? := by
    rw [hreleased.registry]
    exact htasks a
  refine ⟨hrest.schemaVersion.trans hreleased.schemaVersion, hrest.storageRevision.trans hreleased.storageRevision,
    by rw [hrest.tools, hreleased.registry, htools], by rw [hrest.resources, hreleased.registry, hresources],
    by rw [hrest.prompts, hreleased.registry, hprompts], by rw [hrest.sequence, hreleased.registry, hsequence],
    hrest.connections.trans hreleased.connections, fun a ha => ?_, fun a ha => ?_,
    SameMetadata.trans hreleased.metadata hrest.metadata, fun key => ?_⟩
  · rw [List.mem_cons, not_or] at ha
    rw [hrest.untouched a ha.2, hnext, if_neg (Ne.symm ha.1)]
  · by_cases heq : id = a
    · subst heq
      refine ⟨task, ?_⟩
      by_cases hagain : id ∈ rest
      · obtain ⟨first, second, hfirst, hsecond, htwice⟩ := hrest.ended id hagain
        rw [hnext, if_pos rfl] at hfirst
        cases hfirst
        refine ⟨second, hget, hsecond, ?_⟩
        cases htwice with
        | ended _ => exact hoverdue
        | expired hrunning _ =>
          rw [hoverdue.isTerminal] at hrunning
          cases hrunning
      · refine ⟨task', hget, ?_, hoverdue⟩
        rw [hrest.untouched id hagain, hnext, if_pos rfl]
    · have hmem : a ∈ rest := (List.mem_cons.mp ha).resolve_left (Ne.symm heq)
      obtain ⟨first, second, hfirst, hsecond, hover⟩ := hrest.ended a hmem
      rw [hnext, if_neg heq] at hfirst
      exact ⟨first, second, hfirst, hsecond, hover⟩
  · rw [hrest.receipts, hreleased.receipts, Option.map_map]
    congr 1
    funext receipt
    exact answered_expiry

theorem Expired.nil {at_ : Nat} {state : McpServerState} : Expired [] at_ state state := by
  refine ⟨rfl, rfl, rfl, rfl, rfl, rfl, rfl, fun _ _ => rfl, by simp, .refl state, fun key => ?_⟩
  have hnone : answered (expiryAnswer []) at_ = fun receipt => receipt := by
    funext receipt
    exact answered_of_none (by simp [expiryAnswer])
  rw [hnone]
  cases state.receipts[key]? <;> rfl

variable {state : McpServerState}

/-- **Expiry cannot fail.** -/
theorem expireTasks_spec {ids : List String} (now : String) (nowUnixMs : Nat)
    (h : ∀ id ∈ ids, ∃ task, state.registry.tasks[id]? = some task) :
    ∃ state' outbound, expireTasks now nowUnixMs ids state = .ok (state', outbound) ∧
      Expired ids nowUnixMs state state' := by
  induction ids generalizing state with
  | nil => exact ⟨state, [], rfl, .nil⟩
  | cons id rest ih =>
    obtain ⟨task, hget⟩ := h id List.mem_cons_self
    obtain ⟨registry, task', hregistry, htools, hresources, hprompts, hsequence, hoverdue, htasks⟩ :=
      expireTask_spec hget
    have hreleased := releaseTask_spec { state with registry } id
      (.error (.conflict "MCP task TTL expired")) now nowUnixMs
    obtain ⟨state', outbound, hrun, hrest⟩ := @ih
      ({ state with registry }.releaseTask id (.error (.conflict "MCP task TTL expired")) now nowUnixMs).1 <| by
        intro a ha
        obtain ⟨other, hother⟩ := h a (List.mem_cons_of_mem _ ha)
        rw [hreleased.registry]
        dsimp only
        rw [htasks]
        split
        · exact ⟨task', rfl⟩
        · exact ⟨other, hother⟩
    refine ⟨state', ({ state with registry }.releaseTask id
      (.error (.conflict "MCP task TTL expired")) now nowUnixMs).2 ++ outbound, ?_,
      .cons hget htools hresources hprompts hsequence hoverdue htasks hreleased hrest⟩
    unfold expireTasks
    rw [hregistry, ok_bind]
    dsimp only
    rw [hrun, ok_bind]
    rfl

/-- What `expire_due_tasks` finds is registered, and not over. -/
theorem mem_dueTasks {now : Nat} : id ∈ state.dueTasks now ↔
    (∃ metadata, state.taskMetadata[id]? = some metadata ∧ isDue metadata now = true) ∧
      ∃ task, state.registry.tasks[id]? = some task ∧ task.status.isTerminal = false := by
  unfold dueTasks isRunning
  rw [List.mem_filter, Option.any_eq_true]
  constructor
  · rintro ⟨hdue, task, hget, hrunning⟩
    obtain ⟨⟨key, metadata⟩, hmem, rfl⟩ := List.mem_map.mp hdue
    obtain ⟨hentry, hover⟩ := List.mem_filter.mp hmem
    exact ⟨⟨metadata, BTreeMap.mem_toList.mp hentry, hover⟩, task, hget, by simpa using hrunning⟩
  · rintro ⟨⟨metadata, hmetadata, hover⟩, task, hget, hrunning⟩
    refine ⟨List.mem_map.mpr ⟨(id, metadata), List.mem_filter.mpr
      ⟨BTreeMap.mem_toList.mpr hmetadata, hover⟩, rfl⟩, task, hget, ?_⟩
    rw [hrunning]
    rfl

/-- **`expire_due_tasks` cannot fail.** -/
theorem expireDueTasks_spec (state : McpServerState) (now : String) (nowUnixMs : Nat) :
    ∃ state' outbound, state.expireDueTasks now nowUnixMs = .ok (state', outbound) ∧
      Expired (state.dueTasks nowUnixMs) nowUnixMs state state' :=
  expireTasks_spec now nowUnixMs fun _ hid =>
    (mem_dueTasks.mp hid).2.imp fun _ htask => htask.1

end AikitRuntime.Mcp
