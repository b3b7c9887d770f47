import AikitRuntime.Mcp.Operations

/-!
# What time does to the state

Garbage collection and expiry change the state before a request is answered. Collection drops receipts
that are complete and tasks that ended and that no receipt waits for; what it leaves is valid if the
state was (`Collected`). Expiry ends tasks, and answers the receipts that wait for them (`Expired`).
Neither can fail.
-/

namespace AikitRuntime.Mcp

open Library Durability McpServerState
open Agent (JsonSchema)

/-! ### Removing tasks -/

/-- A state without some of the tasks. -/
structure WithoutTasks (ids : List String) (state state' : McpServerState) : Prop where
  schemaVersion : state'.schemaVersion = state.schemaVersion
  storageRevision : state'.storageRevision = state.storageRevision
  tools : state'.registry.tools = state.registry.tools
  resources : state'.registry.resources = state.registry.resources
  prompts : state'.registry.prompts = state.registry.prompts
  sequence : state'.registry.nextTaskSequence = state.registry.nextTaskSequence
  tasks : ∀ id : String, state'.registry.tasks[id]? = if id ∈ ids then none else state.registry.tasks[id]?
  metadata : ∀ id : String, state'.taskMetadata[id]? = if id ∈ ids then none else state.taskMetadata[id]?
  connections : state'.connections = state.connections
  receipts : state'.receipts = state.receipts

theorem removeTasks_spec (ids : List String) (state : McpServerState)
    (h : ∀ id ∈ ids, ∀ task, state.registry.tasks[id]? = some task → task.status.isTerminal = true) :
    ∃ state', removeTasks ids state = .ok state' ∧ WithoutTasks ids state state' := by
  induction ids generalizing state with
  | nil => exact ⟨state, rfl, by constructor <;> simp⟩
  | cons id rest ih =>
    have hremoved : ∃ registry, state.registry.removeTerminalTask id = .ok registry ∧
        registry.tools = state.registry.tools ∧ registry.resources = state.registry.resources ∧
        registry.prompts = state.registry.prompts ∧
        registry.nextTaskSequence = state.registry.nextTaskSequence ∧
        ∀ a : String, registry.tasks[a]? = if id = a then none else state.registry.tasks[a]? := by
      unfold McpServerRegistry.removeTerminalTask
      cases hget : state.registry.tasks[id]? with
      | none =>
        refine ⟨_, rfl, rfl, rfl, rfl, rfl, fun a => ?_⟩
        by_cases heq : id = a
        · rw [if_pos heq, ← heq, hget]
        · rw [if_neg heq]
      | some task =>
        have hover := h id List.mem_cons_self task hget
        dsimp only
        rw [refuseIf_of_not (by rw [hover]; nofun), ok_bind]
        exact ⟨_, rfl, rfl, rfl, rfl, rfl, fun a => BTreeMap.get_erase⟩
    obtain ⟨registry, hregistry, htools, hresources, hprompts, hsequence, htasks⟩ := hremoved
    obtain ⟨state', hrest, hwithout⟩ := @ih
      { state with registry, taskMetadata := state.taskMetadata.erase id } (by
        intro a ha task hget
        rw [htasks] at hget
        split at hget
        · cases hget
        · exact h a (List.mem_cons_of_mem _ ha) task hget)
    refine ⟨state', ?_, ?_⟩
    · unfold removeTasks
      rw [hregistry, ok_bind, hrest]
    · refine ⟨hwithout.schemaVersion, hwithout.storageRevision, hwithout.tools.trans htools,
        hwithout.resources.trans hresources, hwithout.prompts.trans hprompts,
        hwithout.sequence.trans hsequence, fun a => ?_, fun a => ?_, hwithout.connections, hwithout.receipts⟩
      · rw [hwithout.tasks, htasks]
        by_cases heq : id = a
        · simp [heq]
        · simp [heq, Ne.symm heq]
      · rw [hwithout.metadata, BTreeMap.get_erase]
        by_cases heq : id = a
        · simp [heq]
        · simp [heq, Ne.symm heq]

/-! ### Garbage collection -/

/-- What garbage collection leaves. -/
structure Collected (state state' : McpServerState) : Prop where
  schemaVersion : state'.schemaVersion = state.schemaVersion
  storageRevision : state'.storageRevision = state.storageRevision
  tools : state'.registry.tools = state.registry.tools
  resources : state'.registry.resources = state.registry.resources
  prompts : state'.registry.prompts = state.registry.prompts
  sequence : state'.registry.nextTaskSequence = state.registry.nextTaskSequence
  /-- A task stays, or it has ended, and its metadata goes with it. -/
  tasks : ∀ id : String,
    state'.registry.tasks[id]? = state.registry.tasks[id]? ∧ state'.taskMetadata[id]? = state.taskMetadata[id]? ∨
    state'.registry.tasks[id]? = none ∧ state'.taskMetadata[id]? = none ∧
      (∃ task, state.registry.tasks[id]? = some task ∧ task.status.isTerminal = true) ∧
      ∀ (key : String) (receipt : McpRequestReceipt), state'.receipts[key]? = some receipt →
        receipt.taskId ≠ some id
  receipts : ∀ (key : String) (receipt : McpRequestReceipt), state'.receipts[key]? = some receipt →
    state.receipts[key]? = some receipt
  /-- A receipt that is dropped is complete, and its connection is retired if it proves something. -/
  dropped : ∀ (key : String) (receipt : McpRequestReceipt), state.receipts[key]? = some receipt →
    state'.receipts[key]? = none → (∃ at_, receipt.completedAt = some at_) ∧
      ∀ connection, receipt.requiresReplayProof = true →
        state'.connections[receipt.connectionId]? = some connection →
          connection.receiptNamespaceRetired = true
  connections : ∀ connectionId : String, ∃ retire : Bool, state'.connections[connectionId]? =
    state.connections[connectionId]?.map fun connection =>
      { connection with receiptNamespaceRetired := connection.receiptNamespaceRetired || retire }

variable {state : McpServerState}

theorem mem_retiredConnections {now retentionMs : Nat} {key : String}
    {receipt : McpRequestReceipt} {completedAt : Nat} (hget : state.receipts[key]? = some receipt)
    (hcompleted : receipt.completedAt = some completedAt) (hproof : receipt.requiresReplayProof = true)
    (helapsed : receiptRetentionElapsed completedAt now retentionMs = true) :
    (state.retiredConnections now retentionMs).contains receipt.connectionId = true := by
  unfold retiredConnections BTreeSet.ofList
  rw [BTreeSet.contains_extend]
  refine .inl (List.mem_map.mpr ⟨receipt, List.mem_filter.mpr ⟨BTreeMap.mem_values.mpr ⟨key, hget⟩, ?_⟩, rfl⟩)
  rw [hcompleted]
  simp [hproof, helapsed]

/-- **Garbage collection succeeds.** -/
theorem collectGarbage_spec (state : McpServerState) (now retentionMs : Nat) :
    ∃ state' changed, state.collectGarbage now retentionMs = .ok (state', changed) ∧
      Collected state state' := by
  have hremovable : ∀ id ∈ (state.dropReceipts now retentionMs).removableTasks now retentionMs,
      (∃ task, state.registry.tasks[id]? = some task ∧ task.status.isTerminal = true) ∧
        ∀ (key : String) (receipt : McpRequestReceipt),
          (state.dropReceipts now retentionMs).receipts[key]? = some receipt → receipt.taskId ≠ some id := by
    intro id hid
    unfold removableTasks at hid
    obtain ⟨⟨key, metadata⟩, hmem, rfl⟩ := List.mem_map.mp hid
    obtain ⟨hentry, hcond⟩ := List.mem_filter.mp hmem
    simp only [Bool.and_eq_true, Bool.not_eq_true'] at hcond
    obtain ⟨⟨⟨hretained, _⟩, _⟩, hover⟩ := hcond
    refine ⟨?_, fun key' receipt hget hwaits => ?_⟩
    · exact (Option.any_eq_true _ _).mp hover
    · rw [← Bool.not_eq_true, List.contains_iff_mem] at hretained
      exact hretained (List.mem_filterMap.mpr ⟨receipt, BTreeMap.mem_values.mpr ⟨key', hget⟩, hwaits⟩)
  obtain ⟨state', hremoved, hwithout⟩ := removeTasks_spec ((state.dropReceipts now retentionMs).removableTasks now retentionMs) (state.dropReceipts now retentionMs) fun id hid task hget => by
      obtain ⟨⟨task', hget', hover⟩, _⟩ := hremovable id hid
      cases hget.symm.trans hget'
      exact hover
  unfold collectGarbage
  dsimp only
  rw [hremoved, ok_bind]
  refine ⟨state', _, rfl, ?_⟩
  have hreceipts (key : String) (receipt : McpRequestReceipt) : state'.receipts[key]? = some receipt ↔
      state.receipts[key]? = some receipt ∧ keepsReceipt
        (state.retiredConnections now retentionMs) now retentionMs receipt = true := by
    rw [hwithout.receipts]
    exact BTreeMap.get_retain
  have hconnections (connectionId : String) : state'.connections[connectionId]? =
      state.connections[connectionId]?.map fun connection =>
        if (state.retiredConnections now retentionMs).contains connectionId then
          { connection with receiptNamespaceRetired := true }
        else connection := by
    rw [hwithout.connections]
    exact Std.ExtTreeMap.getElem?_map
  refine ⟨hwithout.schemaVersion, hwithout.storageRevision, hwithout.tools, hwithout.resources,
    hwithout.prompts, hwithout.sequence, fun id => ?_, fun key receipt hget => ((hreceipts key receipt).mp hget).1,
    fun key receipt hget hgone => ?_, fun connectionId => ?_⟩
  · by_cases hid : id ∈ (state.dropReceipts now retentionMs).removableTasks now retentionMs
    · obtain ⟨hover, hunwaited⟩ := hremovable id hid
      refine .inr ⟨(hwithout.tasks id).trans (if_pos hid), (hwithout.metadata id).trans (if_pos hid), hover, ?_⟩
      intro key receipt hget
      rw [hwithout.receipts] at hget
      exact hunwaited key receipt hget
    · exact .inl ⟨(hwithout.tasks id).trans (if_neg hid), (hwithout.metadata id).trans (if_neg hid)⟩
  · have hdropped : keepsReceipt (state.retiredConnections now retentionMs) now retentionMs
        receipt = false := by
      by_contra hkept
      rw [Bool.not_eq_false] at hkept
      rw [(hreceipts key receipt).mpr ⟨hget, hkept⟩] at hgone
      cases hgone
    unfold keepsReceipt at hdropped
    cases hcompleted : receipt.completedAt with
    | none =>
      rw [hcompleted] at hdropped
      cases hdropped
    | some completedAt =>
      refine ⟨⟨completedAt, rfl⟩, fun connection hproof hconnection => ?_⟩
      rw [hcompleted] at hdropped
      have hretired : (state.retiredConnections now retentionMs).contains receipt.connectionId = true := by
        by_contra hnot
        rw [Bool.not_eq_true] at hnot
        simp only [Option.all_some, hnot, Bool.not_false, Bool.true_and, Bool.not_eq_false'] at hdropped
        exact absurd (mem_retiredConnections hget hcompleted hproof hdropped) (by rw [hnot]; nofun)
      rw [hconnections, Option.map_eq_some_iff] at hconnection
      obtain ⟨_, _, rfl⟩ := hconnection
      rw [if_pos hretired]
  · refine ⟨(state.retiredConnections now retentionMs).contains connectionId, ?_⟩
    rw [hconnections]
    congr 1
    funext connection
    split
    · next h => rw [h, Bool.or_true]
    · next h => rw [Bool.not_eq_true] at h; rw [h, Bool.or_false]

/-- Garbage collection that drops nothing changes nothing. -/
theorem collectGarbage_unchanged {state' : McpServerState} {now retentionMs : Nat}
    (h : state.collectGarbage now retentionMs = .ok (state', false)) : state' = state := by
  unfold collectGarbage at h
  dsimp only at h
  obtain ⟨result, hremoved, hresult⟩ := bind_eq_ok.mp h
  simp only [pure, Except.pure, Except.ok.injEq, Prod.mk.injEq, Bool.or_eq_false_iff,
    Bool.not_eq_false', List.isEmpty_iff, decide_eq_false_iff_not, Classical.not_not, ne_eq] at hresult
  obtain ⟨rfl, hsize, hremovable⟩ := hresult
  rw [hremovable] at hremoved
  unfold removeTasks at hremoved
  rw [← Except.ok.inj hremoved]
  obtain ⟨hreceipts, hkeeps⟩ := BTreeMap.retain_of_size hsize
  -- a connection is retired for a receipt that is dropped, and none is
  have hnone (connectionId : String) :
      (state.retiredConnections now retentionMs).contains connectionId = false := by
    by_contra hretired
    rw [Bool.not_eq_false] at hretired
    unfold retiredConnections BTreeSet.ofList at hretired
    rcases (BTreeSet.contains_extend _).mp hretired with hmem | hmem
    · obtain ⟨receipt, hreceipt, rfl⟩ := List.mem_map.mp hmem
      obtain ⟨hvalue, helapsed⟩ := List.mem_filter.mp hreceipt
      obtain ⟨key, hget⟩ := BTreeMap.mem_values.mp hvalue
      obtain ⟨completedAt, hcompleted, helapsed⟩ := (Option.any_eq_true _ _).mp helapsed
      have hkept := hkeeps key receipt hget
      rw [Bool.and_eq_true] at helapsed
      simp [keepsReceipt, hcompleted, helapsed.2] at hkept
    · simp at hmem
  unfold dropReceipts retireConnections
  dsimp only
  rw [hreceipts]
  have hconnections : state.connections.map (fun connectionId connection =>
      if (state.retiredConnections now retentionMs).contains connectionId then
        { connection with receiptNamespaceRetired := true }
      else connection) = state.connections := by
    refine Std.ExtTreeMap.ext_getElem? fun connectionId => ?_
    rw [Std.ExtTreeMap.getElem?_map]
    simp [hnone connectionId]
  rw [hconnections]

/-- The state that a request is answered on: what garbage collection leaves, as it is stored. -/
def McpJsonRpcServer.base (server : McpJsonRpcServer) (clock : Readings) (stored : McpServerState) :
    McpServerState :=
  match stored.collectGarbage clock.collecting server.retentionMs with
  | .ok (collected, true) => collected.stamped stored.storageRevision
  | .ok (collected, false) => collected
  | .error _ => stored

/-- A state that was collected, and committed if that changed it. -/
def Kept (stored base : McpServerState) : Prop :=
  base = stored ∨ ∃ collected, Collected stored collected ∧
    base = collected.stamped stored.storageRevision

/-- What is stored after a request. -/
def storedAfter {α : Type} (base : McpServerState) (handled : ProtocolResult (Handled α)) :
    McpServerState :=
  match handled with
  | .ok handled => Program.after base handled
  | .error _ => base

theorem kept_base (server : McpJsonRpcServer) (clock : Readings) (stored : McpServerState) :
    Kept stored (server.base clock stored) := by
  obtain ⟨collected, changed, hcollect, hcollected⟩ :=
    collectGarbage_spec stored clock.collecting server.retentionMs
  unfold McpJsonRpcServer.base
  rw [hcollect]
  cases changed with
  | false => exact .inl (collectGarbage_unchanged hcollect)
  | true => exact .inr ⟨collected, hcollected, rfl⟩

/-! ### Validity -/

/-- A result fits the default bounds. -/
def ResultFits (result : Value) : Prop :=
  validateJsonBounds result defaultMcpMaxResultBytes defaultMcpMaxResultItems defaultMcpMaxResultDepth =
    .ok ()

/-- What `validate` accepts of a task. -/
structure ValidTask (state : McpServerState) (id : String) (task : McpTask) : Prop where
  taskId : task.taskId = id
  metadata : task.advertised = true → ∃ metadata, state.taskMetadata[id]? = some metadata
  result : ∀ result, task.result = some result → ResultFits result

theorem validateTask_eq_ok {id : String} {task : McpTask} :
    state.validateTask (id, task) = .ok () ↔ ValidTask state id task := by
  unfold validateTask
  simp only [bind_eq_ok, refuseIf_eq_ok, exists_unit, firstRefusal_eq_ok, Option.mem_toList,
    Classical.not_not, not_and, Bool.not_eq_false]
  constructor
  · rintro ⟨hid, hmetadata, hresult⟩
    refine ⟨hid.symm, fun hadvertised => ?_, hresult⟩
    have hcontains := hmetadata hadvertised
    rw [Std.ExtTreeMap.contains_eq_isSome_getElem?] at hcontains
    exact Option.isSome_iff_exists.mp hcontains
  · rintro ⟨hid, hmetadata, hresult⟩
    refine ⟨hid.symm, fun hadvertised => ?_, hresult⟩
    rw [Std.ExtTreeMap.contains_eq_isSome_getElem?]
    exact Option.isSome_iff_exists.mpr (hmetadata hadvertised)

variable [JsonSchema]

/-- What `validate` accepts. -/
theorem validate_eq_ok : state.validate = .ok () ↔
    state.schemaVersion = 1 ∧ (∀ tool ∈ state.registry.tools.values, tool.validate = .ok ()) ∧
      (∀ resource ∈ state.registry.resources.values, resource.validate = .ok ()) ∧
      (∀ prompt ∈ state.registry.prompts.values, prompt.validate = .ok ()) ∧
      ∀ (id : String) (task : McpTask), state.registry.tasks[id]? = some task → ValidTask state id task := by
  unfold validate
  simp only [bind_eq_ok, refuseIf_eq_ok, exists_unit, firstRefusal_eq_ok, Classical.not_not]
  refine and_congr_right fun _ => and_congr_right fun _ => and_congr_right fun _ => and_congr_right fun _ => ?_
  constructor
  · intro h id task hget
    exact validateTask_eq_ok.mp (h (id, task) (BTreeMap.mem_toList.mpr hget))
  · rintro h ⟨id, task⟩ hmem
    exact validateTask_eq_ok.mpr (h id task (BTreeMap.mem_toList.mp hmem))

/-- What garbage collection leaves is valid. -/
theorem Collected.valid {state' : McpServerState} (h : Collected state state')
    (hvalid : state.validate = .ok ()) : state'.validate = .ok () := by
  obtain ⟨hversion, htools, hresources, hprompts, htasks⟩ := validate_eq_ok.mp hvalid
  refine validate_eq_ok.mpr ⟨h.schemaVersion.trans hversion, by rw [h.tools]; exact htools,
    by rw [h.resources]; exact hresources, by rw [h.prompts]; exact hprompts, fun id task hget => ?_⟩
  rcases h.tasks id with ⟨htask, hmetadata⟩ | ⟨hnone, _⟩
  · obtain ⟨hid, hadvertised, hresult⟩ := htasks id task (htask.symm.trans hget)
    refine ⟨hid, fun hadv => ?_, hresult⟩
    rw [hmetadata]
    exact hadvertised hadv
  · rw [hnone] at hget
    cases hget

/-- The revision is of no account. -/
theorem valid_stamped {expected : Nat} (h : state.validate = .ok ()) :
    (state.stamped expected).validate = .ok () := h

/-! ### Requests -/

theorem Kept.valid {stored base : McpServerState} (h : Kept stored base)
    (hvalid : stored.validate = .ok ()) : base.validate = .ok () := by
  rcases h with rfl | ⟨collected, hcollected, rfl⟩
  · exact hvalid
  · exact valid_stamped (hcollected.valid hvalid)

/-- **A request, on a store that does what it is told**: it is answered on what garbage collection
leaves. -/
theorem exec_handle [Digest] [JsonReader] {server : McpJsonRpcServer} {clock : Readings}
    {connectionId : String} {principal : Option ProtocolPrincipal} {payload : List UInt8} {raw : Value}
    {request : ParsedRequest} {stored : McpServerState} (hvalid : stored.validate = .ok ())
    (hingress : server.ingress connectionId payload = .ok (.request raw request)) :
    (server.handle clock connectionId principal payload).exec (some stored) =
      ((server.respond clock (server.base clock stored) connectionId principal request
          (stableInputHash raw)).map Prod.snd,
        some (storedAfter (server.base clock stored) (server.respond clock (server.base clock stored)
          connectionId principal request (stableInputHash raw)))) := by
  obtain ⟨collected, changed, hcollect, hcollected⟩ :=
    collectGarbage_spec stored clock.collecting server.retentionMs
  have hfinish (base : McpServerState) : (do
        let handled ← Program.check
          (server.respond clock base connectionId principal request (stableInputHash raw))
        conclude base.storageRevision handled : Program McpJsonRpcDispatch).exec (some base) =
        ((server.respond clock base connectionId principal request (stableInputHash raw)).map Prod.snd,
          some (storedAfter base
            (server.respond clock base connectionId principal request (stableInputHash raw)))) := by
    rw [Program.exec_bind, Program.exec_check]
    cases server.respond clock base connectionId principal request (stableInputHash raw) with
    | error e => rfl
    | ok handled => exact Program.exec_conclude handled
  have hbase : server.base clock stored =
      if changed then collected.stamped stored.storageRevision else collected := by
    unfold McpJsonRpcServer.base
    rw [hcollect]
    cases changed <;> rfl
  rw [hbase]
  unfold McpJsonRpcServer.handle
  rw [hingress, Program.exec_bind, Program.exec_check]
  dsimp only
  rw [Program.exec_bind, Program.exec_loadState_of_valid hvalid]
  dsimp only
  rw [Program.exec_bind, hcollect, Program.exec_check]
  dsimp only
  cases changed with
  | false =>
    obtain rfl := collectGarbage_unchanged hcollect
    exact hfinish collected
  | true =>
    rw [if_pos rfl, if_pos rfl, Program.exec_bind, Program.exec_commit]
    dsimp only
    rw [Program.exec_bind, Program.exec_loadState_of_valid (valid_stamped (hcollected.valid hvalid))]
    exact hfinish _

end AikitRuntime.Mcp
