import AikitRuntime.Mcp.Upkeep

/-!
# States that load again

A server loads its state at the start of every call, and refuses to go on with one that `validate` does not
accept. The operations check the results of tools against the limits that the server was configured with,
and `validate` checks them against the default limits. So a server that takes larger results stores a state
that no server loads again, and that is the only way.
-/

namespace AikitRuntime.Mcp

open Library Durability RegistryOp
open Agent (JsonSchema)

/-! ### The size of a text -/

theorem length_utf8_le (chars : List Char) : (utf8 chars).length ≤ 4 * chars.length := by
  have hsize : (utf8 chars).length = (String.ofList chars).utf8ByteSize := by
    rw [utf8, toList_eq]
    rfl
  rw [hsize]
  clear hsize
  induction chars with
  | nil => exact Nat.le_refl 0
  | cons c chars ih =>
    have hc := Char.utf8Size_le_four c
    rw [String.ofList_cons, String.utf8ByteSize_append, String.utf8ByteSize_singleton, List.length_cons]
    omega

theorem length_toList_le (text : String) : text.toList.length ≤ text.utf8ByteSize := by
  have h : ∀ chars : List Char, chars.length ≤ (String.ofList chars).utf8ByteSize := by
    intro chars
    induction chars with
    | nil => exact Nat.le_refl 0
    | cons c chars ih =>
      have hc := Char.utf8Size_pos c
      rw [String.ofList_cons, String.utf8ByteSize_append, String.utf8ByteSize_singleton, List.length_cons]
      omega
  have htext := h text.toList
  rwa [String.ofList_toList] at htext

theorem length_escapeChar_le (c : Char) : (escapeChar c).length ≤ 6 := by
  unfold escapeChar
  split <;> first | decide | skip
  split <;> simp

/-- A text takes at most six characters for each of its bytes. -/
theorem length_jsonString_le (text : String) : (jsonString text).length ≤ 6 * text.utf8ByteSize + 2 := by
  have h : (text.toList.flatMap escapeChar).length ≤ 6 * text.toList.length := by
    induction text.toList with
    | nil => exact Nat.le_refl 0
    | cons c chars ih =>
      have hc := length_escapeChar_le c
      rw [List.flatMap_cons, List.length_append, List.length_cons]
      omega
  have hsize := length_toList_le text
  rw [jsonString_eq, List.length_cons, List.length_append, List.length_singleton]
  omega

theorem toolExecutionError_eq (message : String) : toolExecutionError message = .object
    [("content", .array [.object [("text", .string message), ("type", .string "text")]]),
      ("isError", .bool true)] := by
  have htype : ¬ "text" = "type" ∧ "text" < "type" := ⟨by simp, by simp only [String.reduceLT]⟩
  have hcontent : ¬ "isError" = "content" ∧ ¬ "isError" < "content" :=
    ⟨by simp, by simp only [String.reduceLT, not_false_eq_true]⟩
  simp only [toolExecutionError, Value.ofFields, List.foldl_cons, List.foldl_nil, Value.insertField, htype, hcontent,
    if_true, if_false]

/-- The result that a short message makes fits the default limits. -/
theorem toolExecutionError_fits {message : String} (h : message.utf8ByteSize ≤ 1024) :
    ResultFits (toolExecutionError message) := by
  have hlength : (canonicalJson (toolExecutionError message)).length = (jsonString message).length + 52 := by
    have htype : "text" < "type" := by simp only [String.reduceLT]
    have hcontent : "content" < "isError" := by simp only [String.reduceLT]
    rw [toolExecutionError_eq]
    simp only [canonicalJson, canonicalItems, canonicalFields, insertRendered, commaSeparated, htype, hcontent,
      if_true, List.map_cons, List.map_nil, List.length_cons, List.length_append, List.length_nil]
    have hkeys : (jsonString "content").length = 9 ∧ (jsonString "isError").length = 9 ∧
        (jsonString "text").length = 6 ∧ (jsonString "type").length = 6 ∧ "true".toList.length = 4 := by decide
    omega
  have hbytes := length_utf8_le (canonicalJson (toolExecutionError message))
  have htext := length_jsonString_le message
  unfold ResultFits validateJsonBounds
  rw [refuseIf_of_not, ok_bind]
  · rw [toolExecutionError_eq]
    rfl
  · rw [defaultMcpMaxResultBytes]
    omega

/-! ### The invariant -/

section

variable [JsonSchema]

/-- A state that loads, with its tools under their names. -/
structure Reloadable (s : McpServerState) : Prop where
  valid : s.validate = .ok ()
  named : ∀ (name : String) (tool : McpToolDefinition), s.registry.tools[name]? = some tool → tool.name = name

variable {s s' : McpServerState}

/-- What a state that comes from one that loads has to have, to load. -/
theorem Reloadable.of_changes (h : Reloadable s) (hversion : s'.schemaVersion = s.schemaVersion)
    (htools : ∀ (name : String) (tool : McpToolDefinition), s'.registry.tools[name]? = some tool →
      s.registry.tools[name]? = some tool ∨ tool.name = name ∧ tool.validate = .ok ())
    (hresources : s'.registry.resources = s.registry.resources)
    (hprompts : s'.registry.prompts = s.registry.prompts)
    (htasks : (∀ (id : String) (task : McpTask), s.registry.tasks[id]? = some task → ValidTask s id task) →
      ∀ (id : String) (task : McpTask), s'.registry.tasks[id]? = some task → ValidTask s' id task) :
    Reloadable s' := by
  obtain ⟨hschema, hvalid, hvalidResources, hvalidPrompts, hvalidTasks⟩ := validate_eq_ok.mp h.valid
  refine ⟨validate_eq_ok.mpr ⟨hversion.trans hschema, fun tool htool => ?_, by rw [hresources]; exact hvalidResources,
    by rw [hprompts]; exact hvalidPrompts, htasks hvalidTasks⟩, fun name tool hget => ?_⟩
  · obtain ⟨name, hget⟩ := BTreeMap.mem_values.mp htool
    rcases htools name tool hget with hold | ⟨_, hnew⟩
    · exact hvalid tool (BTreeMap.mem_values.mpr ⟨name, hold⟩)
    · exact hnew
  · rcases htools name tool hget with hold | ⟨hnew, _⟩
    · exact h.named name tool hold
    · exact hnew

/-- A failure of the arguments of a call fits. -/
theorem Reloadable.failures_fit (h : Reloadable s) : FailuresFit ResultFits s.registry := by
  intro name arguments message hinput
  unfold McpServerRegistry.inputError at hinput
  obtain ⟨tool, htool, hinput⟩ := Option.bind_eq_some_iff.mp hinput
  have hname : tool.name.utf8ByteSize ≤ 512 := by
    have hvalid := (validate_eq_ok.mp h.valid).2.1 tool (BTreeMap.mem_values.mpr ⟨name, htool⟩)
    unfold McpToolDefinition.validate at hvalid
    obtain ⟨_, hidentifier, _⟩ := bind_eq_ok.mp hvalid
    exact (validateIdentifier_eq_ok.mp hidentifier).2.1
  rw [h.named name tool htool] at hname
  refine toolExecutionError_fits ?_
  split at hinput
  · cases hinput
  · split at hinput
    · cases hinput
      have hbefore : "tool `".utf8ByteSize = 6 := rfl
      have hafter : "` arguments do not match its inputSchema".utf8ByteSize = 40 := rfl
      simp only [String.utf8ByteSize_append, toString]
      omega
    · cases hinput

omit [JsonSchema] in
theorem definitions_report {reg reg' : McpServerRegistry} {taskId : String} {told : TaskReport}
    (h : told.apply reg taskId = .ok reg') :
    reg'.resources = reg.resources ∧ reg'.prompts = reg.prompts ∧ reg'.tools = reg.tools := by
  cases hget : reg.tasks[taskId]? with
  | none =>
    rw [TaskReport.apply_unknown hget h]
    exact ⟨rfl, rfl, rfl⟩
  | some task =>
    cases TaskReport.apply_step hget h with
    | nothing => exact ⟨rfl, rfl, rfl⟩
    | updated _ _ => exact ⟨rfl, rfl, rfl⟩
    | removed _ _ => exact ⟨rfl, rfl, rfl⟩

variable [Digest]

/-- The resources and the prompts are those that the server was created with. -/
theorem Tending.definitions {Fits : Value → Prop} {reg : McpServerRegistry} {op : RegistryOp}
    (h : Tending Fits op) :
    (op.apply reg).resources = reg.resources ∧ (op.apply reg).prompts = reg.prompts := by
  cases h with
  | upsertTool tool =>
    rcases upsertTool_cases reg tool with hreg | ⟨_, _, hreg⟩
    · rw [hreg]
      exact ⟨rfl, rfl⟩
    · rw [hreg]
      exact ⟨rfl, rfl⟩
  | resumeApproval taskId response caller =>
    rcases resumeApproval_cases reg caller.correlation caller.principal taskId response with
      ⟨hreg, _⟩ | ⟨_, _, _, _, hreg, _⟩
    · rw [apply, hreg]
      exact ⟨rfl, rfl⟩
    · rw [apply, hreg]
      exact ⟨rfl, rfl⟩
  | cancelTask taskId caller =>
    rcases cancelTask_cases reg caller.correlation caller.principal taskId with
      ⟨hreg, _⟩ | ⟨_, _, _, _, hreg, _⟩
    · rw [apply, hreg]
      exact ⟨rfl, rfl⟩
    · rw [apply, hreg]
      unfold McpServerRegistry.afterCancelRequest
      split
      · exact ⟨rfl, rfl⟩
      · exact ⟨rfl, rfl⟩
  | @report taskId told _ _ =>
    refine keeping_cases (P := fun next => next.resources = reg.resources ∧ next.prompts = reg.prompts) ⟨rfl, rfl⟩
      fun reg' h => ?_
    obtain ⟨hresources, hprompts, _⟩ := definitions_report h
    exact ⟨hresources, hprompts⟩

omit [JsonSchema] [Digest] in
/-- A task that is collected is gone, and the others are as they were. -/
theorem get_collected {reg reg' : McpServerRegistry} {taskId id : String}
    (h : TaskReport.collected.apply reg taskId = .ok reg') :
    reg'.tasks[id]? = if taskId = id then none else reg.tasks[id]? := by
  cases hget : reg.tasks[taskId]? with
  | none =>
    rw [TaskReport.apply_unknown hget h]
    by_cases heq : taskId = id
    · rw [if_pos heq, ← heq, hget]
    · rw [if_neg heq]
  | some task =>
    simp only [TaskReport.apply, McpServerRegistry.removeTerminalTask, hget, bind_eq_ok, refuseIf_eq_ok,
      exists_unit, pure, Except.pure, Except.ok.injEq] at h
    obtain ⟨_, rfl⟩ := h
    exact BTreeMap.get_erase

/-- The tools that an operation leaves. -/
theorem Reloadable.tools_apply {op : RegistryOp} (name : String) (tool : McpToolDefinition)
    (hget : (op.apply s.registry).tools[name]? = some tool) :
    s.registry.tools[name]? = some tool ∨ tool.name = name ∧ tool.validate = .ok () := by
  rcases tools_step s.registry op name with hsame | ⟨new, hname, hvalid, hnew, _⟩
  · exact .inl (hsame ▸ hget)
  · cases hnew.symm.trans hget
    exact .inr ⟨hname, hvalid⟩

/-- **What the server makes of a state that loads, loads.** -/
theorem Reloadable.tends (h : Tends ResultFits s s') (hs : Reloadable s) : Reloadable s' := by
  induction h with
  | refl => exact hs
  | trans _ _ ihfirst ihrest => exact ihrest (ihfirst hs)
  | operated s hop =>
    obtain ⟨hresources, hprompts⟩ := @Tending.definitions _ _ _ s.registry _ hop
    refine hs.of_changes rfl Reloadable.tools_apply hresources hprompts fun hvalid id task' hget' => ?_
    obtain ⟨task, hget, honward⟩ := hop.onward hget'
    obtain ⟨htaskId, hmetadata, hresult⟩ := hvalid id task hget
    refine ⟨honward.taskId.trans htaskId, fun hadvertised => hmetadata (honward.advertised ▸ hadvertised), ?_⟩
    rcases honward.result with hsame | ⟨_, hfits⟩
    · rw [hsame]
      exact hresult
    · exact hfits
  | called s request caller metadata =>
    have hdefinitions : ((callTool request caller).apply s.registry).resources = s.registry.resources ∧
        ((callTool request caller).apply s.registry).prompts = s.registry.prompts := by
      rcases callTool_cases s.registry caller.correlation caller.principal request with
        ⟨hreg, _⟩ | ⟨_, _, _, _, _, _, _, hreg, _⟩
      · rw [apply, hreg]
        exact ⟨rfl, rfl⟩
      · rw [apply, hreg]
        exact ⟨rfl, rfl⟩
    refine hs.of_changes rfl Reloadable.tools_apply hdefinitions.1 hdefinitions.2 fun hvalid id task' hget' => ?_
    have hinserted (h : task'.advertised = true → ∃ old, s.taskMetadata[id]? = some old) (hadvertised : task'.advertised = true) :
        ∃ new, (s.taskMetadata.insert (taskIdOf s.registry.nextTaskSequence) metadata)[id]? = some new := by
      rw [BTreeMap.get_insert]
      split
      · exact ⟨metadata, rfl⟩
      · exact h hadvertised
    rcases onward_called hget' with hget | ⟨rfl, htaskId, hresult⟩
    · obtain ⟨htaskId, hmetadata, hresult⟩ := hvalid id task' hget
      exact ⟨htaskId, hinserted hmetadata, hresult⟩
    · refine ⟨htaskId, fun _ => ⟨metadata, BTreeMap.get_insert_self⟩, fun result hsome => ?_⟩
      rw [hresult] at hsome
      cases hsome
  | @collected s taskId registry happly =>
    obtain ⟨hresources, hprompts, htools⟩ := definitions_report happly
    refine hs.of_changes rfl (fun name tool hget => .inl (htools ▸ hget)) hresources hprompts
      fun hvalid id task' hget' => ?_
    dsimp only at hget'
    rw [get_collected happly] at hget'
    split at hget'
    · cases hget'
    · next hne =>
      obtain ⟨htaskId, hmetadata, hresult⟩ := hvalid id task' hget'
      refine ⟨htaskId, fun hadvertised => ?_, hresult⟩
      dsimp only
      rw [BTreeMap.get_erase, if_neg hne]
      exact hmetadata hadvertised
  | annotated s taskMetadata hkept =>
    refine hs.of_changes rfl (fun _ _ hget => .inl hget) rfl rfl fun hvalid id task hget => ?_
    obtain ⟨htaskId, hmetadata, hresult⟩ := hvalid id task hget
    refine ⟨htaskId, fun hadvertised => ?_, hresult⟩
    obtain ⟨metadata, hsome⟩ := hmetadata hadvertised
    refine Option.ne_none_iff_exists'.mp fun hnone => ?_
    rw [hkept id hnone] at hsome
    cases hsome
  | noted s receipts connections storageRevision =>
    refine hs.of_changes rfl (fun _ _ hget => .inl hget) rfl rfl fun hvalid id task hget => ?_
    obtain ⟨htaskId, hmetadata, hresult⟩ := hvalid id task hget
    exact ⟨htaskId, hmetadata, hresult⟩

/-- **Every step keeps a state loadable**, where the results fit the default limits. -/
theorem upheld_reloadable : Upheld ResultFits Reloadable where
  keeps _ hs htends := hs.tends htends
  fails _ hs := hs.failures_fit

/-- **Every state that is stored loads again**, where the results that are brought fit the default limits, and
the registries that servers are created with load. -/
theorem loads_again [JsonReader] {ι : Type} [DecidableEq ι]
    {log : List (ClientEvent ι ServerTask StoreQuery StoreQuery.Answer)} {servers : Servers ι}
    (hrun : ServersRun log servers)
    (hfit : ∀ task, (∃ e ∈ log, e.start = some task) → task.Fit ResultFits Reloadable)
    {state : McpServerState} (hstored : servers.store = some state) : state.validate = .ok () :=
  (upheld_reloadable.run hrun hfit state hstored).valid

end

/-! ### Samples -/

/-- A registry with a task that works. -/
def workingRegistry [Digest] [JsonSchema] : McpServerRegistry :=
  callEcho.apply ((registerTool echoTool).apply .new)

/-- Arrays in arrays. -/
def nested : Nat → Value
  | 0 => .array []
  | depth + 1 => .array [nested depth]

/-- A result that is nested too deep for the default limits. -/
def deepResult : Value := .ofFields [("content", .array []), ("structuredContent", nested 32)]

/-- A server that takes deeper results. -/
def deepServer : McpJsonRpcServer := { sampleServer with maxResultDepth := 64 }

/-- What is stored after a server was created with a task that works, and took its result. -/
def storedResult [Digest] [JsonSchema] [JsonReader] (result : Value) : Option McpServerState :=
  ((ServerTask.call deepServer sampleClock (.completeTool (taskIdOf 1) result)).program.runOn storeAnswer
    ((ServerTask.new workingRegistry).program.runOn storeAnswer none).2).2

theorem storedResult_unloadable : (@storedResult sha256 Agent.emptySchema (readerOf []) deepResult).any
    (fun state => !(@McpServerState.validate state Agent.emptySchema).isOk) = true := by decide +kernel

theorem workingRegistry_loads : @Reloadable Agent.emptySchema (.initial (@workingRegistry sha256 Agent.emptySchema)) := by
  let _ : Digest := sha256
  let _ : JsonSchema := Agent.emptySchema
  refine ⟨by decide +kernel, fun name tool hget => ?_⟩
  have htools : (workingRegistry).tools = (∅ : BTreeMap McpToolDefinition).insert "echo" echoTool := by
    have hregister := apply_registerEcho echo_valid
    unfold workingRegistry
    rw [apply_callEcho (by rw [hregister]; exact BTreeMap.get_insert_self), hregister]
    rfl
  replace hget : (workingRegistry).tools[name]? = some tool := hget
  rw [htools, BTreeMap.get_insert] at hget
  split at hget
  · next heq =>
    cases hget
    exact heq
  · rw [BTreeMap.get_empty] at hget
    cases hget

/-- The run that stores a result. -/
theorem exists_storedResult [Digest] [JsonSchema] [JsonReader] (result : Value) :
    ∃ log, ∃ servers : Servers Unit, ServersRun log servers ∧ servers.store = storedResult result ∧
      ∀ task, (∃ e ∈ log, e.start = some task) →
        task = .new workingRegistry ∨ task = .call deepServer sampleClock (.completeTool (taskIdOf 1) result) := by
  obtain ⟨log, servers, hrun, hstore, htask⟩ := exists_alone (.nil _) () (.new workingRegistry)
  obtain ⟨log', servers', hrun', hstore', htask'⟩ :=
    exists_alone hrun () (.call deepServer sampleClock (.completeTool (taskIdOf 1) result))
  refine ⟨_, servers', hrun', by rw [hstore', hstore]; rfl, ?_⟩
  rintro task ⟨e, he, hstart⟩
  rcases List.mem_append.mp he with he | he
  · exact .inl (htask task ⟨e, he, hstart⟩)
  · exact .inr (htask' task ⟨e, he, hstart⟩)

/-- **A server that takes deeper results stores a state that does not load again.** -/
theorem not_loads_again : ¬ ∀ (_ : JsonReader)
    (log : List (ClientEvent Unit ServerTask StoreQuery StoreQuery.Answer)) (servers : Servers Unit)
    (state : McpServerState), @ServersRun sha256 Agent.emptySchema _ Unit _ log servers →
      (∀ registry, (∃ e ∈ log, e.start = some (.new registry)) → @Reloadable Agent.emptySchema (.initial registry)) →
        servers.store = some state → @McpServerState.validate state Agent.emptySchema = .ok () := by
  intro h
  let _ : Digest := sha256
  let _ : JsonSchema := Agent.emptySchema
  let _ : JsonReader := readerOf []
  obtain ⟨log, servers, hrun, hstore, htask⟩ := exists_storedResult deepResult
  obtain ⟨state, hstate, hinvalid⟩ := (Option.any_eq_true _ _).mp storedResult_unloadable
  have hvalid := h _ log servers state hrun (fun registry hnew => ?_) (hstore.trans hstate)
  · rw [hvalid] at hinvalid
    cases hinvalid
  · rcases htask _ hnew with heq | heq
    · cases heq
      exact workingRegistry_loads
    · cases heq

/-- A result that fits. -/
def plainResult : Value := .ofFields [("content", .array [])]

theorem storedResult_stored : (@storedResult sha256 Agent.emptySchema (readerOf []) plainResult).isSome = true := by
  decide +kernel

/-- The same server stores a plain result, and the state loads again. -/
theorem loads_again_sample :
    ∃ state, @storedResult sha256 Agent.emptySchema (readerOf []) plainResult = some state ∧
      @McpServerState.validate state Agent.emptySchema = .ok () := by
  let _ : Digest := sha256
  let _ : JsonSchema := Agent.emptySchema
  let _ : JsonReader := readerOf []
  obtain ⟨log, servers, hrun, hstore, htask⟩ := exists_storedResult plainResult
  obtain ⟨state, hstate⟩ := Option.isSome_iff_exists.mp storedResult_stored
  refine ⟨state, hstate, loads_again hrun (fun task hstarted => ?_) (hstore.trans hstate)⟩
  rcases htask task hstarted with rfl | rfl
  · exact workingRegistry_loads
  · intro _
    show ResultFits plainResult
    unfold ResultFits
    decide +kernel

end AikitRuntime.Mcp
