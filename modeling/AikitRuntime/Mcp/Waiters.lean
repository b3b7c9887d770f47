import AikitRuntime.Mcp.Naming
import AikitRuntime.Mcp.Reloading

/-!
# Waiting for the result of a task

A `tasks/result` request that comes while the task is working gets a receipt that waits, and the end of the task
completes it. A request that comes later is answered at once, from the task as it ended. The two responses are
written by different code, from the result or the error that the task ended with and from what is registered of it.

They are the same, up to the id of the request, unless a cancellation was confirmed: then only the later response says
which task was cancelled (`same_result_iff`). That an expired task has no result is an invariant of every run
(`upheld_unfinished`).
-/

namespace AikitRuntime.Mcp

open Library Durability McpServerState McpJsonRpcServer
open Agent (JsonSchema)

/-! ### Responses, up to their ids -/

/-- Two responses are the same once they have the same id. -/
def SameUpToId (response response' : Value) : Prop :=
  ∀ id, withField response "id" id = withField response' "id" id

theorem jsonrpcResult_eq (id result : Value) :
    jsonrpcResult id result = .object [("id", id), ("jsonrpc", .string "2.0"), ("result", result)] := by
  have hversion : Value.insertField "jsonrpc" (.string "2.0") [] = [("jsonrpc", .string "2.0")] := rfl
  have hid : Value.insertField "id" id [("jsonrpc", .string "2.0")] =
      [("id", id), ("jsonrpc", .string "2.0")] := by
    rw [Value.insertField, if_neg (by decide), if_pos (by simp only [String.reduceLT])]
  have hresult : Value.insertField "result" result [("id", id), ("jsonrpc", .string "2.0")] =
      [("id", id), ("jsonrpc", .string "2.0"), ("result", result)] := by
    rw [Value.insertField, if_neg (by decide), if_neg (by simp only [String.reduceLT, not_false_eq_true]),
      Value.insertField, if_neg (by decide), if_neg (by simp only [String.reduceLT, not_false_eq_true]),
      Value.insertField]
  unfold jsonrpcResult Value.ofFields
  rw [List.foldl_cons, List.foldl_cons, List.foldl_cons, List.foldl_nil, hversion, hid, hresult]

theorem jsonrpcError_eq (code : JsonRpcCode) (message : String) (data : Option Value) : ∃ error,
    ∀ id, jsonrpcError id code message data = .object [("error", error), ("id", id), ("jsonrpc", .string "2.0")] := by
  refine ⟨.ofFields ([("code", code.json), ("message", .string message)] ++ data.toList.map fun data => ("data", data)),
    fun id => ?_⟩
  unfold jsonrpcError
  generalize Value.ofFields ([("code", code.json), ("message", .string message)] ++ _) = error
  have hversion : Value.insertField "jsonrpc" (.string "2.0") [] = [("jsonrpc", .string "2.0")] := rfl
  have hid : Value.insertField "id" id [("jsonrpc", .string "2.0")] =
      [("id", id), ("jsonrpc", .string "2.0")] := by
    rw [Value.insertField, if_neg (by decide), if_pos (by simp only [String.reduceLT])]
  have herror : Value.insertField "error" error [("id", id), ("jsonrpc", .string "2.0")] =
      [("error", error), ("id", id), ("jsonrpc", .string "2.0")] := by
    rw [Value.insertField, if_neg (by decide), if_pos (by simp only [String.reduceLT])]
  unfold Value.ofFields
  rw [List.foldl_cons, List.foldl_cons, List.foldl_cons, List.foldl_nil, hversion, hid, herror]

theorem withField_id_result (id id' result : Value) :
    withField (jsonrpcResult id result) "id" id' = some (jsonrpcResult id' result) := by
  rw [jsonrpcResult_eq, jsonrpcResult_eq]
  rfl

theorem withField_id_error (id id' : Value) (code : JsonRpcCode) (message : String) (data : Option Value) :
    withField (jsonrpcError id code message data) "id" id' = some (jsonrpcError id' code message data) := by
  obtain ⟨error, herror⟩ := jsonrpcError_eq code message data
  have hreplaced : Value.insertField "id" id' [("error", error), ("id", id), ("jsonrpc", .string "2.0")] =
      [("error", error), ("id", id'), ("jsonrpc", .string "2.0")] := by
    rw [Value.insertField, if_neg (by decide), if_neg (by simp only [String.reduceLT, not_false_eq_true]),
      Value.insertField, if_pos rfl]
  rw [herror, herror, withField, Value.asObject, Option.map_some, hreplaced]

/-- A response with an id, for another id. -/
theorem sameUpToId_terminalTaskResponse (id id' : Value) (task : McpTask) :
    SameUpToId (terminalTaskResponse id task) (terminalTaskResponse id' task) := by
  intro new
  unfold terminalTaskResponse
  split
  · rw [withField_id_result, withField_id_result]
  · split
    · rw [withField_id_result, withField_id_result]
    · rw [protocolErrorResponse, protocolErrorResponse, withField_id_error, withField_id_error]
  · rw [withField_id_error, withField_id_error]
  · rw [withField_id_error, withField_id_error]
  · rw [withField_id_error, withField_id_error]

/-- The two responses to a cancellation differ. -/
theorem not_sameUpToId_cancelled (id id' : Value) (taskId : String) :
    ¬ SameUpToId (protocolErrorResponse id ⟨.cancelled, "MCP task was cancelled"⟩)
      (jsonrpcError id' .cancelled "MCP task was cancelled" (some (relatedTaskMeta taskId))) := by
  intro h
  have hnull := h .null
  rw [protocolErrorResponse, withField_id_error, withField_id_error, Option.some.injEq] at hnull
  cases (jsonrpcError_inj hnull).2.2

/-! ### Tasks that have not ended have no result -/

/-- A task that has not ended has no result. -/
def Unfinished (registry : McpServerRegistry) : Prop :=
  ∀ (id : String) (task : McpTask), registry.tasks[id]? = some task → task.status.isTerminal = false → task.result = none

variable {task : McpTask}

theorem Onward.unfinished {Fits : Value → Prop} {task' : McpTask} (h : Onward Fits task task')
    (hold : task.status.isTerminal = false → task.result = none) (hrunning : task'.status.isTerminal = false) :
    task'.result = none := by
  rcases h.result with hsame | ⟨hover, _⟩
  · rw [hsame]
    exact hold (h.running hrunning)
  · rw [hrunning] at hover
    cases hover

section

variable [JsonSchema] [Digest]

theorem Tends.unfinished {s s' : McpServerState} (h : Tends (fun _ => True) s s') (hs : Unfinished s.registry) :
    Unfinished s'.registry := by
  induction h with
  | refl => exact hs
  | trans _ _ ihfirst ihrest => exact ihrest (ihfirst hs)
  | operated s hop =>
    intro id task' hget' hrunning
    obtain ⟨task, hget, honward⟩ := hop.onward hget'
    exact honward.unfinished (hs id task hget) hrunning
  | called s request caller metadata =>
    intro id task' hget' hrunning
    rcases onward_called hget' with hget | ⟨_, _, hresult⟩
    · exact hs id task' hget hrunning
    · exact hresult
  | collected happly =>
    intro id task' hget' hrunning
    obtain ⟨task, hget, honward⟩ := @onward_report (fun _ => True) _ _ _ _ _ _ happly (fun _ _ _ => trivial) hget'
    exact honward.unfinished (hs id task hget) hrunning
  | annotated => exact hs
  | noted => exact hs

/-- **It stays so.** -/
theorem upheld_unfinished : Upheld (fun _ => True) fun s => Unfinished s.registry where
  keeps _ hs htends := htends.unfinished hs
  fails _ _ _ _ _ _ := trivial

omit [JsonSchema] [Digest] in
/-- Any result may be brought. -/
theorem fit_of_trivial {server : McpJsonRpcServer} {asked : ServerCall} : asked.Fit (fun _ => True) server := by
  unfold ServerCall.Fit
  split
  · exact fun _ => trivial
  · trivial

variable {reg : McpServerRegistry}

/-- It is so in every registry that a server can be created with. -/
theorem RegistryOp.unfinished (h : Unfinished reg) (op : RegistryOp) :
    Unfinished (op.apply reg) := by
  have hsame (reg' : McpServerRegistry) (htasks : reg'.tasks = reg.tasks) : Unfinished reg' := by
    intro id task hget
    rw [htasks] at hget
    exact h id task hget
  have htending (hop : Tending (fun _ => True) op) : Unfinished (op.apply reg) := by
    intro id task' hget' hrunning
    obtain ⟨task, hget, honward⟩ := hop.onward hget'
    exact honward.unfinished (h id task hget) hrunning
  cases op with
  | registerTool tool =>
    rcases registerTool_cases reg tool with hreg | ⟨_, _, hreg⟩
    · rw [hreg]
      exact h
    · rw [hreg]
      exact hsame _ rfl
  | upsertTool tool => exact htending (.upsertTool tool)
  | registerResource resource =>
    refine @keeping_cases _ Unfinished _ h fun reg' hreg => ?_
    simp only [McpServerRegistry.registerResource, bind_eq_ok, exists_unit, pure, Except.pure,
      Except.ok.injEq] at hreg
    obtain ⟨_, _, rfl⟩ := hreg
    exact hsame _ rfl
  | registerPrompt prompt =>
    refine @keeping_cases _ Unfinished _ h fun reg' hreg => ?_
    simp only [McpServerRegistry.registerPrompt, bind_eq_ok, exists_unit, pure, Except.pure,
      Except.ok.injEq] at hreg
    obtain ⟨_, _, rfl⟩ := hreg
    exact hsame _ rfl
  | callTool request caller =>
    intro id task' hget' hrunning
    rcases onward_called hget' with hget | ⟨_, _, hresult⟩
    · exact h id task' hget hrunning
    · exact hresult
  | resumeApproval taskId response caller => exact htending (.resumeApproval taskId response caller)
  | cancelTask taskId caller => exact htending (.cancelTask taskId caller)
  | query asked caller => exact h
  | report taskId told =>
    intro id task' hget' hrunning
    cases happly : told.apply reg taskId with
    | error e =>
      rw [RegistryOp.apply, happly] at hget'
      exact h id task' hget' hrunning
    | ok reg' =>
      rw [RegistryOp.apply, happly] at hget'
      obtain ⟨task, hget, honward⟩ :=
        @onward_report (fun _ => True) _ _ _ _ _ _ happly (fun _ _ _ => trivial) hget'
      exact honward.unfinished (h id task hget) hrunning

theorem unfinished_of_run {log : List RegistryEntry} (hrun : Path RegistryStep .new log reg) :
    Unfinished reg := by
  refine hrun.invariant (fun reg e reg' _ hstep h => ?_) fun id task hget => ?_
  · obtain ⟨hbefore, rfl⟩ := hstep
    rw [RegistryEntry.after, hbefore]
    exact e.op.unfinished h
  · have hempty : McpServerRegistry.new.tasks[id]? = none := BTreeMap.get_empty
    rw [hempty] at hget
    cases hget

end

/-! ### What an ending releases -/

section

variable {state : McpServerState} {taskId key : String} {result : ProtocolResult Value} {receipt : McpRequestReceipt}
  {response : Value} {now : String} {nowUnixMs : Nat}

theorem taskAnswer_of_waiter (h : waiterAnswer taskId result receipt = some response) :
    directAnswer taskId result receipt = none ∧ taskAnswer taskId result receipt = some response := by
  have hdirect : directAnswer taskId result receipt = none := by
    unfold directAnswer
    rw [(waiterAnswer_eq_some h).1]
  refine ⟨hdirect, ?_⟩
  rw [taskAnswer, hdirect, Option.none_or, h]

theorem waiterAnswer_of_waiting (result : ProtocolResult Value) (h : receipt.state = .waitingForTask taskId) :
    ∃ released, waiterAnswer taskId result receipt = some released := by
  unfold waiterAnswer
  rw [h]
  dsimp only
  rw [if_pos rfl]
  exact ⟨_, rfl⟩

theorem receipts_stampTask : (state.stampTask taskId now nowUnixMs).receipts = state.receipts := by
  obtain ⟨_, hfields⟩ := stampTask_fields state taskId now nowUnixMs
  rw [hfields]

/-- A waiter gets its response as a message. -/
theorem mem_releaseTask (hget : state.receipts[key]? = some receipt)
    (hanswer : waiterAnswer taskId result receipt = some response) :
    ⟨receipt.connectionId, response⟩ ∈ (state.releaseTask taskId result now nowUnixMs).2 := by
  obtain ⟨hdirect, _⟩ := taskAnswer_of_waiter hanswer
  unfold releaseTask
  refine List.mem_append_left _ (List.mem_append_right _ ?_)
  refine List.mem_filterMap.mpr ⟨receipt, ?_, ?_⟩
  · refine BTreeMap.mem_values.mpr ⟨key, ?_⟩
    show (release _ _ _).1.receipts[key]? = some receipt
    rw [get_release, receipts_stampTask, hget, Option.map_some, answered_of_none hdirect]
  · rw [hanswer]
    rfl

/-- So it does when the task is one of those that expire. -/
theorem mem_expireTasks {ids : List String} {state' : McpServerState} {outbound : List McpOutboundMessage}
    (h : expireTasks now nowUnixMs ids state = .ok (state', outbound)) (hmem : taskId ∈ ids)
    (hget : state.receipts[key]? = some receipt)
    (hanswer : waiterAnswer taskId (.error (.conflict "MCP task TTL expired")) receipt =
      some response) : ⟨receipt.connectionId, response⟩ ∈ outbound := by
  induction ids generalizing state outbound with
  | nil => cases hmem
  | cons id rest ih =>
    unfold expireTasks at h
    obtain ⟨registry, _, h⟩ := bind_eq_ok.mp h
    dsimp only at h
    obtain ⟨⟨last, more⟩, hrest, h⟩ := bind_eq_ok.mp h
    cases h
    by_cases heq : id = taskId
    · subst heq
      exact List.mem_append_left _ (@mem_releaseTask { state with registry } _ _ _ _ _ _ _ hget hanswer)
    · refine List.mem_append_right _ (ih hrest ?_ ?_)
      · exact (List.mem_cons.mp hmem).resolve_left (Ne.symm heq)
      · have hreleased := releaseTask_spec { state with registry } id
          (.error (.conflict "MCP task TTL expired")) now nowUnixMs
        have hother : taskAnswer id (.error (.conflict "MCP task TTL expired")) receipt = none := by
          refine Option.eq_none_iff_forall_ne_some.mpr fun other hsome => heq ?_
          have htaskId := (taskAnswer_eq_some hsome).1
          rw [(taskAnswer_eq_some (taskAnswer_of_waiter hanswer).2).1, Option.some.injEq] at htaskId
          exact htaskId.symm
        rw [hreleased.receipts]
        dsimp only
        rw [hget, Option.map_some, answered_of_none hother]

end

/-! ### Endings -/

/-- The ways in which a task ends. A tool error is a result. -/
inductive Ending where
  | result (value : Value)
  | failure (error : ProtocolError)
  | cancellation
  | expiry

/-- What the receipts of a task are answered from. -/
def Ending.outcome : Ending → ProtocolResult Value
  | .result value => .ok value
  | .failure error => .error error
  | .cancellation => .error ⟨.cancelled, "MCP task was cancelled"⟩
  | .expiry => .error (.conflict "MCP task TTL expired")

/-- The task, as it ended. -/
inductive EndedAs (taskId : String) : Ending → McpTask → Prop where
  | result {task : McpTask} {value : Value} (named : task.taskId = taskId)
    (status : task.status = .completed ∨ task.status = .failed) (result : task.result = some value)
    (isObject : value.isObject = true) : EndedAs taskId (.result value) task
  | failure {task : McpTask} {error : ProtocolError} (named : task.taskId = taskId) (status : task.status = .failed)
    (result : task.result = none) (failed : task.error = some error) : EndedAs taskId (.failure error) task
  | cancellation {task : McpTask} (named : task.taskId = taskId) (status : task.status = .cancelled) :
    EndedAs taskId .cancellation task
  | expiry {task : McpTask} (named : task.taskId = taskId) (status : task.status = .failed)
    (result : task.result = none) (failed : task.error = some (.conflict "MCP task TTL expired")) :
    EndedAs taskId .expiry task

variable {taskId : String}

variable {ending : Ending}

theorem EndedAs.isTerminal (h : EndedAs taskId ending task) :
    task.status.isTerminal = true := by
  cases h with
  | result _ status _ _ => rcases status with hstatus | hstatus <;> rw [hstatus] <;> rfl
  | failure _ status _ _ | cancellation _ status | expiry _ status _ _ =>
    rw [status]
    rfl

theorem isSome_of_isObject {value : Value} (h : value.isObject = true) (key : String) (field : Value) :
    ∃ changed, withField value key field = some changed := by
  cases value with
  | object fields => exact ⟨_, rfl⟩
  | null | bool _ | number _ | string _ | array _ => cases h

variable {receipt : McpRequestReceipt} {released : Value}

/-- The response that is released. -/
theorem waiterAnswer_response {result : ProtocolResult Value} : waiterAnswer taskId result receipt = some released →
    released = match result with
      | .ok value => jsonrpcResult receipt.requestId (withRelatedTask value taskId)
      | .error error => protocolErrorResponse receipt.requestId error := by
  intro h
  unfold waiterAnswer at h
  rw [(waiterAnswer_eq_some h).1] at h
  dsimp only at h
  rw [if_pos rfl, Option.some.injEq] at h
  exact h.symm

/-- **The response that is released, and the one that is given later.** -/
theorem EndedAs.sameUpToId_iff (h : EndedAs taskId ending task)
    (hreleased : waiterAnswer taskId ending.outcome receipt = some released) (id : Value) :
    SameUpToId released (terminalTaskResponse id task) ↔ ending ≠ .cancellation := by
  have hresponse := waiterAnswer_response hreleased
  have hsame (heq : released = terminalTaskResponse receipt.requestId task) :
      SameUpToId released (terminalTaskResponse id task) := by
    rw [heq]
    exact sameUpToId_terminalTaskResponse receipt.requestId id task
  subst hresponse
  cases h with
  | result named status result isObject =>
    refine ⟨fun _ => by rintro ⟨⟩, fun _ => hsame ?_⟩
    obtain ⟨changed, hchanged⟩ := isSome_of_isObject isObject "_meta" (relatedTaskMeta taskId)
    show jsonrpcResult receipt.requestId (withRelatedTask _ taskId) = _
    unfold terminalTaskResponse
    rcases status with hstatus | hstatus
    · rw [hstatus, result, named]
      rfl
    · rw [hstatus, result, named]
      dsimp only
      rw [withRelatedTask, hchanged]
      rfl
  | failure named status result failed =>
    refine ⟨fun _ => by rintro ⟨⟩, fun _ => hsame ?_⟩
    unfold terminalTaskResponse
    rw [status, result, failed]
    rfl
  | expiry named status result failed =>
    refine ⟨fun _ => by rintro ⟨⟩, fun _ => hsame ?_⟩
    unfold terminalTaskResponse
    rw [status, result, failed]
    rfl
  | cancellation named status =>
    refine ⟨fun hsame' => absurd hsame' ?_, fun hne => absurd rfl hne⟩
    unfold terminalTaskResponse
    rw [status]
    exact not_sameUpToId_cancelled receipt.requestId id task.taskId

section

variable [JsonSchema]

/-- A task ends, and messages go out. -/
inductive Ends (server : McpJsonRpcServer) (clock : Readings) (taskId : String) (s : McpServerState) :
    Ending → McpServerState → List McpOutboundMessage → Prop where
  | result {value : Value} {s' : McpServerState} {outbound : List McpOutboundMessage}
    (told : (server.completeTool clock taskId value).exec (some s) = (.ok outbound, some s')) :
    Ends server clock taskId s (.result value) s' outbound
  | failure {error : ProtocolError} {s' : McpServerState} {outbound : List McpOutboundMessage}
    (told : (failTool clock taskId error).exec (some s) = (.ok outbound, some s')) :
    Ends server clock taskId s (.failure error) s' outbound
  | cancellation {s' : McpServerState} {outbound : List McpOutboundMessage}
    (told : (confirmCancellation clock taskId).exec (some s) = (.ok outbound, some s')) :
    Ends server clock taskId s .cancellation s' outbound
  | expiry {s' : McpServerState} {outbound : List McpOutboundMessage} (loads : s.validate = .ok ())
    (due : taskId ∈ s.dueTasks clock.expiring)
    (expired : expireFirst clock s = .ok (s', outbound)) :
    Ends server clock taskId s .expiry s' outbound

/-- What an ending leaves: the task as it ended, and a message for every receipt that waited. -/
structure Settled (taskId : String) (ending : Ending) (s s' : McpServerState) (outbound : List McpOutboundMessage) :
    Prop where
  task : ∃ task', s'.registry.tasks[taskId]? = some task' ∧ EndedAs taskId ending task'
  receipts : ∀ (key : String) (receipt : McpRequestReceipt) (released : Value), s.receipts[key]? = some receipt →
    waiterAnswer taskId ending.outcome receipt = some released →
      (∃ at_, s'.receipts[key]? = some { receipt with state := .completed released at_ }) ∧
        ⟨receipt.connectionId, released⟩ ∈ outbound

variable {ending : Ending}

omit [JsonSchema] in
theorem settled_endTask {clock : Readings} {taskId : String} {s : McpServerState} {task' : McpTask}
    {registry : McpServerRegistry} (hget : registry.tasks[taskId]? = some task') (hended : EndedAs taskId ending task')
    (revision : Nat) : Settled taskId ending s
      (({ s with registry }.releaseTask taskId ending.outcome clock.nowText clock.now).1.stamped revision)
      ({ s with registry }.releaseTask taskId ending.outcome clock.nowText clock.now).2 := by
  have hreleased := releaseTask_spec { s with registry } taskId ending.outcome clock.nowText clock.now
  refine ⟨⟨task', ?_, hended⟩, fun key receipt released hreceipt hanswer => ⟨⟨clock.now, ?_⟩, ?_⟩⟩
  · exact (congrArg (fun reg : McpServerRegistry => reg.tasks[taskId]?) hreleased.registry).trans hget
  · refine (hreleased.receipts key).trans ?_
    dsimp only
    rw [hreceipt, Option.map_some, answered_of_some (taskAnswer_of_waiter hanswer).2]
  · exact @mem_releaseTask { s with registry } _ _ _ _ _ _ _ hreceipt hanswer

/-- What a report of the host leaves. -/
theorem settled_transact {clock : Readings} {taskId : String} {ending : Ending} {s s' : McpServerState}
    {outbound : List McpOutboundMessage} {report : McpServerRegistry → ProtocolResult McpServerRegistry}
    (h : (transact fun state => do
        let registry ← report state.registry
        pure (endTask clock state taskId registry ending.outcome)).exec (some s) =
      (.ok outbound, some s'))
    (hreport : s.validate = .ok () → ∀ registry, report s.registry = .ok registry →
      ∃ task', registry.tasks[taskId]? = some task' ∧ EndedAs taskId ending task') :
    Settled taskId ending s s' outbound := by
  cases hvalid : s.validate with
  | error e =>
    unfold transact at h
    rw [Program.exec_bind, Program.exec_loadState, hvalid] at h
    cases h
  | ok =>
    rw [Program.exec_transact _ hvalid] at h
    cases hregistry : report s.registry with
    | error e =>
      rw [hregistry] at h
      cases h
    | ok registry =>
      obtain ⟨task', hget, hended⟩ := hreport hvalid registry hregistry
      rw [hregistry] at h
      cases h
      exact settled_endTask hget hended s.storageRevision

omit [JsonSchema] in
/-- The end of a task, as the registry has it. -/
theorem get_finishTask {reg reg' : McpServerRegistry} {taskId : String} {status : McpTaskStatus} {result : Option Value}
    {error : Option ProtocolError} (h : reg.finishTask taskId status result error = .ok reg') :
    ∃ task task', reg.tasks[taskId]? = some task ∧ reg'.tasks[taskId]? = some task' ∧ task'.taskId = task.taskId ∧
      task'.status = status ∧ task'.result = result ∧ task'.error = error := by
  unfold McpServerRegistry.finishTask at h
  obtain ⟨task, hfound, h⟩ := bind_eq_ok.mp h
  simp only [bind_eq_ok, refuseIf_eq_ok, exists_unit, pure, Except.pure, Except.ok.injEq] at h
  obtain ⟨_, rfl⟩ := h
  exact ⟨task, _, okOr_eq_ok.mp hfound, McpServerRegistry.get_updateTask.trans (if_pos rfl), rfl, rfl, rfl, rfl⟩

theorem Ends.settled {server : McpJsonRpcServer} {clock : Readings} {taskId : String}
    {s s' : McpServerState} {outbound : List McpOutboundMessage}
    (h : Ends server clock taskId s ending s' outbound) (hs : Unfinished s.registry) :
    Settled taskId ending s s' outbound := by
  cases h with
  | @result value _ _ told =>
    unfold completeTool at told
    rw [Program.exec_bind, Program.exec_check] at told
    cases hresult : validateToolResult value server.maxResultBytes server.maxResultItems server.maxResultDepth with
    | error e =>
      rw [hresult] at told
      cases told
    | ok =>
      rw [hresult] at told
      refine @settled_transact _ _ _ (.result value) _ _ _
        (fun reg => reg.completeToolResult taskId value (isErrorResult value)) told
        fun hvalid registry hregistry => ?_
      obtain ⟨task, task', hget, hget', htaskId, hstatus, hvalue, _⟩ := get_finishTask hregistry
      obtain ⟨_, _, _, _, htasks⟩ := validate_eq_ok.mp hvalid
      refine ⟨task', hget', .result (htaskId.trans (htasks taskId task hget).taskId) ?_ hvalue ?_⟩
      · rw [hstatus]
        cases isErrorResult value with
        | true => exact .inr rfl
        | false => exact .inl rfl
      · simp only [validateToolResult, bind_eq_ok, refuseIf_eq_ok, exists_unit, Bool.not_eq_false] at hresult
        exact hresult.2.1
  | @failure error _ _ told =>
    refine @settled_transact _ _ _ (.failure error) _ _ _ (fun reg => reg.failTask taskId error) told
      fun hvalid registry hregistry => ?_
    obtain ⟨task, task', hget, hget', htaskId, hstatus, hvalue, herror⟩ := get_finishTask hregistry
    obtain ⟨_, _, _, _, htasks⟩ := validate_eq_ok.mp hvalid
    exact ⟨task', hget', .failure (htaskId.trans (htasks taskId task hget).taskId) hstatus hvalue herror⟩
  | cancellation told =>
    refine @settled_transact _ _ _ .cancellation _ _ _ (fun reg => reg.confirmCancelTask taskId) told
      fun hvalid registry hregistry => ?_
    unfold McpServerRegistry.confirmCancelTask at hregistry
    obtain ⟨task, hfound, hregistry⟩ := bind_eq_ok.mp hregistry
    simp only [bind_eq_ok, refuseIf_eq_ok, exists_unit, pure, Except.pure, Except.ok.injEq] at hregistry
    obtain ⟨_, _, rfl⟩ := hregistry
    obtain ⟨_, _, _, _, htasks⟩ := validate_eq_ok.mp hvalid
    exact ⟨_, McpServerRegistry.get_updateTask.trans (if_pos rfl),
      .cancellation (htasks taskId task (okOr_eq_ok.mp hfound)).taskId rfl⟩
  | expiry loads due expired =>
    obtain ⟨_, _, hspec, hexpired⟩ := expireDueTasks_spec s clock.expiringText clock.expiring
    have heq := hspec.symm.trans expired
    cases heq
    obtain ⟨_, _, _, _, htasks⟩ := validate_eq_ok.mp loads
    obtain ⟨_, task, hget, hrunning⟩ := mem_dueTasks.mp due
    obtain ⟨task₀, task', hget₀, hget', hover⟩ := hexpired.ended taskId due
    cases hget.symm.trans hget₀
    refine ⟨⟨task', hget', ?_⟩, fun key receipt released hreceipt hanswer => ⟨⟨clock.expiring, ?_⟩, ?_⟩⟩
    · cases hover with
      | ended hterminal =>
        rw [hrunning] at hterminal
        cases hterminal
      | expired _ revision =>
        exact .expiry (htasks taskId task hget).taskId rfl (hs taskId task hget hrunning) rfl
    · have hall : expiryAnswer (s.dueTasks clock.expiring) receipt = some released := by
        obtain ⟨_, hanswered⟩ := taskAnswer_of_waiter hanswer
        have hmem : (s.dueTasks clock.expiring).contains taskId = true := List.contains_iff_mem.mpr due
        rw [expiryAnswer, (taskAnswer_eq_some hanswered).1, Option.filter_some, if_pos hmem]
        exact hanswered
      rw [hexpired.receipts, hreceipt, Option.map_some, answered_of_some hall]
    · exact mem_expireTasks hspec due hreceipt hanswer

/-! ### Later requests -/

variable [Digest] [JsonReader]

/-- A request for the result of a task, that is let through. -/
structure Asks (server : McpJsonRpcServer) (clock : Readings) (connectionId : String)
    (principal : Option ProtocolPrincipal) (payload : List UInt8) (taskId : String) (s : McpServerState)
    (dispatch : McpJsonRpcDispatch) : Prop where
  request : ∃ raw request, server.ingress connectionId payload = .ok (.request raw request) ∧
    request.method = "tasks/result" ∧ request.params.getStr "taskId" = some taskId
  answered : ((server.handle clock connectionId principal payload).exec (some s)).1 = .ok dispatch
  authorized : ∃ decision, dispatch.governedAction = some decision ∧ decision.isAuthorized = true

variable {server : McpJsonRpcServer} {clock : Readings} {connectionId taskId : String}
  {principal : Option ProtocolPrincipal} {payload : List UInt8} {s : McpServerState} {dispatch : McpJsonRpcDispatch}
  {task : McpTask}

omit [JsonReader] [JsonSchema] in
/-- A task that has ended is answered from as it is. -/
theorem taskResult_ended {ctx : RequestContext} {next : Option McpServerState} {decision : Decision}
    (h : taskResult clock s ctx = .ok (next, dispatch))
    (hnamed : ctx.request.params.getStr "taskId" = some taskId) (hdecision : dispatch.governedAction = some decision)
    (hallowed : decision.isAuthorized = true)
    (hold : ∀ found, s.registry.tasks[taskId]? = some found → found = task)
    (hterminal : task.status.isTerminal = true) :
    ∃ id, dispatch.response = some (terminalTaskResponse id task) := by
  obtain ⟨s₁, maintenance, hspec, hexpired⟩ := expireDueTasks_spec s clock.expiringText clock.expiring
  have hfirst : expireFirst clock s = .ok (s₁, maintenance) := hspec
  unfold taskResult at h
  rw [hfirst, ok_bind] at h
  dsimp only at h
  cases hid : ctx.request.id with
  | none =>
    rw [hid] at h
    cases h
    cases hdecision
  | some id =>
    rw [hid, hnamed] at h
    dsimp only at h
    obtain ⟨identity, _, h⟩ := bind_eq_ok.mp h
    have hsame (found : McpTask) (hfound : s₁.registry.tasks[taskId]? = some found) : found = task := by
      by_cases hdue : taskId ∈ s.dueTasks clock.expiring
      · obtain ⟨_, running, hget, hrunning⟩ := mem_dueTasks.mp hdue
        rw [hold running hget, hterminal] at hrunning
        cases hrunning
      · rw [hexpired.untouched taskId hdue] at hfound
        exact hold found hfound
    split at h
    · next found haction =>
      obtain ⟨shown, hshown, hget, _, _⟩ := prepareGetTask_cases haction
      cases hshown
      rw [hsame found hget, hterminal, if_pos rfl] at h
      cases h
      exact ⟨id, rfl⟩
    · next hnone =>
      cases h
      cases hdecision
      unfold GovernedAction.isAuthorized at hallowed
      rw [Bool.and_eq_true] at hallowed
      obtain ⟨action, haction⟩ := Option.isSome_iff_exists.mp hallowed.1
      obtain ⟨found, rfl, _⟩ := prepareGetTask_cases haction
      exact absurd haction (hnone found)

/-- **A request that is let through is answered from the task as it ended.** -/
theorem Asks.response (h : Asks server clock connectionId principal payload taskId s dispatch)
    (hget : s.registry.tasks[taskId]? = some task) (hterminal : task.status.isTerminal = true) :
    ∃ id, dispatch.response = some (terminalTaskResponse id task) := by
  obtain ⟨raw, request, hingress, hmethod, hnamed⟩ := h.request
  obtain ⟨decision, hdecision, hallowed⟩ := h.authorized
  have hanswered := h.answered
  have hvalid : s.validate = .ok () := by
    cases hloads : s.validate with
    | ok => rfl
    | error e =>
      unfold handle at hanswered
      rw [hingress, Program.exec_bind, Program.exec_check] at hanswered
      dsimp only at hanswered
      rw [Program.exec_bind, Program.exec_loadState, hloads] at hanswered
      cases hanswered
  rw [exec_handle hvalid hingress] at hanswered
  obtain ⟨⟨next, answer⟩, hresponded, rfl⟩ := map_eq_ok.mp hanswered
  replace hdecision : answer.governedAction = some decision := hdecision
  show ∃ id, answer.response = some (terminalTaskResponse id task)
  rw [respond_eq] at hresponded
  cases hearly : server.early clock (server.base clock s) connectionId request (stableInputHash raw) with
  | some early =>
    rw [hearly] at hresponded
    cases hresponded
    rw [(outbound_early hearly).2] at hdecision
    cases hdecision
  | none =>
    rw [hearly] at hresponded
    obtain ⟨_, hroom, _⟩ := room_fields server clock (server.base clock s) request
    have hold (found : McpTask)
        (hfound : (server.room clock (server.base clock s) request).registry.tasks[taskId]? = some found) :
        found = task := by
      rw [hroom] at hfound
      rcases kept_base server clock s with heq | ⟨collected, hcollected, heq⟩
      · rw [heq] at hfound
        exact Option.some.inj (hfound.symm.trans hget)
      · rw [heq] at hfound
        rcases hcollected.tasks taskId with ⟨hkept, _⟩ | ⟨hgone, _⟩
        · exact Option.some.inj (hfound.symm.trans (hkept.trans hget))
        · cases hfound.symm.trans hgone
    unfold dispatch at hresponded
    dsimp only at hresponded
    rw [if_neg (by rw [hmethod]; decide), if_neg (by rw [hmethod]; decide)] at hresponded
    have hrefused {code : JsonRpcCode} {message : String}
        (hrefusal : Except.ok (ε := ProtocolError) (none, request.errorOrIgnore code message) = .ok (next, answer)) :
        False := by
      cases hrefusal
      rw [outbound_errorOrIgnore.2] at hdecision
      cases hdecision
    split at hresponded
    · exact (hrefused hresponded).elim
    · exact (hrefused hresponded).elim
    · split at hresponded
      · exact (hrefused hresponded).elim
      · split at hresponded
        · exact (hrefused hresponded).elim
        · rw [dispatchInitialized_result hmethod] at hresponded
          exact taskResult_ended hresponded hnamed hdecision hallowed hold hterminal

/-- **A request for a result gets the same response before the end of the task and after it**, unless the task
ends by a cancellation. -/
theorem same_result_iff {ι : Type} [DecidableEq ι]
    {log : List (ClientEvent ι ServerTask StoreQuery StoreQuery.Answer)} {servers : Servers ι}
    (hrun : ServersRun log servers)
    (hnew : ∀ registry, (∃ e ∈ log, e.start = some (.new registry)) →
      ∃ operations, Path RegistryStep .new operations registry)
    (hstored : servers.store = some s) {ending : Ending} {s' : McpServerState} {outbound : List McpOutboundMessage}
    (hends : Ends server clock taskId s ending s' outbound) {key : String} {receipt : McpRequestReceipt}
    (hreceipt : s.receipts[key]? = some receipt) (hwaits : receipt.state = .waitingForTask taskId) :
    ∃ released, (∃ at_, s'.receipts[key]? = some { receipt with state := .completed released at_ }) ∧
      ⟨receipt.connectionId, released⟩ ∈ outbound ∧
      ∀ (server' : McpJsonRpcServer) (clock' : Readings) (connectionId : String)
        (principal : Option ProtocolPrincipal) (payload : List UInt8) (later : McpServerState)
        (dispatch : McpJsonRpcDispatch), later.registry.tasks[taskId]? = s'.registry.tasks[taskId]? →
        Asks server' clock' connectionId principal payload taskId later dispatch →
          ∃ response, dispatch.response = some response ∧
            (SameUpToId released response ↔ ending ≠ .cancellation) := by
  have hunfinished : Unfinished s.registry := by
    refine upheld_unfinished.run hrun (fun task htask => ?_) s hstored
    cases task with
    | call server clock asked => exact fit_of_trivial
    | new registry =>
      obtain ⟨_, hoperations⟩ := hnew registry htask
      exact unfinished_of_run hoperations
  have hsettled := hends.settled hunfinished
  obtain ⟨task', hget', hended⟩ := hsettled.task
  obtain ⟨released, hreleased⟩ := waiterAnswer_of_waiting ending.outcome hwaits
  obtain ⟨hcompleted, hsent⟩ := hsettled.receipts key receipt released hreceipt hreleased
  refine ⟨released, hcompleted, hsent, fun server' clock' connectionId principal payload later dispatch hsame hasks => ?_⟩
  obtain ⟨id, hresponse⟩ := hasks.response (hsame.trans hget') hended.isTerminal
  exact ⟨_, hresponse, hended.sameUpToId_iff hreleased id⟩

end

/-! ### Samples -/

/-- A notification that a connection is ready. -/
def ready : Value := .ofFields [("jsonrpc", .string "2.0"), ("method", .string "notifications/initialized")]

/-- A call of a tool as a task. -/
def startTask : Value := requestOf 2 "tools/call" [("name", .string "echo"), ("task", .object [])]

/-- A request for its result. -/
def askForResult (id : Nat) : Value := requestOf id "tasks/result" [("taskId", .string (taskIdOf 1))]

/-- A reader of these messages. -/
@[reducible] def waitingReader : JsonReader := readerOf [greeting 1, ready, startTask, askForResult 3, askForResult 5]

section

variable [Digest] [JsonSchema] [JsonReader]

/-- A message of alice. -/
def byAlice (message : Value) : ServerTask :=
  .call sampleServer sampleClock (.handle "connection" (some alice) (payloadOf message))

/-- A server with a tool. -/
def newEcho : ServerTask := .new ((RegistryOp.registerTool echoTool).apply .new)

/-- Alice waits for the result of her task. -/
def waiting : List ServerTask :=
  [newEcho, byAlice (greeting 1), byAlice ready, byAlice startTask, byAlice (askForResult 3)]

/-- Her connection is closed. -/
def closing : ServerTask := .call sampleServer sampleClock (.terminateConnection "connection" (some alice))

/-- She asks for the result, and is let through. -/
def asksAgain (s : McpServerState) : Bool :=
  match ((sampleServer.handle sampleClock "connection" (some alice) (payloadOf (askForResult 5))).exec (some s)).1 with
  | .ok dispatch => dispatch.governedAction.any (·.isAuthorized)
  | .error _ => false

/-- A receipt waits for the task, which ends, and the result is asked for again. -/
def endsBy (s : McpServerState) (ending : Program (List McpOutboundMessage)) : Bool :=
  s.receipts.toList.any (fun entry => entry.2.state = .waitingForTask (taskIdOf 1)) &&
    match ending.exec (some s) with
    | (.ok _, some s') => asksAgain s'
    | _ => false

variable {s : McpServerState}

theorem exists_endsBy {ending : Program (List McpOutboundMessage)} (h : endsBy s ending = true) :
    (∃ (key : String) (receipt : McpRequestReceipt), s.receipts[key]? = some receipt ∧
        receipt.state = .waitingForTask (taskIdOf 1)) ∧
      ∃ outbound s', ending.exec (some s) = (.ok outbound, some s') ∧ asksAgain s' = true := by
  unfold endsBy at h
  rw [Bool.and_eq_true, List.any_eq_true] at h
  obtain ⟨⟨⟨key, receipt⟩, hmem, hwaits⟩, hends⟩ := h
  refine ⟨⟨key, receipt, BTreeMap.mem_toList.mp hmem, by simpa using hwaits⟩, ?_⟩
  split at hends
  · next outbound s' hexec => exact ⟨outbound, s', hexec, hends⟩
  · cases hends

theorem exists_asks (h : asksAgain s = true)
    (hrequest : ∃ raw request,
      sampleServer.ingress "connection" (payloadOf (askForResult 5)) = .ok (.request raw request) ∧
        request.method = "tasks/result" ∧ request.params.getStr "taskId" = some (taskIdOf 1)) :
    ∃ dispatch, Asks sampleServer sampleClock "connection" (some alice) (payloadOf (askForResult 5)) (taskIdOf 1) s
      dispatch := by
  unfold asksAgain at h
  split at h
  · next dispatch hanswered =>
    obtain ⟨decision, hdecision, hallowed⟩ := (Option.any_eq_true _ _).mp h
    exact ⟨dispatch, hrequest, hanswered, decision, hdecision, hallowed⟩
  · cases h

omit [JsonReader] in
theorem newEcho_new {tasks : List ServerTask} (h : ∀ task ∈ tasks, task ∈ waiting ++ [closing])
    {registry : McpServerRegistry} (hnew : .new registry ∈ tasks) :
    ∃ operations, Path RegistryStep .new operations registry := by
  have hmem := h _ hnew
  unfold waiting newEcho byAlice closing at hmem
  simp only [List.cons_append, List.nil_append, List.mem_cons, List.not_mem_nil, or_false, ServerTask.new.injEq,
    reduceCtorEq] at hmem
  exact ⟨[⟨.new, .registerTool echoTool⟩], .single ⟨rfl, hmem⟩⟩

end

/-- Her task has a result. Once her connection is closed, it is cancelled. -/
theorem endsBy_either :
    let _ : Digest := sha256
    let _ : JsonSchema := Agent.emptySchema
    let _ : JsonReader := waitingReader
    (storedAfterAll none waiting).any (fun s =>
      endsBy s (sampleServer.completeTool sampleClock (taskIdOf 1) plainResult)) = true ∧
    (storedAfterAll none waiting).any (fun s =>
      (closing.program.runOn storeAnswer (some s)).2.any fun s' =>
        endsBy s' (confirmCancellation sampleClock (taskIdOf 1))) = true := by
  unfold waiting endsBy asksAgain byAlice waitingReader readerOf
  rw [sha256_eq_quick, payloadOf_eq_quick]
  -- one evaluation after the other: both at once would hold twice the memory
  constructor
  · decide +kernel
  · decide +kernel

/-- Her task has a result, or, once her connection is closed, is cancelled. -/
theorem endsBy_sha256 :
    let _ : Digest := sha256
    let _ : JsonSchema := Agent.emptySchema
    let _ : JsonReader := waitingReader
    (storedAfterAll none waiting).any (fun s =>
      endsBy s (sampleServer.completeTool sampleClock (taskIdOf 1) plainResult) &&
        (closing.program.runOn storeAnswer (some s)).2.any fun s' =>
          endsBy s' (confirmCancellation sampleClock (taskIdOf 1))) = true := by
  intro _ _ _
  obtain ⟨s, hs, hresult⟩ := (Option.any_eq_true _ _).mp endsBy_either.1
  obtain ⟨s₁, hs₁, hcancelled⟩ := (Option.any_eq_true _ _).mp endsBy_either.2
  cases hs.symm.trans hs₁
  exact (Option.any_eq_true _ _).mpr ⟨s, hs, Bool.and_eq_true_iff.mpr ⟨hresult, hcancelled⟩⟩

theorem askForResult_ingress :
    let _ : JsonReader := waitingReader
    ∃ raw request, sampleServer.ingress "connection" (payloadOf (askForResult 5)) = .ok (.request raw request) ∧
      request.method = "tasks/result" ∧ request.params.getStr "taskId" = some (taskIdOf 1) := by
  unfold waitingReader readerOf
  rw [payloadOf_eq_quick]
  exact ⟨askForResult 5, ⟨some (.number (.posInt 5)), "tasks/result",
    .ofFields [("taskId", .string (taskIdOf 1))]⟩, by decide +kernel, rfl, by decide +kernel⟩

/-- **After a cancellation, the two responses differ.** -/
theorem not_same_result : ¬ ∀ (_ : JsonReader)
    (log : List (ClientEvent Unit ServerTask StoreQuery StoreQuery.Answer)) (servers : Servers Unit)
    (s s' : McpServerState) (ending : Ending) (outbound : List McpOutboundMessage) (key : String)
    (receipt : McpRequestReceipt) (dispatch : McpJsonRpcDispatch),
    @ServersRun sha256 Agent.emptySchema _ Unit _ log servers →
      (∀ registry, (∃ e ∈ log, e.start = some (.new registry)) →
        ∃ operations, Path (@RegistryStep Agent.emptySchema sha256) .new operations registry) →
      servers.store = some s →
      @Ends Agent.emptySchema sampleServer sampleClock (taskIdOf 1) s ending s' outbound →
      s.receipts[key]? = some receipt → receipt.state = .waitingForTask (taskIdOf 1) →
      @Asks Agent.emptySchema sha256 _ sampleServer sampleClock "connection" (some alice) (payloadOf (askForResult 5))
        (taskIdOf 1) s' dispatch →
        ∃ released response, (∃ at_, s'.receipts[key]? = some { receipt with state := .completed released at_ }) ∧
          dispatch.response = some response ∧ SameUpToId released response := by
  intro h
  let _ : Digest := sha256
  let _ : JsonSchema := Agent.emptySchema
  let _ : JsonReader := waitingReader
  obtain ⟨s₀, hs₀, hclosed⟩ := (Option.any_eq_true _ _).mp endsBy_sha256
  obtain ⟨s, hs, hends⟩ := (Option.any_eq_true _ _).mp (Bool.and_eq_true_iff.mp hclosed).2
  obtain ⟨⟨key, receipt, hreceipt, hwaits⟩, outbound, s', hexec, hagain⟩ := exists_endsBy hends
  obtain ⟨dispatch, hasks⟩ := exists_asks hagain askForResult_ingress
  obtain ⟨log, servers, hrun, hstore, htask⟩ := exists_in_turn (.nil _) () (waiting ++ [closing])
  have hstored : servers.store = some s := by
    rw [hstore]
    show storedAfterAll none (waiting ++ [closing]) = some s
    rw [storedAfterAll_append, hs₀, hs]
  have hnew (registry : McpServerRegistry) (hstarted : ∃ e ∈ log, e.start = some (.new registry)) :
      ∃ operations, Path RegistryStep .new operations registry :=
    newEcho_new (fun _ hmem => hmem) (htask _ hstarted)
  have hends : Ends sampleServer sampleClock (taskIdOf 1) s .cancellation s' outbound := .cancellation hexec
  obtain ⟨released, response, ⟨at_, hreleased⟩, hresponse, hsame⟩ :=
    h _ log servers s s' .cancellation outbound key receipt dispatch hrun hnew hstored hends hreceipt hwaits hasks
  have hunfinished : Unfinished s.registry := by
    refine upheld_unfinished.run hrun (fun task hstarted => ?_) s hstored
    cases task with
    | call server clock asked => exact fit_of_trivial
    | new registry =>
      obtain ⟨_, hoperations⟩ := hnew registry hstarted
      exact unfinished_of_run hoperations
  have hsettled := hends.settled hunfinished
  obtain ⟨task', hget', hended⟩ := hsettled.task
  obtain ⟨actual, hactual⟩ := waiterAnswer_of_waiting Ending.cancellation.outcome hwaits
  obtain ⟨⟨_, hcompleted⟩, _⟩ := hsettled.receipts key receipt actual hreceipt hactual
  obtain ⟨id, hlater⟩ := hasks.response hget' hended.isTerminal
  cases hreleased.symm.trans hcompleted
  cases hresponse.symm.trans hlater
  exact (hended.sameUpToId_iff hactual id).mp hsame rfl

/-- After a result, they are the same. -/
theorem same_result_sample :
    let _ : Digest := sha256
    let _ : JsonSchema := Agent.emptySchema
    let _ : JsonReader := waitingReader
    ∃ s s' outbound released dispatch response, ∃ (key : String) (receipt : McpRequestReceipt),
      storedAfterAll none waiting = some s ∧
      Ends sampleServer sampleClock (taskIdOf 1) s (.result plainResult) s' outbound ∧
      s.receipts[key]? = some receipt ∧ ⟨receipt.connectionId, released⟩ ∈ outbound ∧
      Asks sampleServer sampleClock "connection" (some alice) (payloadOf (askForResult 5)) (taskIdOf 1) s' dispatch ∧
      dispatch.response = some response ∧ SameUpToId released response := by
  intro _ _ _
  obtain ⟨s, hs, hended⟩ := (Option.any_eq_true _ _).mp endsBy_sha256
  have hends := (Bool.and_eq_true_iff.mp hended).1
  obtain ⟨⟨key, receipt, hreceipt, hwaits⟩, outbound, s', hexec, hagain⟩ := exists_endsBy hends
  obtain ⟨dispatch, hasks⟩ := exists_asks hagain askForResult_ingress
  obtain ⟨log, servers, hrun, hstore, htask⟩ := exists_in_turn (.nil _) () waiting
  have hends : Ends sampleServer sampleClock (taskIdOf 1) s (.result plainResult) s' outbound := .result hexec
  obtain ⟨released, _, hsent, hlater⟩ := same_result_iff hrun
    (fun registry hstarted => newEcho_new (fun _ hmem => List.mem_append_left _ hmem) (htask _ hstarted))
    (hstore.trans hs) hends hreceipt hwaits
  obtain ⟨response, hresponse, hsame⟩ := hlater sampleServer sampleClock "connection" (some alice) _ s' dispatch rfl hasks
  exact ⟨s, s', outbound, released, dispatch, response, key, receipt, hs, hends, hreceipt, hsent, hasks, hresponse,
    hsame.mpr (by rintro ⟨⟩)⟩

end AikitRuntime.Mcp
