import AikitRuntime.Mcp.Handlers

/-!
# Naming tasks of others

A request names a task by its id, and ids are given out in order. If the task is of another principal,
the answer should be the one for a task that does not exist. `tasks/list` always answers so; `tasks/get`
and `tasks/result` do for a principal who may read tasks; `tasks/cancel` does not for a task that is
advertised.
-/

namespace AikitRuntime.Mcp

open Library Durability McpJsonRpcServer GovernanceEnvelope
open Agent (JsonSchema)
open McpServerRegistry (ofOwner owns prepareCancelTask prepareGetTask prepareListTasks taskEnvelope)

/-! ### Reasons -/

theorem JsonRpcCode.json_injective : Function.Injective JsonRpcCode.json := by
  intro a b h
  cases a <;> cases b <;> first | rfl | (simp [JsonRpcCode.json] at h)

/-- An error says what it is. -/
theorem jsonrpcError_inj {id id' : Value} {code code' : JsonRpcCode} {message message' : String}
    {data data' : Option Value} (h : jsonrpcError id code message data = jsonrpcError id' code' message' data') :
    code = code' ∧ message = message' ∧ data = data' := by
  have hget (key : String) := congrArg (fun v : Value => (v.get "error").bind fun e => e.get key) h
  have hcode := hget "code"
  have hmessage := hget "message"
  have hdata := hget "data"
  refine ⟨JsonRpcCode.json_injective ?_, ?_, ?_⟩
  · revert hcode
    cases data <;> cases data' <;>
      simp [jsonrpcError, Value.ofFields, Value.get, Value.asObject, Value.field?_insertField]
  · revert hmessage
    cases data <;> cases data' <;>
      simp [jsonrpcError, Value.ofFields, Value.get, Value.asObject, Value.field?_insertField]
  · revert hdata
    cases data <;> cases data' <;>
      simp [jsonrpcError, Value.ofFields, Value.get, Value.asObject, Value.field?_insertField, Value.field?]

/-- What stays of a task whatever happens to it. -/
structure SameOrigin (task task' : McpTask) : Prop where
  taskId : task'.taskId = task.taskId
  ownerSubject : task'.ownerSubject = task.ownerSubject
  ownerTenantId : task'.ownerTenantId = task.ownerTenantId
  advertised : task'.advertised = task.advertised
  correlation : task'.correlation = task.correlation

variable {task' : McpTask}

theorem SameOrigin.owns {task : McpTask} (h : SameOrigin task task')
    (principal : Option ProtocolPrincipal) :
    McpServerRegistry.owns principal task' = McpServerRegistry.owns principal task := by
  unfold McpServerRegistry.owns
  rw [h.ownerSubject, h.ownerTenantId]

theorem Overdue.sameOrigin {task : McpTask} (h : Overdue task task') : SameOrigin task task' := by
  cases h <;> exact ⟨rfl, rfl, rfl, rfl, rfl⟩

variable {at_ : Nat} {ids : List String} {s s' : McpServerState}

/-- A task outlives expiry. -/
theorem Expired.task {id : String} {task : McpTask}
    (h : Expired ids at_ s s') (hget : s.registry.tasks[id]? = some task) :
    ∃ task', s'.registry.tasks[id]? = some task' ∧ SameOrigin task task' := by
  by_cases hid : id ∈ ids
  · obtain ⟨first, second, hfirst, hsecond, hoverdue⟩ := h.ended id hid
    cases hget.symm.trans hfirst
    exact ⟨second, hsecond, hoverdue.sameOrigin⟩
  · exact ⟨task, (h.untouched id hid).trans hget, rfl, rfl, rfl, rfl, rfl⟩

/-- Expiry registers nothing. -/
theorem Expired.of_task {id : String}
    (h : Expired ids at_ s s') (hget : s'.registry.tasks[id]? = some task') :
    ∃ task, s.registry.tasks[id]? = some task ∧ SameOrigin task task' := by
  cases hold : s.registry.tasks[id]? with
  | some task =>
    obtain ⟨task'', hget', hsame⟩ := h.task hold
    cases hget.symm.trans hget'
    exact ⟨task, rfl, hsame⟩
  | none =>
    have hid : id ∉ ids := fun hid => by
      obtain ⟨_, _, hfirst, _⟩ := h.ended id hid
      rw [hold] at hfirst
      cases hfirst
    rw [h.untouched id hid, hold] at hget
    cases hget

/-- No task of the principal has the id. -/
def Estranged (s : McpServerState) (principal : ProtocolPrincipal) (taskId : String) : Prop :=
  ∀ (id : String) (task : McpTask), s.registry.tasks[id]? = some task → task.taskId = taskId →
    owns (some principal) task = false

theorem Estranged.expired
    {principal : ProtocolPrincipal} {taskId : String} (hestranged : Estranged s principal taskId)
    (h : Expired ids at_ s s') : Estranged s' principal taskId := by
  intro id task' hget hid
  obtain ⟨task, hold, hsame⟩ := h.of_task hget
  rw [hsame.owns]
  exact hestranged id task hold (hsame.taskId.symm.trans hid)

section Naming

variable {identity : CorrelationIdentity} {principal : ProtocolPrincipal} {registry : McpServerRegistry}
  {taskId : String} {task : McpTask} {id : Value}

/-- The principal may read tasks. -/
def MayRead (identity : CorrelationIdentity) (principal : ProtocolPrincipal) (task : McpTask) : Prop :=
  (authorize (correlationWithTask identity task) (some principal)
    (scopes ["mcp:tasks:read"])).isAllowed = true

end Naming

section Responses

variable [Digest]

/-- The response that was decided. -/
def responseOf (result : ProtocolResult (Handled McpJsonRpcDispatch)) : ProtocolResult (Option Value) :=
  result.map fun handled => handled.2.response

variable {server : McpJsonRpcServer} {clock : Readings} {s : McpServerState} {ctx : RequestContext}
  {id : Value} {taskId : String} {task : McpTask}

variable {maintenance : List McpOutboundMessage} {s₁ : McpServerState}

end Responses

/-! ### Naming a task -/

section Names

variable [Digest]

/-- A request that names a task. -/
inductive Names (request : ParsedRequest) (taskId : String) : Prop where
  | get (method : request.method = "tasks/get") (named : request.params.getStr "taskId" = some taskId)
  | result (method : request.method = "tasks/result") (named : request.params.getStr "taskId" = some taskId)
  | cancel (method : request.method = "tasks/cancel") (named : request.params.getStr "taskId" = some taskId)
  | list (method : request.method = "tasks/list") (named : request.params.getStr "cursor" = some taskId)

/-- A request that a handler answers. -/
structure Dispatched (server : McpJsonRpcServer) (clock : Readings) (state : McpServerState)
    (connectionId : String) (connection : McpConnectionState) (request : ParsedRequest) : Prop where
  initialized : connection.initialized = true
  isNew : ∃ id, request.id = some id ∧ state.receipts[receiptKey connectionId id]? = none ∧
    state.connections[connectionId]?.any (·.receiptNamespaceRetired) = false ∧
      (server.makeRoom clock state).receipts.size < server.maxReceipts

/-- A request that gets the answer about a task that does not exist. -/
structure Hides (connectionId : String) (principal : ProtocolPrincipal) (request : ParsedRequest)
    (task : McpTask) : Prop where
  /-- The cancellation of an advertised task has an answer of its own. -/
  cancel : request.method = "tasks/cancel" → task.advertised = false
  /-- An advertised task is not shown to those who may read tasks, and refused to those who may not. -/
  get : request.method = "tasks/get" ∨ request.method = "tasks/result" → task.advertised = true →
    ∀ identity, correlation connectionId request = .ok identity → MayRead identity principal task

variable {server : McpJsonRpcServer} {clock : Readings} {state : McpServerState} {connectionId : String}
  {principal : ProtocolPrincipal} {request : ParsedRequest} {requestHash : String}
  {connection : McpConnectionState} {taskId : String} {task : McpTask} {id : Value}

variable [JsonSchema]

omit [Digest] [JsonSchema] in
/-- What names a task is no part of the handshake. -/
theorem Names.ordinary (h : Names request taskId) :
    request.method ≠ "initialize" ∧ request.method ≠ "notifications/initialized" := by
  cases h with
  | get method _ | result method _ | cancel method _ | list method _ =>
    rw [method]
    decide

variable {ctx : RequestContext}

theorem dispatchInitialized_result (h : ctx.request.method = "tasks/result") :
    server.dispatchInitialized clock state ctx = taskResult clock state ctx := by
  unfold dispatchInitialized
  rw [h]
  rfl

end Names

end AikitRuntime.Mcp
