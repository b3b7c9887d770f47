import AikitRuntime.Mcp.Naming

/-!
# What else tells of tasks of others

Two answers that depend on tasks of other principals and are not about reading them. An approval names a
task, and the answer to it is never the one for a task that does not exist. `tools/call` names none, but
all principals share one capacity and one sequence of ids, and both are seen: the capacity where a call is
refused, the sequence where a new task is shown.
-/

namespace AikitRuntime.Mcp

open Library Durability McpJsonRpcServer McpServerRegistry CorrelationIdentity GovernanceEnvelope
open Agent (JsonSchema)

/-! ### Approvals -/

variable {error : ProtocolError}

section Approvals

variable {principal : Option ProtocolPrincipal} {task : McpTask} {taskId : String}
  {response : McpApprovalResponse} [Digest] [JsonSchema]

variable {clock : Readings} {s state other : McpServerState}

end Approvals

/-! ### Tasks on the wire -/

variable {task : McpTask}

variable {task' : McpTask}

/-- The response that shows a task. -/
def showing (id : Value) (task : McpTask) (metadata : Option McpTaskWireMetadata) : Value :=
  jsonrpcResult id (.ofFields [("task", taskWire task metadata)])

section Calls

variable [Digest] [JsonSchema]

variable {server : McpJsonRpcServer} {clock : Readings} {s other : McpServerState} {ctx : RequestContext}
  {id : Value} {call : CallParams} {identity : CorrelationIdentity}
  {owner : ProtocolPrincipal} {request : McpToolCallRequest} {tools : BTreeMap McpToolDefinition}

variable {tool : McpToolDefinition}

end Calls

end AikitRuntime.Mcp
