import AikitRuntime.Mcp.Numbering
import AikitRuntime.Mcp.ServerRuns

/-!
# Strangers

A principal on a connection of another one, and what a principal can do about tasks of another one. What
a stranger is answered would say nothing about the owner of the connection if requests were authorized
before they are looked up among the receipts. The tasks of others are left to time, whatever a principal
calls.
-/

namespace AikitRuntime.Mcp

open Library Durability McpJsonRpcServer McpServerRegistry
open Agent (JsonSchema)

/-! ### Connections of others -/

section Connections

variable [Digest]

variable {server : McpJsonRpcServer} {clock : Readings} {state : McpServerState} {connectionId : String}
  {principal : Option ProtocolPrincipal} {request : ParsedRequest} {requestHash : String}
  {connection : McpConnectionState}

variable {id : Value}

variable [JsonSchema]

end Connections

/-! ### What becomes of the tasks of others -/

/-- What time makes of a task. -/
inductive Fades : Option McpTask → Option McpTask → Prop where
  | same {task : Option McpTask} : Fades task task
  | expired {task : McpTask} (running : task.status.isTerminal = false) (revision : Nat) :
    Fades (some task) (some (expiredTask revision task))
  | collected {task : McpTask} (terminal : task.status.isTerminal = true) : Fades (some task) none

/-- What a decision lets through is about tasks of the principal that asks. -/
def OwnDecisionOf (principal : Option ProtocolPrincipal) (decision : Decision) : Prop :=
  ∀ action, decision.action = some action → ∃ owner, principal = some owner ∧ action.Own owner

/-- No task of the principal is registered under the id. -/
def NotOwned (s : McpServerState) (principal : Option ProtocolPrincipal) (taskId : String) : Prop :=
  ∀ task, s.registry.tasks[taskId]? = some task → owns principal task = false

theorem Expired.fades {ids : List String} {at_ : Nat} {s s' : McpServerState} (h : Expired ids at_ s s')
    (id : String) : Fades s.registry.tasks[id]? s'.registry.tasks[id]? := by
  by_cases hid : id ∈ ids
  · obtain ⟨first, second, hfirst, hsecond, hoverdue⟩ := h.ended id hid
    rw [hfirst, hsecond]
    cases hoverdue with
    | ended _ => exact .same
    | expired hrunning revision => exact .expired hrunning revision
  · rw [h.untouched id hid]
    exact .same

theorem expireFirst_fades {clock : Readings} {s s' : McpServerState} {maintenance : List McpOutboundMessage}
    (h : expireFirst clock s = .ok (s', maintenance)) :
    Expired (s.dueTasks clock.expiring) clock.expiring s s' := by
  obtain ⟨s₁, _, hrun, hexpired⟩ := expireDueTasks_spec s clock.expiringText clock.expiring
  cases hrun.symm.trans h
  exact hexpired

section Fading

variable [JsonSchema] [Digest]

variable {s : McpServerState}

/-- A task of another principal is not touched. -/
theorem TaskMove.get_foreign {principal : ProtocolPrincipal} {s' : McpServerState} {id : String}
    (h : TaskMove principal s s') (hforeign : NotOwned s (some principal) id)
    (hfresh : id ≠ taskIdOf s.registry.nextTaskSequence) :
    s'.registry.tasks[id]? = s.registry.tasks[id]? := by
  have hfate := h.tasks id
  generalize hold : s.registry.tasks[id]? = old at hfate
  generalize s'.registry.tasks[id]? = new at hfate
  cases hfate with
  | same => rfl
  | cancelling howned =>
    rw [hforeign _ hold] at howned
    cases howned
  | created hid => exact absurd hid hfresh

theorem Later.fades {clock : Readings} {principal : ProtocolPrincipal} {s s₁ s₂ : McpServerState}
    {maintenance : List McpOutboundMessage} {id : String} (h : Later clock s s₁ maintenance)
    (hmove : TaskMove principal s₁ s₂) (hforeign : NotOwned s (some principal) id)
    (hfresh : id ≠ taskIdOf s.registry.nextTaskSequence) :
    Fades s.registry.tasks[id]? s₂.registry.tasks[id]? := by
  cases h with
  | now =>
    rw [hmove.get_foreign hforeign hfresh]
    exact .same
  | expired hrun =>
    have hexpired := expireFirst_fades hrun
    rw [hmove.get_foreign (fun task hget => ?_) (by rw [hexpired.sequence]; exact hfresh)]
    · exact hexpired.fades id
    · obtain ⟨old, hold, hsame⟩ := hexpired.of_task hget
      rw [hsame.owns]
      exact hforeign old hold

/-- **A request leaves the tasks of others to time.** -/
theorem Served.fades {clock : Readings} {ctx : RequestContext} {s next : McpServerState}
    {dispatch : McpJsonRpcDispatch} {id : String} (h : Served clock ctx s (some next, dispatch))
    (hforeign : NotOwned s (some ctx.principal) id) (hfresh : id ≠ taskIdOf s.registry.nextTaskSequence) :
    Fades s.registry.tasks[id]? next.registry.tasks[id]? := by
  cases h with
  | cancelling _ later move _ => exact later.fades move hforeign hfresh
  | @receipted _ s₂ _ _ _ _ _ later move _ _ _ =>
    show Fades _ s₂.registry.tasks[id]?
    exact later.fades move hforeign hfresh

theorem Served.own {clock : Readings} {ctx : RequestContext}
    {handled : Handled McpJsonRpcDispatch} {decision : Decision} (h : Served clock ctx s handled)
    (hdecision : handled.2.governedAction = some decision) : OwnDecision ctx.principal decision := by
  cases h with
  | ignored _ => cases hdecision
  | refused _ => cases hdecision
  | unauthorized _ hown =>
    cases hdecision
    exact hown
  | cancelling _ _ _ hown =>
    cases hdecision
    exact hown
  | receipted _ _ _ _ _ hown => exact hown decision hdecision

end Fading

section Calls

variable [Digest] [JsonSchema] [JsonReader]

/-- The decisions that a reply hands over. -/
def Reply.made : Reply → List Decision
  | .dispatch answered => answered.governedAction.toList
  | .decisions made => made
  | .messages _ | .changed _ | .done => []

variable {server : McpJsonRpcServer} {clock : Readings} {stored : McpServerState}
  {principal : Option ProtocolPrincipal} {id : String}

/-- The tasks of others fade, and what is decided is about one's own. -/
structure KeptOut (stored : McpServerState) (principal : Option ProtocolPrincipal) (id : String)
    (result : ProtocolResult Reply × Option McpServerState) : Prop where
  stored : ∃ after, result.2 = some after ∧ Fades stored.registry.tasks[id]? after.registry.tasks[id]?
  made : ∀ reply, result.1 = .ok reply → ∀ decision ∈ reply.made, OwnDecisionOf principal decision

omit [Digest] [JsonSchema] [JsonReader] in
/-- A call that is refused. -/
theorem KeptOut.refused {error : ProtocolError} :
    KeptOut stored principal id (.error error, some stored) := by
  refine ⟨⟨stored, rfl, .same⟩, ?_⟩
  rintro _ ⟨⟩

variable {connectionId : String}

variable {taskId : String}

variable {task : McpTask}

omit [Digest] [JsonSchema] [JsonReader] in
/-- The owner of a task that is registered is not who asks. -/
theorem NotOwned.ne {s : McpServerState} (h : NotOwned s principal id)
    (hget : s.registry.tasks[taskId]? = some task)
    (howned : owns principal task = true) : taskId ≠ id := by
  rintro rfl
  rw [h task hget] at howned
  cases howned

variable {registry : McpServerRegistry}

variable {decisions : List Decision} {ids : List String}

variable {asking : ProtocolPrincipal}

end Calls

/-! ### Kept apart -/

section Apart

variable [Digest] [JsonSchema] [JsonReader] {server : McpJsonRpcServer} {clock : Readings}
  {stored : McpServerState}

omit [Digest] [JsonSchema] [JsonReader] in
/-- A connection stays with its principal. -/
theorem Kept.connection {base : McpServerState} {connectionId : String} {connection : McpConnectionState}
    (h : Kept stored base) (hconnection : stored.connections[connectionId]? = some connection) :
    ∃ retired, base.connections[connectionId]? =
      some { connection with receiptNamespaceRetired := retired } := by
  rcases h with rfl | ⟨collected, hcollected, rfl⟩
  · exact ⟨_, hconnection⟩
  · obtain ⟨retire, hretire⟩ := hcollected.connections connectionId
    rw [hconnection] at hretire
    exact ⟨_, hretire⟩

end Apart

/-! ### Samples -/

end AikitRuntime.Mcp
