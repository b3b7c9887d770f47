import AikitRuntime.Agent.Run
import AikitRuntime.Mcp.RegistryRuns

/-!
# Contracts and approvals

A tool that a host invokes for a task is the tool that the owner asked for. If it requires an approval,
or is no longer what it was when the task came to be, the owner approved it as it is.

The ids of the tasks are numbered by a `u64`, and a definition is told from the one before it by its
hash. As long as the numbers last and no two definitions that follow one another have one hash, every
operation is careful: its new task has an id that is not in use.
-/

namespace AikitRuntime.Mcp

open Library Durability
open Agent (JsonSchema)

/-! ### Who is let through -/

/-- The task that an action is about, unless it only shows something. -/
def McpServerAction.task : McpServerAction → Option McpTask
  | .invokeTool task | .awaitApproval task _ | .cancelTask task | .approvalDenied task => some task
  | .listTools _ | .listResources _ | .readResource _ | .listPrompts _ | .renderPrompt _ _
  | .getTask _ | .listTasks _ => none

section Callers

variable {principal : ProtocolPrincipal} {task : McpTask}

/-- What is issued is an action, to the principal that asks. -/
theorem issuedTo_eq_some {caller : Caller} {decision : Decision} {action : McpServerAction}
    (h : RegistryOp.issues.issuedTo caller decision = some (principal, action)) :
    caller.principal = some principal ∧ decision.action = some action := by
  unfold RegistryOp.issues.issuedTo at h
  rw [Option.bind_eq_some_iff] at h
  obtain ⟨owner, howner, h⟩ := h
  rw [Option.map_eq_some_iff] at h
  obtain ⟨issued, haction, heq⟩ := h
  cases heq
  exact ⟨howner, haction⟩

/-- The principal that an envelope lets through has the scopes. -/
theorem allows_of_evaluate {correlation : CorrelationIdentity} {operation target : String}
    {required : BTreeSet} (h : (GovernanceEnvelope.evaluate correlation (some principal) operation target
      required).authorization.isAllowed = true) : principal.allows required = true := by
  obtain ⟨owner, howner, _, hallows⟩ := GovernanceEnvelope.isAllowed_evaluate h
  cases howner
  exact hallows

/-- An envelope that an owner is let through by. -/
theorem isAllowed_ofOwner {envelope : GovernanceEnvelope}
    (h : (McpServerRegistry.ofOwner (some principal) envelope task).authorization.isAllowed = true) :
    envelope.authorization.isAllowed = true ∧
      principal.matchesIdentity task.ownerSubject task.ownerTenantId = true := by
  unfold McpServerRegistry.ofOwner at h
  split at h
  · cases h
  · next hdenied =>
    refine ⟨h, ?_⟩
    rw [h] at hdenied
    simpa [McpServerRegistry.owns] using hdenied

end Callers

section

variable [JsonSchema] [Digest]

/-! ### Logs -/

section Logs

variable {log : List RegistryEntry} {e : RegistryEntry} {taskId name : String}

/-- A challenge that was offered for what the tool has been since. -/
def Offered (log : List RegistryEntry) (taskId name : String) (challenge : McpApprovalChallenge) : Prop :=
  ∃ before offer after, log = before ++ offer :: after ∧ offer.Offers taskId challenge ∧
    ∀ e ∈ after, ¬ e.Changes name

omit [JsonSchema] [Digest] in
/-- What holds of the entries so far and of one more. -/
theorem forall_mem_concat {P : RegistryEntry → Prop} (h : ∀ e ∈ log, P e) (he : P e) :
    ∀ e' ∈ log ++ [e], P e' := by
  intro e' he'
  rcases List.mem_append.mp he' with he' | he'
  · exact h e' he'
  · rwa [List.mem_singleton.mp he']

variable {challenge : McpApprovalChallenge}

theorem Offered.concat (h : Offered log taskId name challenge)
    (he : ¬ e.Changes name) : Offered (log ++ [e]) taskId name challenge := by
  obtain ⟨before, offer, after, rfl, hoffer, hafter⟩ := h
  exact ⟨before, offer, after ++ [e], by simp, hoffer, forall_mem_concat hafter he⟩

theorem Approved.concat (h : Approved log taskId name) (he : ¬ e.Changes name) :
    Approved (log ++ [e]) taskId name := by
  obtain ⟨before, offer, between, approval, after, challenge, rfl, hoffer, happroval, hsince⟩ := h
  refine ⟨before, offer, between, approval, after ++ [e], challenge, by simp, hoffer, happroval, ?_⟩
  have heq : between ++ approval :: (after ++ [e]) = between ++ approval :: after ++ [e] := by simp
  rw [heq]
  exact forall_mem_concat hsince he

theorem Unchanged.concat (h : Unchanged log taskId name) (hcreates : ¬ e.Creates taskId)
    (he : ¬ e.Changes name) : Unchanged (log ++ [e]) taskId name := by
  obtain ⟨before, creation, after, rfl, hcreation, hafter⟩ := h
  exact ⟨before, creation, after ++ [e], by simp, hcreation, forall_mem_concat hafter ⟨hcreates, he⟩⟩

/-- An approval of a challenge that was offered. -/
theorem Offered.approved (h : Offered log taskId name challenge)
    (he : e.Approves taskId challenge) (hchanges : ¬ e.Changes name) :
    Approved (log ++ [e]) taskId name := by
  obtain ⟨before, offer, after, rfl, hoffer, hafter⟩ := h
  exact ⟨before, offer, after, e, [], challenge, by simp, hoffer, he, forall_mem_concat hafter hchanges⟩

end Logs

/-! ### The account -/

/-- The scopes that a call of a tool requires. -/
def toolScopes (tool : McpToolDefinition) : BTreeSet :=
  (scopes ["mcp:tools:call"]).extend tool.requiredScopes.elements

/-- A task that is not over, under the contract of its tool. -/
structure UnderContract (log : List RegistryEntry) (taskId : String) (task : McpTask)
    (tool : McpToolDefinition) : Prop where
  hash : task.definitionHash = tool.definitionHash
  scopes : task.requiredScopes = toolScopes tool
  offered : ∀ challenge, task.pendingApproval = some challenge →
    Offered log taskId task.operation.name challenge
  approved : task.status = .working → Approved log taskId task.operation.name ∨
    tool.requiresApproval = false ∧ Unchanged log taskId task.operation.name

/-- The account of a run. -/
structure Standing (log : List RegistryEntry) (reg : McpServerRegistry) : Prop where
  tool : ∀ (name : String) (tool : McpToolDefinition), reg.tools[name]? = some tool →
    tool.name = name ∧ tool.validate = .ok ()
  taskId : ∀ (id : String) (task : McpTask), reg.tasks[id]? = some task → task.taskId = id
  settled : ∀ (id : String) (task : McpTask), reg.tasks[id]? = some task →
    task.status.isTerminal = true → task.cancellation = none
  contract : ∀ (id : String) (task : McpTask), reg.tasks[id]? = some task →
    task.status.isTerminal = false →
      ∃ tool, reg.tools[task.operation.name]? = some tool ∧ UnderContract log id task tool

/-- A definition that replaces another one has another hash. -/
def RegistryOp.Distinguishes (reg : McpServerRegistry) : RegistryOp → Prop
  | .upsertTool tool => ∀ existing, reg.tools[tool.name]? = some existing →
    existing.definitionHash = tool.definitionHash → existing = tool
  | _ => True

/-- A new task has a new id, and a new definition has a new hash. -/
def RegistryEntry.Careful (e : RegistryEntry) : Prop := e.op.Fresh e.before ∧ e.op.Distinguishes e.before

theorem Standing.new : Standing [] .new where
  tool _ _ h := by simp [McpServerRegistry.new] at h
  taskId _ _ h := by simp [McpServerRegistry.new] at h
  settled _ _ h := by simp [McpServerRegistry.new] at h
  contract _ _ h := by simp [McpServerRegistry.new] at h

section Step

variable {log : List RegistryEntry} {e : RegistryEntry} {id : String} {task : McpTask}

/-- A new task. -/
theorem UnderContract.created {request : McpToolCallRequest} {caller : Caller} {tool : McpToolDefinition}
    {owner : ProtocolPrincipal}
    (htask : task = e.before.newTask tool request (e.before.newTaskCorrelation caller.correlation) owner
      (toolScopes tool)) (hcreates : e.Creates id) (hafter : e.after.tasks[id]? = some task) :
    UnderContract (log ++ [e]) id task tool where
  hash := by rw [htask]; rfl
  scopes := by rw [htask]; rfl
  offered challenge hpending :=
    ⟨log, e, [], rfl, ⟨task, hafter, hpending, .inl hcreates⟩, fun _ h => absurd h List.not_mem_nil⟩
  approved hworking := by
    refine .inr ⟨?_, log, e, [], rfl, hcreates, fun _ h => absurd h List.not_mem_nil⟩
    rw [htask] at hworking
    unfold McpServerRegistry.newTask at hworking
    dsimp only at hworking
    split at hworking
    · cases hworking
    · next hfree => exact Bool.eq_false_iff.mpr hfree

variable {task' : McpTask} {tool : McpToolDefinition}

/-- A task that keeps its standing, under a contract that stays as it is. -/
theorem UnderContract.continued
    (h : UnderContract log id task tool) (hsame : SameStanding task task') (hcreates : ¬ e.Creates id)
    (hchanges : ¬ e.Changes task.operation.name) : UnderContract (log ++ [e]) id task' tool where
  hash := hsame.definitionHash.trans h.hash
  scopes := hsame.requiredScopes.trans h.scopes
  offered challenge hpending := by
    rw [hsame.pendingApproval] at hpending
    rw [hsame.operation]
    exact (h.offered challenge hpending).concat hchanges
  approved hworking := by
    rw [hsame.status] at hworking
    rw [hsame.operation]
    exact (h.approved hworking).imp (·.concat hchanges) fun ⟨hfree, hunchanged⟩ =>
      ⟨hfree, hunchanged.concat hcreates hchanges⟩

/-- A task whose contract changed. -/
theorem UnderContract.renewed {revision : Nat}
    (hrunning : task.status.isTerminal = false) (hnamed : task.operation.name = tool.name)
    (hdiffers : task.definitionHash ≠ tool.definitionHash) (hchanges : e.Changes tool.name)
    (hafter : e.after.tasks[id]? = some (McpServerRegistry.underNewContract tool revision task)) :
    UnderContract (log ++ [e]) id (McpServerRegistry.underNewContract tool revision task) tool := by
  have hcond : ¬ (task.operation.name ≠ tool.name ∨ task.status.isTerminal = true ∨
      task.definitionHash = tool.definitionHash) := by
    rw [hrunning]
    simp [hnamed, hdiffers]
  have hnew : McpServerRegistry.underNewContract tool revision task = _ := if_neg hcond
  rw [hnew] at hafter ⊢
  refine ⟨rfl, rfl, fun challenge hpending => ?_, nofun⟩
  refine ⟨log, e, [], rfl, ⟨_, hafter, hpending, .inr ?_⟩, fun _ h => absurd h List.not_mem_nil⟩
  rw [hnamed]
  exact hchanges

/-- A task that its owner approved. -/
theorem UnderContract.resumed {response : McpApprovalResponse}
    {caller : Caller} {revision : Nat} (h : UnderContract log id task tool)
    (hop : e.op = .resumeApproval id response caller) (hget : e.before.tasks[id]? = some task)
    (haccepted : Accepts e.before id task response caller) (hchanges : ¬ e.Changes task.operation.name) :
    UnderContract (log ++ [e]) id
      { task with
        status := .working
        pendingApproval := none
        statusMessage := none
        updatedRevision := revision } tool := by
  obtain ⟨challenge, hpending, hid⟩ := haccepted.answerable.challenge
  refine ⟨h.hash, h.scopes, nofun, fun _ => .inl ?_⟩
  exact (h.offered challenge hpending).approved ⟨response, caller, task, hop, haccepted.approved, hget,
    hpending, hid.symm, haccepted.answerable.owned⟩ hchanges

/-- An operation that installs no contract leaves the tool of a task as it is. -/
theorem Standing.tool_kept (h : ∀ new, e.op ≠ .upsertTool new)
    (htool : e.before.tools[task.operation.name]? = some tool) :
    e.after.tools[task.operation.name]? = some tool ∧ ¬ e.Changes task.operation.name := by
  rcases RegistryOp.tools_step e.before e.op task.operation.name with
    hsame | ⟨new, _, _, _, hnone | ⟨hop, _⟩⟩
  · exact ⟨hsame.trans htool, fun hchanges => hchanges hsame⟩
  · rw [htool] at hnone
    cases hnone
  · exact absurd hop (h new)

/-- What a new contract makes of a task that is not over. -/
theorem Standing.contract_upsert {new : McpToolDefinition} (h : Standing log e.before)
    (hop : e.op = .upsertTool new) (hcareful : e.Careful) (hget : e.before.tasks[id]? = some task) (hafter : e.after.tasks[id]? = some task') (hrunning : task'.status.isTerminal = false) :
    ∃ tool, e.after.tools[task'.operation.name]? = some tool ∧
      UnderContract (log ++ [e]) id task' tool := by
  have hcreates : ¬ e.Creates id := by
    rintro ⟨hnone, _⟩
    rw [hget] at hnone
    cases hnone
  have hkept (heq : task' = task) (hsame : e.after.tools[task.operation.name]? =
      e.before.tools[task.operation.name]?) : ∃ tool, e.after.tools[task'.operation.name]? = some tool ∧
        UnderContract (log ++ [e]) id task' tool := by
    subst heq
    obtain ⟨tool, htool, hunder⟩ := h.contract id task' hget hrunning
    exact ⟨tool, hsame.trans htool, hunder.continued ⟨rfl, rfl, rfl, rfl, rfl, rfl⟩ hcreates
      fun hchanges => hchanges hsame⟩
  rcases RegistryOp.upsertTool_cases e.before new with hreg | ⟨_, hdiffers, hreg⟩
  · have hsame : e.after = e.before := by rw [RegistryEntry.after, hop, hreg]
    rw [hsame, hget, Option.some.injEq] at hafter
    exact hkept hafter.symm (by rw [hsame])
  · have hrenewed : e.after = RegistryOp.renewed e.before new := by rw [RegistryEntry.after, hop, hreg]
    have htask := hafter
    rw [hrenewed, RegistryOp.get_renewed, hget, Option.map_some, Option.some.injEq] at htask
    have htools (name : String) : e.after.tools[name]? =
        if new.name = name then some new else e.before.tools[name]? := by
      rw [hrenewed]
      exact BTreeMap.get_insert
    by_cases hcond : task.operation.name ≠ new.name ∨ task.status.isTerminal = true ∨
        task.definitionHash = new.definitionHash
    · have heq : task' = task := htask.symm.trans (if_pos hcond)
      refine hkept heq ?_
      rw [htools, if_neg]
      intro hname
      -- The definition that the task is under would have the hash of the one that replaces it.
      rw [heq] at hrunning
      obtain ⟨tool, htool, hunder⟩ := h.contract id task hget hrunning
      have hhash : task.definitionHash = new.definitionHash := by
        rcases hcond with hother | hover | hhash
        · exact absurd hname.symm hother
        · rw [hrunning] at hover
          cases hover
        · exact hhash
      have hdistinguishes := hcareful.2
      rw [hop] at hdistinguishes
      rw [← hname] at htool
      rw [hdistinguishes tool htool (hunder.hash.symm.trans hhash)] at htool
      exact hdiffers htool
    · rw [not_or, not_or, Classical.not_not, Bool.not_eq_true] at hcond
      have hchanges : e.Changes new.name := by
        intro hsame
        rw [htools, if_pos rfl] at hsame
        exact hdiffers hsame.symm
      rw [← htask] at hafter ⊢
      have hname : (McpServerRegistry.underNewContract new (RegistryOp.renewed e.before new).revision
          task).operation.name = new.name := by
        rw [RegistryOp.operation_underNewContract, hcond.1]
      refine ⟨new, ?_, .renewed hcond.2.1 hcond.1 hcond.2.2 hchanges hafter⟩
      rw [hname, htools, if_pos rfl]

/-- What a careful operation makes of a task that is not over. -/
theorem Standing.contract_step (h : Standing log e.before) (hcareful : e.Careful)
    (hget : e.before.tasks[id]? = some task) (hafter : e.after.tasks[id]? = some task')
    (hrunning : task'.status.isTerminal = false) :
    ∃ tool, e.after.tools[task'.operation.name]? = some tool ∧
      UnderContract (log ++ [e]) id task' tool := by
  by_cases hupsert : ∃ new, e.op = .upsertTool new
  · obtain ⟨new, hop⟩ := hupsert
    exact h.contract_upsert hop hcareful hget hafter hrunning
  have hother : ∀ new, e.op ≠ .upsertTool new := fun new hop => hupsert ⟨new, hop⟩
  have hcreates : ¬ e.Creates id := by
    rintro ⟨hnone, _⟩
    rw [hget] at hnone
    cases hnone
  have hstep : TaskStep e.before id task e.op (some task') := by
    rw [← hafter]
    exact RegistryOp.task_step hget hcareful.1
  have htool (hrunning : task.status.isTerminal = false) : ∃ tool,
      e.after.tools[task.operation.name]? = some tool ∧ UnderContract log id task tool ∧
        ¬ e.Changes task.operation.name := by
    obtain ⟨tool, htool, hunder⟩ := h.contract id task hget hrunning
    obtain ⟨hafter, hchanges⟩ := Standing.tool_kept hother htool
    exact ⟨tool, hafter, hunder, hchanges⟩
  generalize hop : e.op = op at hstep
  cases hstep with
  | kept =>
    obtain ⟨tool, hafter, hunder, hchanges⟩ := htool hrunning
    exact ⟨tool, hafter, hunder.continued ⟨rfl, rfl, rfl, rfl, rfl, rfl⟩ hcreates hchanges⟩
  | continued hrunning hsame =>
    obtain ⟨tool, hafter, hunder, hchanges⟩ := htool hrunning
    rw [hsame.operation]
    exact ⟨tool, hafter, hunder.continued hsame hcreates hchanges⟩
  | ended _ hover _ _ =>
    rw [hrunning] at hover
    cases hover
  | renewed _ _ _ => exact absurd hop (hother _)
  | resumed haccepted =>
    have hawaits : task.status.isTerminal = false := by
      rw [haccepted.answerable.awaits]
      rfl
    obtain ⟨tool, hafter, hunder, hchanges⟩ := htool hawaits
    exact ⟨tool, hafter, hunder.resumed hop hget haccepted hchanges⟩

/-- **Every careful operation keeps the account.** -/
theorem Standing.step (h : Standing log e.before) (hcareful : e.Careful) :
    Standing (log ++ [e]) e.after := by
  have hcreated {id : String} {task : McpTask} (hget : e.before.tasks[id]? = none)
      (hafter : e.after.tasks[id]? = some task) : task.taskId = id ∧ task.cancellation = none ∧
        ∃ tool, e.after.tools[task.operation.name]? = some tool ∧
          UnderContract (log ++ [e]) id task tool := by
    obtain ⟨request, caller, tool, owner, hop, hid, htool, htask, _⟩ := RegistryOp.created_step hget hafter
    have hname : tool.name = request.name := (h.tool _ _ htool).1
    rw [htask] at hafter ⊢
    refine ⟨hid.symm, rfl, tool, ?_, .created rfl ⟨hget, _, hafter⟩ hafter⟩
    refine (Standing.tool_kept (fun new hnew => ?_) ?_).1
    · rw [hop] at hnew
      cases hnew
    · show e.before.tools[tool.name]? = some tool
      rw [hname]
      exact htool
  constructor
  · intro name tool htool
    rcases RegistryOp.tools_step e.before e.op name with
      hsame | ⟨new, hname, hvalid, hnew, _⟩
    · exact h.tool name tool (hsame.symm.trans htool)
    · cases hnew.symm.trans htool
      exact ⟨hname, hvalid⟩
  · intro id task' hafter
    cases hget : e.before.tasks[id]? with
    | none => exact (hcreated hget hafter).1
    | some task =>
      have hid := h.taskId id task hget
      have hstep : TaskStep e.before id task e.op (some task') := hafter ▸ RegistryOp.task_step hget hcareful.1
      generalize e.op = op at hstep
      cases hstep with
      | kept => exact hid
      | continued _ hsame => exact hsame.taskId.trans hid
      | ended _ _ hkey _ => exact hkey.trans hid
      | renewed _ _ _ => exact RegistryOp.taskId_underNewContract.trans hid
      | resumed _ => exact hid
  · intro id task' hafter hover
    cases hget : e.before.tasks[id]? with
    | none => exact (hcreated hget hafter).2.1
    | some task =>
      have hsettled := h.settled id task hget
      have hstep : TaskStep e.before id task e.op (some task') := hafter ▸ RegistryOp.task_step hget hcareful.1
      generalize e.op = op at hstep
      cases hstep with
      | kept => exact hsettled hover
      | continued hrunning hsame =>
        rw [hsame.status, hrunning] at hover
        cases hover
      | ended _ _ _ hnone => exact hnone
      | renewed hrunning hnamed hdiffers =>
        rw [RegistryOp.status_underNewContract hrunning hnamed hdiffers] at hover
        cases hover
      | resumed _ => cases hover
  · intro id task' hafter hrunning
    cases hget : e.before.tasks[id]? with
    | none => exact (hcreated hget hafter).2.2
    | some task => exact h.contract_step hcareful hget hafter hrunning

end Step

/-! ### Invocations -/

/-- The arguments match the input schema of a tool. -/
def ValidArguments (tool : McpToolDefinition) (arguments : Value) : Prop :=
  ∃ validator, JsonSchema.validatorFor tool.inputSchema = .ok validator ∧ validator arguments = .ok ()

/-- A task that a principal may have invoked, as far as a single registry says. -/
structure Invocable (reg : McpServerRegistry) (principal : ProtocolPrincipal) (task : McpTask) : Prop where
  registered : reg.tasks[task.taskId]? = some task
  working : task.status = .working
  notCancelled : task.cancellation = none
  owner : principal.matchesIdentity task.ownerSubject task.ownerTenantId = true
  scopes : principal.allows task.requiredScopes = true
  arguments : ∃ tool, reg.tools[task.operation.name]? = some tool ∧
    ValidArguments tool task.operation.arguments

section Invocations

variable {reg : McpServerRegistry} {principal : ProtocolPrincipal} {task : McpTask}

omit [Digest] in
/-- A tool of a registry compiles its schema, so what has no input error matches it. -/
theorem validArguments_of_inputError {name : String} {arguments : Value} {tool : McpToolDefinition}
    (htool : reg.tools[name]? = some tool) (hvalid : tool.validate = .ok ())
    (h : reg.inputError name arguments = none) : ValidArguments tool arguments := by
  simp only [McpToolDefinition.validate, bind_eq_ok, exists_unit] at hvalid
  obtain ⟨_, _, validator, hcompiled, _⟩ := hvalid
  unfold McpServerRegistry.inputError at h
  rw [htool, Option.bind_some] at h
  cases hvalidator : JsonSchema.validatorFor tool.inputSchema with
  | error error =>
    rw [hvalidator] at hcompiled
    cases hcompiled
  | ok validator =>
    rw [hvalidator] at h
    dsimp only at h
    cases hchecked : validator arguments with
    | error error =>
      rw [hchecked] at h
      cases h
    | ok u => exact ⟨validator, hvalidator, hchecked⟩

/-- What `validate_task_contract` checks. -/
theorem validArguments_of_contract (h : reg.validateTaskContract task = .ok ()) :
    ∃ tool, reg.tools[task.operation.name]? = some tool ∧ tool.definitionHash = task.definitionHash ∧
      ValidArguments tool task.operation.arguments := by
  unfold McpServerRegistry.validateTaskContract at h
  dsimp only at h
  simp only [bind_eq_ok, okOr_eq_ok, refuseIf_eq_ok, exists_unit, Classical.not_not] at h
  obtain ⟨tool, htool, hhash, validator, hcompiled, hchecked⟩ := h
  rw [mapError_eq_ok] at hcompiled hchecked
  exact ⟨tool, htool, hhash, validator, hcompiled, hchecked⟩

variable {action : McpServerAction} {caller : Caller}

/-- What a query answers, other than a recovery, only shows something. -/
theorem shows_of_query {asked : RegistryQuery}
    (hasked : ∀ id, asked ≠ .recoverTask id) (h : (asked.answer reg caller).action = some action) :
    action.task = none := by
  cases asked with
  | listTools | listResources | listPrompts | listTasks =>
    obtain ⟨_, rfl⟩ := GovernedAction.action_fromEnvelope.mp h
    rfl
  | readResource uri =>
    unfold RegistryQuery.answer McpServerRegistry.prepareReadResource at h
    dsimp only at h
    split at h
    · cases h
    · obtain ⟨_, rfl⟩ := GovernedAction.action_fromEnvelope.mp h
      rfl
  | renderPrompt name arguments =>
    unfold RegistryQuery.answer McpServerRegistry.prepareRenderPrompt at h
    dsimp only at h
    split at h
    · cases h
    · obtain ⟨_, rfl⟩ := GovernedAction.action_fromEnvelope.mp h
      rfl
  | getTask id =>
    unfold RegistryQuery.answer McpServerRegistry.prepareGetTask at h
    dsimp only at h
    split at h
    · cases h
    · obtain ⟨_, rfl⟩ := GovernedAction.action_fromEnvelope.mp h
      rfl
  | recoverTask id => exact absurd rfl (hasked id)

/-- The invocation that a call issues. -/
theorem invocable_of_call {request : McpToolCallRequest}
    (htools : ∀ tool, reg.tools[request.name]? = some tool →
      tool.name = request.name ∧ tool.validate = .ok ())
    (hissues : (RegistryOp.callTool request caller).issues reg = some (principal, .invokeTool task)) :
    Invocable ((RegistryOp.callTool request caller).apply reg) principal task := by
  replace hissues : (if (reg.inputError request.name request.arguments).isSome then none else
    RegistryOp.issues.issuedTo caller
      (reg.prepareToolCall caller.correlation caller.principal request).2) = _ := hissues
  split at hissues
  · cases hissues
  next herror =>
  obtain ⟨hprincipal, haction⟩ := issuedTo_eq_some hissues
  rcases callTool_cases reg caller.correlation caller.principal
    request with ⟨_, hnone⟩ | ⟨tool, owner, new, htool, howner, hallowed, rfl, hreg, hissued⟩
  · rw [hnone] at haction
    cases haction
  obtain ⟨hname, hvalid⟩ := htools tool htool
  cases hprincipal.symm.trans howner
  rw [hprincipal] at hallowed
  rw [hissued, Option.some.injEq] at haction
  unfold McpServerRegistry.newTaskAction at haction
  split at haction
  · cases haction
  next hpending =>
  cases haction
  have hfree : tool.requiresApproval = false := by
    by_contra hrequires
    rw [Bool.not_eq_false] at hrequires
    simp [McpServerRegistry.newTask, hrequires] at hpending
  rw [RegistryOp.apply, hreg]
  refine ⟨BTreeMap.get_insert_self, ?_, rfl, ?_, allows_of_evaluate hallowed, tool, ?_, ?_⟩
  · simp [McpServerRegistry.newTask, hfree]
  · simp [McpServerRegistry.newTask, ProtocolPrincipal.matchesIdentity]
  · show reg.tools[tool.name]? = some tool
    rw [hname, htool]
  · have hmatches : reg.inputError request.name request.arguments = none := by simpa using herror
    exact validArguments_of_inputError htool hvalid hmatches

variable {id : String}

/-- The invocation that an approval issues. -/
theorem invocable_of_approval {response : McpApprovalResponse}
    (hnamed : ∀ existing, reg.tasks[id]? = some existing → existing.taskId = id)
    (hissues : (RegistryOp.resumeApproval id response caller).issues reg =
      some (principal, .invokeTool task)) :
    Invocable ((RegistryOp.resumeApproval id response caller).apply reg) principal task := by
  obtain ⟨hprincipal, haction⟩ := issuedTo_eq_some hissues
  rcases resumeApproval_cases reg caller.correlation caller.principal id response with ⟨_, hnone⟩ |
      ⟨existing, hid, hauthorized, hanswerable, hreg, hissued⟩
  · rw [hnone] at haction
    cases haction
  rw [hprincipal] at hauthorized hanswerable
  rw [hissued, Option.some.injEq] at haction
  dsimp only at haction
  split at haction
  swap
  · cases haction
  next hworking =>
  cases haction
  have hkey := hnamed existing hid
  have howned := hanswerable.owned
  have hscopes := allows_of_evaluate hauthorized
  rw [RegistryOp.apply, hreg]
  -- Only an approved task under its contract goes on.
  have hresumed : response.approved = true ∧ reg.validateTaskContract existing = .ok () := by
    unfold McpServerRegistry.resumed at hworking
    split at hworking
    · next happroved =>
      split at hworking
      · cases hworking
      · next hcontract => exact ⟨happroved, hcontract⟩
    · cases hworking
  obtain ⟨tool, htool, _, hvalid⟩ := validArguments_of_contract hresumed.2
  have htask : reg.resumed existing response.approved =
      { existing with status := .working, pendingApproval := none, statusMessage := none } := by
    unfold McpServerRegistry.resumed
    rw [hresumed.1, if_pos rfl, hresumed.2]
  rw [htask]
  refine ⟨?_, rfl, hanswerable.notCancelled, by simpa [McpServerRegistry.owns] using howned, hscopes, tool,
    htool, hvalid⟩
  rw [McpServerRegistry.get_updateTask, if_pos hkey.symm]

/-- The invocation that a recovery issues. -/
theorem invocable_of_recovery
    (hnamed : ∀ existing, reg.tasks[id]? = some existing → existing.taskId = id)
    (hissues : RegistryOp.issues.issuedTo caller
      (reg.prepareRecoverTask caller.correlation caller.principal id) = some (principal, .invokeTool task)) :
    Invocable reg principal task := by
  obtain ⟨hprincipal, haction⟩ := issuedTo_eq_some hissues
  unfold McpServerRegistry.prepareRecoverTask at haction
  cases hid : reg.tasks[id]? with
  | none =>
    rw [hid] at haction
    cases haction
  | some existing =>
    rw [hid] at haction
    dsimp only at haction
    cases hrecovery : reg.recoveryAction existing with
    | error reason =>
      rw [hrecovery] at haction
      cases haction
    | ok action =>
      rw [hrecovery] at haction
      obtain ⟨hallowed, rfl⟩ := GovernedAction.action_fromEnvelope.mp haction
      rw [hprincipal] at hallowed
      obtain ⟨hevaluated, howner⟩ := isAllowed_ofOwner hallowed
      unfold McpServerRegistry.recoveryAction at hrecovery
      split at hrecovery
      · cases hrecovery
      next hcancel =>
      split at hrecovery
      · next hworking =>
        split at hrecovery
        · next hcontract =>
          cases hrecovery
          have hok : reg.validateTaskContract task = .ok () := by
            cases hresult : reg.validateTaskContract task with
            | error error =>
              rw [hresult] at hcontract
              cases hcontract
            | ok u => rfl
          obtain ⟨tool, htool, _, hvalid⟩ := validArguments_of_contract hok
          refine ⟨by rw [hnamed _ hid, hid], hworking, by simpa using hcancel, howner,
            allows_of_evaluate hevaluated, tool, htool, hvalid⟩
        · cases hrecovery
      · split at hrecovery <;> cases hrecovery
      · cases hrecovery

variable {log : List RegistryEntry} {e : RegistryEntry}

/-- **An invocation that an operation issues** is one that its principal may make. -/
theorem Standing.invocable (h : Standing log e.before)
    (hissues : e.op.issues e.before = some (principal, .invokeTool task)) :
    Invocable e.after principal task := by
  obtain ⟨before, op⟩ := e
  have hnamed (id : String) := h.taskId id
  cases op with
  | registerTool tool => cases hissues
  | upsertTool tool => cases hissues
  | registerResource resource => cases hissues
  | registerPrompt prompt => cases hissues
  | report id told => cases hissues
  | callTool request caller => exact invocable_of_call (h.tool request.name) hissues
  | resumeApproval id response caller => exact invocable_of_approval (hnamed id) hissues
  | cancelTask id caller =>
    obtain ⟨_, haction⟩ := issuedTo_eq_some hissues
    rcases cancelTask_cases before caller.correlation caller.principal id with ⟨_, hnone⟩ | ⟨_, _, _, _, _, hissued⟩
    · cases hnone.symm.trans haction
    · cases hissued.symm.trans haction
  | query asked caller =>
    by_cases hrecovery : ∃ id, asked = .recoverTask id
    · obtain ⟨id, rfl⟩ := hrecovery
      exact invocable_of_recovery (hnamed id) hissues
    · have hshows := shows_of_query (fun id heq => hrecovery ⟨id, heq⟩) (issuedTo_eq_some hissues).2
      cases hshows

/-- **A task that ended** stays as it is until it is collected. -/
theorem Standing.over_stays (hfresh : e.op.Fresh e.before)
    (hget : e.before.tasks[id]? = some task) (hover : task.status.isTerminal = true) :
    e.after.tasks[id]? = some task ∨ e.op = .report id .collected ∧ e.after.tasks[id]? = none := by
  have hstep := RegistryOp.task_step hget hfresh
  show (e.op.apply e.before).tasks[id]? = some task ∨ e.op = _ ∧ (e.op.apply e.before).tasks[id]? = none
  generalize (e.op.apply e.before).tasks[id]? = after at hstep ⊢
  generalize e.op = op at hstep
  cases hstep with
  | kept => exact .inl rfl
  | removed _ => exact .inr ⟨rfl, rfl⟩
  | continued hrunning _ | ended hrunning _ _ _ | renewed hrunning _ _ =>
    rw [hrunning] at hover
    cases hover
  | resumed haccepted =>
    rw [haccepted.answerable.awaits] at hover
    cases hover

/-- The action that a recovery issues is about a task that is not over. -/
theorem running_of_recovery
    (hsettled : task.status.isTerminal = true → task.cancellation = none)
    (h : reg.recoveryAction task = .ok action) :
    action.task = some task ∧ task.status.isTerminal = false := by
  unfold McpServerRegistry.recoveryAction at h
  split at h
  · next hcancel =>
    cases h
    refine ⟨rfl, ?_⟩
    by_contra hover
    rw [Bool.not_eq_false] at hover
    rw [hsettled hover] at hcancel
    cases hcancel
  · split at h
    · next hworking =>
      split at h
      · cases h
        exact ⟨rfl, by rw [hworking]; rfl⟩
      · cases h
    · next hawaits _ =>
      split at h
      · cases h
        exact ⟨rfl, by rw [hawaits]; rfl⟩
      · cases h
    · cases h

theorem taskId_resumed {approved : Bool} : (reg.resumed task approved).taskId = task.taskId := by
  unfold McpServerRegistry.resumed
  split
  · split <;> rfl
  · rfl

/-- **No action is about a task that ended.** -/
theorem Standing.over_silent (h : Standing log e.before) (hfresh : e.op.Fresh e.before)
    (hget : e.before.tasks[id]? = some task) (hover : task.status.isTerminal = true) (hissues : e.op.issues e.before = some (principal, action))
    {about : McpTask} (habout : action.task = some about) : about.taskId ≠ id := by
  obtain ⟨before, op⟩ := e
  -- What is not over has another id.
  have hother {id' : String} {existing : McpTask} (hid : before.tasks[id']? = some existing)
      (hrunning : existing.status.isTerminal = false) : existing.taskId ≠ id := by
    rw [h.taskId id' existing hid]
    rintro rfl
    cases hget.symm.trans hid
    rw [hrunning] at hover
    cases hover
  cases op with
  | registerTool tool => cases hissues
  | upsertTool tool => cases hissues
  | registerResource resource => cases hissues
  | registerPrompt prompt => cases hissues
  | report id told => cases hissues
  | callTool request caller =>
    replace hissues : (if (before.inputError request.name request.arguments).isSome then none else
      RegistryOp.issues.issuedTo caller
        (before.prepareToolCall caller.correlation caller.principal request).2) = _ := hissues
    split at hissues
    · cases hissues
    · have haction := (issuedTo_eq_some hissues).2
      rcases callTool_cases before caller.correlation caller.principal request with ⟨_, hnone⟩ | ⟨_, _, new, _, _, _, hnew, _, hissued⟩
      · cases hnone.symm.trans haction
      · rw [hissued, Option.some.injEq] at haction
        have hid : about.taskId = taskIdOf before.nextTaskSequence := by
          rw [← haction] at habout
          unfold McpServerRegistry.newTaskAction at habout
          split at habout <;> cases habout <;> rw [hnew] <;> rfl
        rw [hid]
        rintro rfl
        cases hget.symm.trans hfresh
  | resumeApproval id' response caller =>
    have haction := (issuedTo_eq_some hissues).2
    rcases resumeApproval_cases before caller.correlation caller.principal id' response with ⟨_, hnone⟩ |
        ⟨existing, hid, _, hanswerable, _, hissued⟩
    · cases hnone.symm.trans haction
    · rw [hissued, Option.some.injEq] at haction
      have hkey : about.taskId = existing.taskId := by
        rw [← haction] at habout
        dsimp only at habout
        split at habout <;> cases habout <;> exact taskId_resumed
      rw [hkey]
      exact hother hid (by rw [hanswerable.awaits]; rfl)
  | cancelTask id' caller =>
    have haction := (issuedTo_eq_some hissues).2
    rcases cancelTask_cases before caller.correlation caller.principal id' with ⟨_, hnone⟩ | ⟨existing, hid, _, hrunning, _, hissued⟩
    · cases hnone.symm.trans haction
    · rw [hissued, Option.some.injEq] at haction
      have hkey : about.taskId = existing.taskId := by
        rw [← haction] at habout
        cases habout
        unfold McpServerRegistry.afterCancelRequest
        split
        · rw [McpServerRegistry.get_updateTask, if_pos rfl]
          rfl
        · rw [hid]
          rfl
      rw [hkey]
      exact hother hid hrunning
  | query asked caller =>
    have haction := (issuedTo_eq_some hissues).2
    by_cases hrecovery : ∃ id', asked = .recoverTask id'
    · obtain ⟨id', rfl⟩ := hrecovery
      replace haction : (before.prepareRecoverTask caller.correlation caller.principal id').action = _ :=
        haction
      unfold McpServerRegistry.prepareRecoverTask at haction
      cases hid : before.tasks[id']? with
      | none =>
        rw [hid] at haction
        cases haction
      | some existing =>
        rw [hid] at haction
        dsimp only at haction
        cases hrecovered : before.recoveryAction existing with
        | error reason =>
          rw [hrecovered] at haction
          cases haction
        | ok recovered =>
          rw [hrecovered] at haction
          obtain ⟨_, rfl⟩ := GovernedAction.action_fromEnvelope.mp haction
          obtain ⟨hsome, hrunning⟩ := running_of_recovery (h.settled id' existing hid) hrecovered
          cases hsome.symm.trans habout
          exact hother hid hrunning
    · cases (shows_of_query (fun id' heq => hrecovery ⟨id', heq⟩) haction).symm.trans habout

end Invocations

/-! ### Runs -/

/-- What an invocation of a task rests on. -/
structure Justified (log : List RegistryEntry) (reg : McpServerRegistry) (principal : ProtocolPrincipal)
    (task : McpTask) : Prop where
  registered : reg.tasks[task.taskId]? = some task
  working : task.status = .working
  notCancelled : task.cancellation = none
  owner : principal.matchesIdentity task.ownerSubject task.ownerTenantId = true
  contract : ∃ tool, reg.tools[task.operation.name]? = some tool ∧
    principal.allows tool.requiredScopes = true ∧ ValidArguments tool task.operation.arguments ∧
    (tool.requiresApproval = true ∨ ¬ Unchanged log task.taskId task.operation.name →
      Approved log task.taskId task.operation.name)

/-- A task that ended. -/
structure Ended (e : RegistryEntry) (id : String) (task : McpTask) : Prop where
  stays : e.after.tasks[id]? = some task ∨ e.op = .report id .collected ∧ e.after.tasks[id]? = none
  silent : ∀ principal action about, e.op.issues e.before = some (principal, action) →
    action.task = some about → about.taskId ≠ id

variable {log : List RegistryEntry} {e : RegistryEntry} {reg : McpServerRegistry}

/-- The account of a run. -/
theorem RegistryRun.standing (hrun : Path RegistryStep .new log reg) (hcareful : ∀ e ∈ log, e.Careful) :
    Standing log reg := by
  refine hrun.invariant_log (P := fun log reg => (∀ e ∈ log, e.Careful) → Standing log reg)
    (fun _ => Standing.new) ?_ hcareful
  rintro pre e a b ⟨rfl, rfl⟩ hpre hcareful
  have hbefore := hpre fun e' he' => hcareful e' (List.mem_append_left _ he')
  exact hbefore.step (hcareful e (List.mem_append_right _ List.mem_cons_self))

/-- In a careful run, invocations are approved, and what ended stays as it is. -/
theorem RegistryRun.careful_approved (hrun : Path RegistryStep .new (log ++ [e]) reg)
    (hcareful : ∀ e' ∈ log ++ [e], e'.Careful) :
    (∀ principal task, e.op.issues e.before = some (principal, .invokeTool task) →
      Justified (log ++ [e]) e.after principal task) ∧
    ∀ (id : String) (task : McpTask), e.before.tasks[id]? = some task → task.status.isTerminal = true →
      Ended e id task := by
  obtain ⟨mid, hlog, hlast⟩ := hrun.exists_mid
  have hafter : Standing (log ++ [e]) reg := RegistryRun.standing hrun hcareful
  have hbefore : Standing log mid :=
    RegistryRun.standing hlog fun e' he' => hcareful e' (List.mem_append_left _ he')
  obtain ⟨hfresh, _⟩ := hcareful e (List.mem_append_right _ List.mem_cons_self)
  cases hlast with
  | cons hstep hrest =>
  cases hrest
  obtain ⟨rfl, rfl⟩ := hstep
  refine ⟨fun principal task hissues => ?_, fun id task hget hover => ⟨?_, ?_⟩⟩
  · obtain ⟨hregistered, hworking, hcancel, howner, hscopes, tool, htool, hvalid⟩ :=
      hbefore.invocable hissues
    obtain ⟨tool', htool', hunder⟩ := hafter.contract _ _ hregistered (by rw [hworking]; rfl)
    cases htool.symm.trans htool'
    refine ⟨hregistered, hworking, hcancel, howner, tool, htool, ?_, hvalid, fun hneeded => ?_⟩
    · rw [hunder.scopes] at hscopes
      exact ProtocolPrincipal.allows_of_isSubset hscopes BTreeSet.isSubset_extend
    · rcases hunder.approved hworking with happroved | ⟨hfree, hunchanged⟩
      · exact happroved
      · rcases hneeded with hrequires | hchanged
        · cases hfree.symm.trans hrequires
        · exact absurd hunchanged hchanged
  · exact Standing.over_stays hfresh hget hover
  · intro principal action about hissues habout
    exact hbefore.over_silent hfresh hget hover hissues habout

/-! ### The sequence of task ids -/

/-- The ids of the tasks are numbered below the next one, until the numbers are exhausted. -/
def Numbered (reg : McpServerRegistry) : Prop :=
  ∀ (id : String) (task : McpTask), reg.tasks[id]? = some task →
    ∃ n, id = taskIdOf n ∧ (n < reg.nextTaskSequence ∨ reg.nextTaskSequence = u64Max)

theorem RegistryRun.numbered (hrun : Path RegistryStep .new log reg) :
    reg.nextTaskSequence ≤ u64Max ∧ Numbered reg := by
  refine hrun.invariant (P := fun reg => reg.nextTaskSequence ≤ u64Max ∧ Numbered reg) ?_ ?_
  · rintro _ e _ _ ⟨rfl, rfl⟩ ⟨hle, hnumbered⟩
    have hsequence := RegistryOp.sequence_step e.before e.op
    refine ⟨?_, fun id task hafter => ?_⟩
    · show (e.op.apply e.before).nextTaskSequence ≤ u64Max
      rcases hsequence with heq | heq <;> rw [heq]
      · exact hle
      · exact Nat.min_le_right ..
    · cases hget : e.before.tasks[id]? with
      | some existing =>
        obtain ⟨n, hid, hn⟩ := hnumbered id existing hget
        refine ⟨n, hid, ?_⟩
        show n < (e.op.apply e.before).nextTaskSequence ∨ (e.op.apply e.before).nextTaskSequence = u64Max
        rcases hsequence with heq | heq <;> rw [heq]
        · exact hn
        · unfold saturatingAdd
          omega
      | none =>
        obtain ⟨_, _, _, _, _, hid, _, _, heq⟩ := RegistryOp.created_step hget hafter
        refine ⟨_, hid, ?_⟩
        show _ < (e.op.apply e.before).nextTaskSequence ∨ (e.op.apply e.before).nextTaskSequence = u64Max
        rw [heq]
        unfold saturatingAdd
        omega
  · exact ⟨by decide, fun id task h => by simp [McpServerRegistry.new] at h⟩

/-- Until the numbers are exhausted, new tasks have new ids. -/
theorem RegistryRun.fresh (hrun : Path RegistryStep .new log reg) (hlt : reg.nextTaskSequence < u64Max)
    (op : RegistryOp) : op.Fresh reg := by
  cases op with
  | callTool request caller =>
    show reg.tasks[taskIdOf reg.nextTaskSequence]? = none
    cases hget : reg.tasks[taskIdOf reg.nextTaskSequence]? with
    | none => rfl
    | some task =>
      obtain ⟨n, hid, hn⟩ := (RegistryRun.numbered hrun).2 _ _ hget
      have heq := taskIdOf_injective hid
      omega
  | _ => trivial

/-- As long as the numbers last, every operation is careful. -/
theorem RegistryRun.careful (hrun : Path RegistryStep .new log reg)
    (hrange : ∀ e' ∈ log, e'.before.nextTaskSequence < u64Max)
    (hfree : ∀ e' ∈ log, e'.op.Distinguishes e'.before) : ∀ e' ∈ log, e'.Careful := by
  intro e' hin
  obtain ⟨pre, post, rfl⟩ := List.append_of_mem hin
  obtain ⟨mid, hpre, hpost⟩ := hrun.exists_mid
  cases hpost with
  | cons hstep _ =>
  obtain ⟨rfl, -⟩ := hstep
  exact ⟨RegistryRun.fresh hpre (hrange e' hin) e'.op, hfree e' hin⟩

/-- **Invocations are approved, and what ended stays as it is.** -/
theorem RegistryRun.invocations_approved (hrun : Path RegistryStep .new (log ++ [e]) reg)
    (hrange : ∀ e' ∈ log ++ [e], e'.before.nextTaskSequence < u64Max)
    (hfree : ∀ e' ∈ log ++ [e], e'.op.Distinguishes e'.before) :
    (∀ principal task, e.op.issues e.before = some (principal, .invokeTool task) →
      Justified (log ++ [e]) e.after principal task) ∧
    ∀ (id : String) (task : McpTask), e.before.tasks[id]? = some task → task.status.isTerminal = true →
      Ended e id task :=
  RegistryRun.careful_approved hrun (RegistryRun.careful hrun hrange hfree)

end

/-! ### A tool that is free to call -/

/-- A tool that requires no approval. -/
def echoTool : McpToolDefinition where
  name := "echo"
  description := ""
  inputSchema := .object []
  requiredScopes := ∅
  requiresApproval := false
  taskSupport := .optional

/-- Someone who may do everything. -/
def alice : ProtocolPrincipal := ⟨"alice", none, .ofList ["*"]⟩

/-- Alice asks. -/
def asAlice : Caller := ⟨⟨"correlation", "request", none, none⟩, some alice⟩

/-- Alice calls the tool. -/
def callEcho : RegistryOp := .callTool ⟨"echo", .object [], .direct⟩ asAlice

theorem echo_allowed : (GovernanceEnvelope.evaluate asAlice.correlation asAlice.principal "tools/call" "echo"
    (toolScopes echoTool)).authorization.isAllowed = true := by decide +kernel

theorem echo_valid : @McpToolDefinition.validate Agent.emptySchema echoTool = .ok () := by decide +kernel

section Echo

variable [Digest] [JsonSchema]

/-- The first registration. -/
theorem apply_registerEcho (hvalid : echoTool.validate = .ok ()) :
    (RegistryOp.registerTool echoTool).apply .new =
      { McpServerRegistry.new with
        tools := (∅ : BTreeMap McpToolDefinition).insert "echo" echoTool }.bumpRevision := by
  show keeping .new (McpServerRegistry.new.registerTool echoTool) = _
  unfold McpServerRegistry.registerTool
  rw [hvalid]
  rfl

/-- What a call of the tool leaves, where it is registered. -/
def afterEcho (reg : McpServerRegistry) : McpServerRegistry :=
  { reg.bumpRevision with
    nextTaskSequence := saturatingAdd reg.nextTaskSequence 1
    tasks := reg.tasks.insert (taskIdOf reg.nextTaskSequence)
      (reg.newTask echoTool ⟨"echo", .object [], .direct⟩
        (reg.newTaskCorrelation asAlice.correlation) alice (toolScopes echoTool)) }

variable {reg : McpServerRegistry}

theorem apply_callEcho (htool : reg.tools["echo"]? = some echoTool) :
    callEcho.apply reg = afterEcho reg := by
  show (reg.prepareToolCall asAlice.correlation (some alice) ⟨"echo", .object [], .direct⟩).1 = _
  unfold McpServerRegistry.prepareToolCall
  rw [htool]
  dsimp only
  rw [if_neg, if_neg]
  · rfl
  · decide
  · rw [Bool.not_eq_false]
    exact echo_allowed

/-- A call of the tool is issued as an invocation. -/
theorem issues_callEcho (htool : reg.tools["echo"]? = some echoTool)
    (hmatches : (JsonSchema.validatorFor (.object [])).toOption.all fun validator =>
      (validator (.object [])).isOk) :
    callEcho.issues reg = some (alice, .invokeTool (reg.newTask echoTool ⟨"echo", .object [], .direct⟩
      (reg.newTaskCorrelation asAlice.correlation) alice (toolScopes echoTool))) := by
  have herror : reg.inputError "echo" (.object []) = none := by
    unfold McpServerRegistry.inputError
    rw [htool, Option.bind_some]
    dsimp only [echoTool]
    cases hcompiled : JsonSchema.validatorFor (.object []) with
    | error error => rfl
    | ok validator =>
      rw [hcompiled] at hmatches
      replace hmatches : (validator (.object [])).isOk = true := hmatches
      cases hresult : validator (.object []) with
      | error error =>
        rw [hresult] at hmatches
        cases hmatches
      | ok u =>
        dsimp only
        rw [hresult]
  show (if (reg.inputError "echo" (.object [])).isSome then none else RegistryOp.issues.issuedTo asAlice
    (reg.prepareToolCall asAlice.correlation (some alice) ⟨"echo", .object [], .direct⟩).2) = _
  rw [herror, if_neg nofun]
  unfold McpServerRegistry.prepareToolCall
  rw [htool]
  dsimp only
  rw [if_neg, if_neg]
  · exact congrArg (Option.map (alice, ·)) (GovernedAction.action_fromEnvelope.mpr ⟨echo_allowed, rfl⟩)
  · decide
  · rw [Bool.not_eq_false]
    exact echo_allowed

end Echo

/-- A call of a registered tool is invoked, and justified. -/
theorem invocations_approved_sample : ∃ log reg task, @Justified Agent.emptySchema sha256 log reg alice task := by
  let _ : Digest := sha256
  let _ : JsonSchema := Agent.emptySchema
  have htool : ((RegistryOp.registerTool echoTool).apply .new).tools["echo"]? = some echoTool := by
    rw [apply_registerEcho echo_valid]
    exact BTreeMap.get_insert_self
  have hrun : Path RegistryStep .new
      ([⟨.new, .registerTool echoTool⟩] ++ [⟨(RegistryOp.registerTool echoTool).apply .new, callEcho⟩]) _ :=
    .cons ⟨rfl, rfl⟩ (.single ⟨rfl, rfl⟩)
  have hnext : ((RegistryOp.registerTool echoTool).apply .new).nextTaskSequence < u64Max := by
    rw [apply_registerEcho echo_valid]
    decide
  refine ⟨_, _, _, (RegistryRun.invocations_approved hrun ?_ ?_).1 alice _ (issues_callEcho htool ?_)⟩
  · rintro e (_ | ⟨_, _ | ⟨_, h⟩⟩)
    · exact (by decide : (1 : Nat) < u64Max)
    · exact hnext
    · cases h
  · rintro e (_ | ⟨_, _ | ⟨_, h⟩⟩)
    · trivial
    · trivial
    · cases h
  · decide +kernel

end AikitRuntime.Mcp
