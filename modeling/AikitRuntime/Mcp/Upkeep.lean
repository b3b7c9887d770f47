import AikitRuntime.Library.Clients
import AikitRuntime.Mcp.Handlers
import AikitRuntime.Mcp.ServerRuns

/-!
# What the server does with its state

Whatever a call of the server commits comes from the state that it loaded by a few kinds of steps:
operations of the registry, a new task with its metadata, a task that is collected with its metadata, and
changes of the receipts, the connections and the times (`Tends`). A property that every such step keeps
holds of all that a store ever has, whatever the calls of many servers do to one another and wherever the
store fails (`Upheld.run`).
-/

namespace AikitRuntime.Mcp

open Library Durability McpJsonRpcServer McpServerState
open Agent (JsonSchema)

section

variable [JsonSchema] [Digest]

/-! ### Garbage collection -/

section Garbage

variable {Fits : Value → Prop} {s s' : McpServerState}

theorem tends_removeTasks {ids : List String} (h : removeTasks ids s = .ok s') :
    Tends Fits s s' := by
  induction ids generalizing s with
  | nil =>
    cases h
    exact .refl _
  | cons id rest ih =>
    unfold removeTasks at h
    obtain ⟨registry, hremove, h⟩ := bind_eq_ok.mp h
    have happly : TaskReport.collected.apply s.registry id = .ok registry := hremove
    exact .trans (.collected happly) (ih h)

theorem tends_collectGarbage {retentionMs now : Nat} {changed : Bool}
    (h : s.collectGarbage now retentionMs = .ok (s', changed)) : Tends Fits s s' := by
  unfold collectGarbage at h
  obtain ⟨result, hremoved, h⟩ := bind_eq_ok.mp h
  cases h
  refine .trans ?_ (tends_removeTasks hremoved)
  exact .noted s _ _ s.storageRevision

end Garbage

/-! ### Requests -/

/-- What is decided on a state commits what comes from it. -/
def Tended {α : Type} (Fits : Value → Prop) (s : McpServerState) (result : ProtocolResult (Handled α)) : Prop :=
  ∀ next made, result = .ok (some next, made) → Tends Fits s next

section Requests

variable {Fits : Value → Prop} {server : McpJsonRpcServer} {clock : Readings} {ctx : RequestContext}
  {s s₁ : McpServerState} {α : Type}

namespace Tended

theorem nothing {made : α} : Tended Fits s (.ok (none, made)) := by
  rintro _ _ ⟨⟩

theorem commits {next : McpServerState} {made : α} (h : Tends Fits s next) :
    Tended Fits s (.ok (some next, made)) := by
  rintro _ _ ⟨⟩
  exact h

/-- Something that may fail, and then a decision. -/
theorem bind {β : Type} {x : ProtocolResult β} {f : β → ProtocolResult (Handled α)}
    (h : ∀ b, x = .ok b → Tended Fits s (f b)) : Tended Fits s (x >>= f) := by
  intro next made hbind
  obtain ⟨b, hx, hf⟩ := bind_eq_ok.mp hbind
  exact h b hx next made hf

theorem trans {result : ProtocolResult (Handled α)} (h : Tends Fits s s₁) (hrest : Tended Fits s₁ result) :
    Tended Fits s result := fun next made hresult => h.trans (hrest next made hresult)

end Tended

variable {connectionId requestHash : String} {id : Value} {request : ParsedRequest}

/-- The handlers that start with the expiry of tasks. -/
theorem tended_expireFirst {f : McpServerState × List McpOutboundMessage → ProtocolResult (Handled α)}
    (h : ∀ s₁ outbound, Tended Fits s₁ (f (s₁, outbound))) :
    Tended Fits s (expireFirst clock s >>= f) :=
  .bind fun ⟨s₁, outbound⟩ hexpired => .trans (tends_expireFirst hexpired) (h s₁ outbound)

/-- A handler commits what comes from its state. -/
theorem tended_dispatchInitialized (hfails : FailuresFit Fits s.registry) :
    Tended Fits s (server.dispatchInitialized clock s ctx) := fun _ _ h => (serves_dispatchInitialized _ h).tends hfails

variable {principal : Option ProtocolPrincipal}

theorem tended_handleInitialize :
    Tended Fits s (.ok (server.handleInitialize clock s connectionId principal request requestHash)) := by
  have hrecorded (connections : BTreeMap McpConnectionState) (id response : Value) :
      Tends Fits s (recordCompleted clock { s with connections } connectionId request id requestHash
        response) := .noted s _ connections s.storageRevision
  unfold handleInitialize
  split
  · exact .nothing
  · dsimp only
    split
    · exact .commits (hrecorded s.connections _ _)
    · split
      · exact .commits (hrecorded s.connections _ _)
      · split
        · exact .commits (hrecorded s.connections _ _)
        · exact .commits (hrecorded _ _ _)

theorem tended_handleInitializedNotification :
    Tended Fits s (.ok (handleInitializedNotification s connectionId principal request)) := by
  unfold handleInitializedNotification
  split
  · exact .nothing
  · split
    · split
      · exact .commits (.noted s s.receipts _ s.storageRevision)
      · exact .nothing
    · exact .nothing

theorem tended_respond (hfails : FailuresFit Fits s.registry) :
    Tended Fits s (server.respond clock s connectionId principal request requestHash) := by
  rw [respond_eq]
  obtain ⟨receipts, hroom, _⟩ := room_fields server clock s request
  split
  · exact .nothing
  · rw [hroom]
    refine .trans (.receipts s receipts) ?_
    unfold dispatch
    split
    · exact tended_handleInitialize
    · split
      · exact tended_handleInitializedNotification
      · split
        · exact .nothing
        · exact .nothing
        · split
          · exact .nothing
          · split
            · exact .nothing
            · exact tended_dispatchInitialized hfails

end Requests

/-! ### What the host asks for -/

section Host

variable {Fits : Value → Prop} {server : McpJsonRpcServer} {clock : Readings} {s : McpServerState}
  {taskId : String}

/-- The end of a task that the host reports. -/
theorem tended_endTask {told : TaskReport} {result : ProtocolResult Value}
    (hfits : ∀ value isError, told = .result value isError → Fits value) (hstays : told ≠ .collected) :
    Tended Fits s (told.apply s.registry taskId >>= fun registry =>
      Except.ok (endTask clock s taskId registry result)) :=
  .bind fun _ happly => .commits (.trans (.reported happly hfits hstays) tends_releaseTask)

theorem tended_completePendingOn {pending : McpPendingResponse} {result : ProtocolResult Value} :
    Tended Fits s (server.completePendingOn clock pending result s) := by
  unfold completePendingOn
  refine .bind fun receipt _ => ?_
  dsimp only
  split
  · refine .bind fun operation _ => .bind fun _ _ => ?_
    cases result with
    | ok value => exact .bind fun _ _ => .bind fun _ _ => .commits (.receipts s _)
    | error error => exact .bind fun _ _ => .commits (.receipts s _)
  · exact .bind fun _ herror => nomatch herror

theorem tended_recordProgressOn {progress : McpProgress} :
    Tended Fits s (recordProgressOn clock taskId progress s) := by
  unfold recordProgressOn
  split
  · refine tended_expireFirst fun s₁ outbound => ?_
    exact .commits (.refl s₁)
  · refine .bind fun registry hprogress => .commits ?_
    have happly : (TaskReport.progress progress).apply s.registry taskId = .ok registry := hprogress
    exact .trans (.told happly (by rintro _ _ ⟨⟩) (by rintro ⟨⟩)) tends_stampTask

variable {principal : Option ProtocolPrincipal}

theorem tended_resolveApprovalOn {response : McpApprovalResponse} :
    Tended Fits s (resolveApprovalOn clock taskId response principal s) := by
  unfold resolveApprovalOn
  split
  · refine tended_expireFirst fun s₁ outbound => ?_
    exact .commits (.refl s₁)
  · refine .bind fun identity _ => ?_
    have hstep : Tends Fits s _ := .operated s (.resumeApproval taskId response ⟨identity, principal⟩)
    split
    next registry decision hresume =>
      have happly : (RegistryOp.resumeApproval taskId response ⟨identity, principal⟩).apply s.registry = registry :=
        congrArg Prod.fst hresume
      rw [happly] at hstep
      split
      · exact .commits (hstep.trans tends_stampTask)
      · exact .nothing

variable {connectionId : String}

theorem tends_cancelAll {principal : ProtocolPrincipal} {ids : List String}
    {registry : McpServerRegistry} {decisions : List Decision}
    (h : cancelAll connectionId principal ids s.registry = .ok (registry, decisions)) :
    Tends Fits s { s with registry } := by
  induction ids generalizing s decisions with
  | nil =>
    cases h
    exact .refl s
  | cons id rest ih =>
    unfold cancelAll at h
    obtain ⟨identity, _, h⟩ := bind_eq_ok.mp h
    dsimp only at h
    obtain ⟨_, _, h⟩ := bind_eq_ok.mp h
    obtain ⟨⟨next, more⟩, hrest, h⟩ := bind_eq_ok.mp h
    cases h
    refine .trans (.cancelled s identity (some principal) id) ?_
    exact @ih { s with registry := (s.registry.prepareCancelTask identity (some principal) id).1 } _ hrest

theorem tended_terminate :
    Tended Fits s (ownConnection s connectionId principal >>= fun principal =>
      cancelAll connectionId principal (openTasks s connectionId) s.registry >>=
        fun closed => (Except.ok (some { s with registry := closed.1 }, closed.2) :
          ProtocolResult (Handled (List Decision)))) :=
  .bind fun _ _ => .bind fun ⟨_, _⟩ hclosed => .commits (tends_cancelAll hclosed)

theorem tended_markReconcile {reason : String} :
    Tended Fits s (s.registry.markCancelReconcileRequired taskId reason >>= fun registry =>
      (Except.ok (some ({ s with registry }.stampTask taskId clock.nowText clock.now), ()) :
        ProtocolResult (Handled Unit))) := by
  refine .bind fun registry hmark => .commits ?_
  have happly : (TaskReport.cancellationUnclear reason).apply s.registry taskId = .ok registry := hmark
  exact .trans (.told happly (by rintro _ _ ⟨⟩) (by rintro ⟨⟩)) tends_stampTask

theorem tended_finalizeOn :
    Tended Fits s (finalizeOn connectionId principal s) := by
  unfold finalizeOn
  exact .bind fun _ _ => .bind fun _ _ => .commits (.noted s _ _ s.storageRevision)

theorem tended_upsertToolOn {tool : McpToolDefinition} :
    Tended Fits s (upsertToolOn clock tool s) := by
  unfold upsertToolOn
  refine .bind fun changed hupsert => ?_
  cases changed with
  | none => exact .nothing
  | some registry =>
    have hstep : Tends Fits s _ := .operated s (.upsertTool tool)
    have happly : (RegistryOp.upsertTool tool).apply s.registry = registry := by
      show keeping s.registry ((s.registry.upsertTool tool).map (·.getD s.registry)) = registry
      rw [hupsert]
      rfl
    rw [happly] at hstep
    refine .commits (hstep.trans (.annotated _ _ fun id hnone => ?_))
    rw [Std.ExtTreeMap.getElem?_map, Option.map_eq_none_iff] at hnone
    exact hnone

end Host

/-! ### Programs -/

/-- A program that only stores what has a property, if what it loads has it. -/
def storing (I : McpServerState → Prop) : Monitor StoreQuery StoreQuery.Answer Unit where
  allows _
    | .load => True
    | .compareAndSwap _ state => I state
  admits _
    | .load => fun answer => ∀ state, answer = .ok (some state) → I state
    | .compareAndSwap _ _ => fun _ => True
  step _ _ _ := ()

/-- The program stores only what has the property. -/
def Stores {α : Type} (I : McpServerState → Prop) (program : Program α) : Prop :=
  Passes (storing I) (fun _ _ => True) (fun _ _ => True) program ()

/-- What every step keeps, with what a failure of arguments needs. -/
structure Upheld (Fits : Value → Prop) (I : McpServerState → Prop) : Prop where
  keeps : ∀ {s s' : McpServerState}, s.validate = .ok () → I s → Tends Fits s s' → I s'
  fails : ∀ {s : McpServerState}, s.validate = .ok () → I s → FailuresFit Fits s.registry

section Programs

variable {Fits : Value → Prop} {I : McpServerState → Prop} {α β : Type}

namespace Stores

omit [JsonSchema] [Digest] in
theorem map {program : Program α} (f : α → β) (h : Stores I program) : Stores I (f <$> program) := by
  unfold Stores
  rw [map_eq_pure_bind]
  exact Passes.bind h fun _ _ _ => Passes.pure trivial

omit [JsonSchema] [Digest] in
theorem check {x : ProtocolResult α} {f : α → Program β} (h : ∀ a, x = .ok a → Stores I (f a)) :
    Stores I (Program.check x >>= f) := by
  cases x with
  | ok a => exact h a rfl
  | error e => exact Passes.throw trivial

omit [JsonSchema] [Digest] in
theorem checked {x : ProtocolResult α} : Stores I (Program.check x) := by
  cases x with
  | ok a => exact Passes.pure trivial
  | error e => exact Passes.throw trivial

omit [JsonSchema] [Digest] in
theorem passes_check {M : Monitor StoreQuery StoreQuery.Answer Unit} {x : ProtocolResult α} :
    Passes M (fun a _ => x = .ok a) (fun _ _ => True) (Program.check x) () := by
  cases x with
  | ok a => exact Passes.pure rfl
  | error e => exact Passes.throw trivial

omit [Digest] in
/-- What is loaded was stored, and is valid. -/
theorem passes_loadState :
    Passes (storing I) (fun state _ => state.validate = .ok () ∧ I state) (fun _ _ => True) loadState () := by
  unfold loadState
  refine Passes.perform_bind trivial fun answer hanswer => ?_
  refine Passes.bind passes_check fun state _ hstate => ?_
  refine Passes.bind passes_check fun _ _ hvalid => Passes.pure ⟨hvalid, ?_⟩
  obtain ⟨found, hfound, hsome⟩ := bind_eq_ok.mp hstate
  exact hanswer state (hfound.trans (congrArg Except.ok (okOr_eq_ok.mp hsome)))

omit [Digest] in
theorem load {f : McpServerState → Program α}
    (h : ∀ state, state.validate = .ok () → I state → Stores I (f state)) : Stores I (loadState >>= f) :=
  Passes.bind passes_loadState fun state _ hstate => h state hstate.1 hstate.2

omit [JsonSchema] [Digest] in
theorem commit {state : McpServerState} {expected : Nat} {f : Unit → Program α}
    (hstate : I (state.stamped expected)) (h : Stores I (f ())) : Stores I (Mcp.commit state expected >>= f) := by
  refine Passes.bind (Q := fun _ _ => True) ?_ fun _ _ _ => h
  unfold Mcp.commit
  refine Passes.perform_bind hstate fun answer _ => ?_
  exact passes_check.mono fun _ _ _ => trivial

variable (hI : Upheld Fits I)

include hI

theorem conclude {state : McpServerState} {result : ProtocolResult (Handled α)} (hvalid : state.validate = .ok ())
    (hstate : I state) (h : Tended Fits state result) :
    Stores I (Program.check result >>= fun handled => Mcp.conclude state.storageRevision handled) := by
  refine check fun handled hhandled => ?_
  unfold Mcp.conclude
  split
  · exact Passes.pure trivial
  · next next hnext =>
    refine commit ?_ (Passes.pure trivial)
    exact hI.keeps hvalid hstate ((h next handled.2 (by rw [hhandled, ← hnext])).stamped _)

/-- **A transaction.** -/
theorem transact {decide : McpServerState → ProtocolResult (Handled α)}
    (h : ∀ state, Tended Fits state (decide state)) : Stores I (Mcp.transact decide) := by
  unfold Mcp.transact
  exact load fun state hvalid hstate => conclude hI hvalid hstate (h state)

end Stores

end Programs

/-! ### Calls -/

/-- The result that a call brings fits, if the server takes it. -/
def ServerCall.Fit (Fits : Value → Prop) (server : McpJsonRpcServer) : ServerCall → Prop
  | .completeTool _ result =>
    validateToolResult result server.maxResultBytes server.maxResultItems server.maxResultDepth = .ok () → Fits result
  | _ => True

section Calls

variable {Fits : Value → Prop} {I : McpServerState → Prop} {server : McpJsonRpcServer} {clock : Readings}
  {taskId : String}

theorem stores_handle [JsonReader] (hI : Upheld Fits I) {connectionId : String}
    {principal : Option ProtocolPrincipal} {payload : List UInt8} :
    Stores I (server.handle clock connectionId principal payload) := by
  unfold handle
  refine .check fun ingress _ => ?_
  cases ingress with
  | answered dispatch => exact Passes.pure trivial
  | request raw request =>
    refine .load fun loaded hvalid hloaded => .check fun ⟨collected, changed⟩ hcollected => ?_
    dsimp only
    cases changed with
    | true =>
      refine Stores.commit (hI.keeps hvalid hloaded (.stamped (tends_collectGarbage hcollected) _)) ?_
      exact .load fun state hvalid hstate => .conclude hI hvalid hstate (tended_respond (hI.fails hvalid hstate))
    | false =>
      cases collectGarbage_unchanged hcollected
      exact .conclude hI hvalid hloaded (tended_respond (hI.fails hvalid hloaded))

theorem stores_completeTool (hI : Upheld Fits I) {result : Value}
    (hfit : (ServerCall.completeTool taskId result).Fit Fits server) :
    Stores I (server.completeTool clock taskId result) := by
  unfold completeTool
  refine .check fun _ hresult => .transact hI fun state => ?_
  refine @tended_endTask _ _ _ clock state taskId
    (.result result (isErrorResult result)) (.ok result) ?_ (by rintro ⟨⟩)
  rintro _ _ ⟨⟩
  exact hfit hresult

theorem stores_failTool (hI : Upheld Fits I) {error : ProtocolError} :
    Stores I (failTool clock taskId error) :=
  .transact hI fun state =>
    @tended_endTask _ _ _ clock state taskId (.failed error) (.error error) (by rintro _ _ ⟨⟩) (by rintro ⟨⟩)

theorem stores_confirmCancellation (hI : Upheld Fits I) :
    Stores I (confirmCancellation clock taskId) :=
  .transact hI fun state => @tended_endTask _ _ _ clock state taskId .cancelled
    (.error ⟨.cancelled, "MCP task was cancelled"⟩) (by rintro _ _ ⟨⟩) (by rintro ⟨⟩)

theorem stores_recoverActions (hI : Upheld Fits I) {principal : Option ProtocolPrincipal} :
    Stores I (recoverActions clock principal) := by
  unfold recoverActions
  refine .load fun loaded hvalid hloaded => .check fun ⟨expired, _⟩ hexpired => ?_
  dsimp only
  split
  · refine Stores.commit (hI.keeps hvalid hloaded (.stamped (tends_expireFirst hexpired) _)) ?_
    exact .load fun _ _ _ => .checked
  · exact .checked

/-- **A call stores only what the steps keep.** -/
theorem stores_program [JsonReader] (hI : Upheld Fits I) {call : ServerCall} (hfit : call.Fit Fits server) :
    Stores I (call.program server clock) := by
  cases call with
  | handle connectionId principal payload => exact (stores_handle hI).map _
  | completeTool taskId result => exact (stores_completeTool hI hfit).map _
  | failTool taskId error => exact (stores_failTool hI).map _
  | completePending pending result =>
    exact .map _ (.check fun _ _ => .transact hI fun state => tended_completePendingOn)
  | recordProgress taskId progress =>
    exact .map _ (Passes.bind (Stores.transact hI fun state => tended_recordProgressOn) fun _ _ _ => Stores.checked)
  | resolveApproval taskId response principal =>
    exact .map _ (Passes.bind (Stores.transact hI fun state => tended_resolveApprovalOn) fun _ _ _ => Stores.checked)
  | recoverActions principal => exact (stores_recoverActions hI).map _
  | upsertTool tool => exact .map _ (.transact hI fun state => tended_upsertToolOn)
  | confirmCancellation taskId => exact (stores_confirmCancellation hI).map _
  | markCancellationReconcileRequired taskId reason =>
    exact .map _ (.transact hI fun state => tended_markReconcile)
  | terminateConnection connectionId principal =>
    exact .map _ (.transact hI fun state => tended_terminate)
  | finalizeConnectionTermination connectionId principal =>
    exact .map _ (.transact hI fun state => tended_finalizeOn)

end Calls

end

/-! ### Tasks -/

/-- What an operation of the server makes of a task that is registered. -/
structure Onward (Fits : Value → Prop) (task task' : McpTask) : Prop where
  taskId : task'.taskId = task.taskId
  advertised : task'.advertised = task.advertised
  running : task'.status.isTerminal = false → task.status.isTerminal = false
  result : task'.result = task.result ∨
    task'.status.isTerminal = true ∧ ∀ value, task'.result = some value → Fits value

theorem Onward.refl {Fits : Value → Prop} (task : McpTask) : Onward Fits task task := ⟨rfl, rfl, id, .inl rfl⟩

section Tasks

variable {Fits : Value → Prop} {reg : McpServerRegistry} {taskId id : String} {task' : McpTask}

/-- Where one task is updated, the others are as they were. -/
theorem onward_updateTask {task next : McpTask} (hget : reg.tasks[taskId]? = some task)
    (hget' : (reg.updateTask taskId next).tasks[id]? = some task')
    (hnext : ∀ revision, Onward Fits task { next with updatedRevision := revision }) :
    ∃ task, reg.tasks[id]? = some task ∧ Onward Fits task task' := by
  rw [McpServerRegistry.get_updateTask] at hget'
  by_cases heq : taskId = id
  · rw [if_pos heq, Option.some.injEq] at hget'
    exact ⟨task, heq ▸ hget, hget' ▸ hnext _⟩
  · rw [if_neg heq] at hget'
    exact ⟨task', hget', .refl task'⟩

/-- What a report makes of the tasks. -/
theorem onward_report {told : TaskReport} {reg' : McpServerRegistry} (h : told.apply reg taskId = .ok reg')
    (hfits : ∀ value isError, told = .result value isError → Fits value)
    (hget' : reg'.tasks[id]? = some task') : ∃ task, reg.tasks[id]? = some task ∧ Onward Fits task task' := by
  cases hget : reg.tasks[taskId]? with
  | none =>
    rw [TaskReport.apply_unknown hget h] at hget'
    exact ⟨task', hget', .refl task'⟩
  | some task =>
    have hfound : reg.reported taskId = .ok task := okOr_eq_ok.mpr hget
    cases told with
    | cancelled =>
      simp only [TaskReport.apply, McpServerRegistry.confirmCancelTask, hfound, ok_bind, bind_eq_ok, refuseIf_eq_ok,
        exists_unit, pure, Except.pure, Except.ok.injEq] at h
      obtain ⟨hrunning, _, rfl⟩ := h
      exact onward_updateTask hget hget' fun _ => ⟨rfl, rfl, fun _ => by simpa using hrunning, .inl rfl⟩
    | cancellationUnclear reason =>
      simp only [TaskReport.apply, McpServerRegistry.markCancelReconcileRequired, hfound, ok_bind] at h
      split at h
      · cases h
        exact ⟨task', hget', .refl task'⟩
      · next hrunning =>
        simp only [bind_eq_ok, refuseIf_eq_ok, exists_unit, pure, Except.pure, Except.ok.injEq] at h
        obtain ⟨_, rfl⟩ := h
        exact onward_updateTask hget hget' fun _ => ⟨rfl, rfl, fun _ => by simpa using hrunning, .inl rfl⟩
    | expired =>
      simp only [TaskReport.apply, McpServerRegistry.expireTask, hfound, ok_bind] at h
      split at h
      · cases h
        exact ⟨task', hget', .refl task'⟩
      · next hrunning =>
        cases h
        exact onward_updateTask hget hget' fun _ => ⟨rfl, rfl, fun _ => by simpa using hrunning, .inl rfl⟩
    | collected =>
      simp only [TaskReport.apply, McpServerRegistry.removeTerminalTask, hget, bind_eq_ok, refuseIf_eq_ok,
        exists_unit, pure, Except.pure, Except.ok.injEq] at h
      obtain ⟨_, rfl⟩ := h
      rw [McpServerRegistry.tasks_bumpRevision, BTreeMap.get_erase] at hget'
      split at hget'
      · cases hget'
      · exact ⟨task', hget', .refl task'⟩
    | progress made =>
      simp only [TaskReport.apply, McpServerRegistry.recordProgress, hfound, ok_bind, bind_eq_ok, refuseIf_eq_ok,
        exists_unit, pure, Except.pure, Except.ok.injEq] at h
      obtain ⟨_, _, _, rfl⟩ := h
      exact onward_updateTask hget hget' fun _ => ⟨rfl, rfl, fun hrunning => hrunning, .inl rfl⟩
    | result value isError =>
      simp only [TaskReport.apply, McpServerRegistry.completeToolResult, McpServerRegistry.finishTask, hfound, ok_bind,
        bind_eq_ok, refuseIf_eq_ok, exists_unit, pure, Except.pure, Except.ok.injEq, Classical.not_not] at h
      obtain ⟨hworking, rfl⟩ := h
      refine onward_updateTask hget hget' fun _ => ⟨rfl, rfl, fun _ => by rw [hworking]; rfl, .inr ⟨?_, ?_⟩⟩
      · cases isError <;> rfl
      · rintro _ ⟨⟩
        exact hfits value isError rfl
    | failed error =>
      simp only [TaskReport.apply, McpServerRegistry.failTask, McpServerRegistry.finishTask, hfound, ok_bind,
        bind_eq_ok, refuseIf_eq_ok, exists_unit, pure, Except.pure, Except.ok.injEq, Classical.not_not] at h
      obtain ⟨hworking, rfl⟩ := h
      exact onward_updateTask hget hget' fun _ =>
        ⟨rfl, rfl, fun _ => by rw [hworking]; rfl, .inr ⟨rfl, by rintro _ ⟨⟩⟩⟩

variable [JsonSchema] [Digest]

omit [JsonSchema] in
theorem onward_underNewContract {tool : McpToolDefinition} {revision : Nat} (task : McpTask) :
    Onward Fits task (McpServerRegistry.underNewContract tool revision task) := by
  unfold McpServerRegistry.underNewContract
  dsimp only
  split
  · exact .refl task
  · next hchanges =>
    rw [not_or, not_or] at hchanges
    exact ⟨rfl, rfl, fun _ => by simpa using hchanges.2.1, .inl rfl⟩

theorem onward_resumed {existing : McpTask} {approved : Bool} (hwaits : existing.status = .inputRequired)
    (revision : Nat) :
    Onward Fits existing { reg.resumed existing approved with updatedRevision := revision } := by
  have hrunning : existing.status.isTerminal = false := by
    rw [hwaits]
    rfl
  unfold McpServerRegistry.resumed
  split
  · split
    · exact ⟨rfl, rfl, fun _ => hrunning, .inl rfl⟩
    · exact ⟨rfl, rfl, fun _ => hrunning, .inl rfl⟩
  · exact ⟨rfl, rfl, fun _ => hrunning, .inl rfl⟩

/-- **What an operation of the server makes of the tasks.** -/
theorem Tending.onward {op : RegistryOp} (h : Tending Fits op) (hget' : (op.apply reg).tasks[id]? = some task') :
    ∃ task, reg.tasks[id]? = some task ∧ Onward Fits task task' := by
  cases h with
  | upsertTool tool =>
    rcases RegistryOp.upsertTool_cases reg tool with hreg | ⟨_, _, hreg⟩
    · rw [hreg] at hget'
      exact ⟨task', hget', .refl task'⟩
    · rw [hreg, RegistryOp.get_renewed, Option.map_eq_some_iff] at hget'
      obtain ⟨task, hget, rfl⟩ := hget'
      exact ⟨task, hget, onward_underNewContract task⟩
  | resumeApproval taskId response caller =>
    rcases resumeApproval_cases reg caller.correlation caller.principal taskId response with
      ⟨hreg, _⟩ | ⟨existing, hget, _, hanswerable, hreg, _⟩
    · rw [RegistryOp.apply, hreg] at hget'
      exact ⟨task', hget', .refl task'⟩
    · rw [RegistryOp.apply, hreg] at hget'
      exact onward_updateTask hget hget' (onward_resumed hanswerable.awaits)
  | cancelTask taskId caller =>
    rcases cancelTask_cases reg caller.correlation caller.principal taskId with
      ⟨hreg, _⟩ | ⟨existing, hget, _, hrunning, hreg, _⟩
    · rw [RegistryOp.apply, hreg] at hget'
      exact ⟨task', hget', .refl task'⟩
    · rw [RegistryOp.apply, hreg] at hget'
      unfold McpServerRegistry.afterCancelRequest at hget'
      split at hget'
      · exact onward_updateTask hget hget' fun _ => ⟨rfl, rfl, fun _ => hrunning, .inl rfl⟩
      · exact ⟨task', hget', .refl task'⟩
  | @report taskId told hfits _ =>
    cases happly : told.apply reg taskId with
    | error e =>
      rw [RegistryOp.apply, happly] at hget'
      exact ⟨task', hget', .refl task'⟩
    | ok reg' =>
      rw [RegistryOp.apply, happly] at hget'
      exact onward_report happly hfits hget'

/-- What a call makes of the tasks. -/
theorem onward_called {request : McpToolCallRequest} {caller : Caller}
    (hget' : ((RegistryOp.callTool request caller).apply reg).tasks[id]? = some task') :
    reg.tasks[id]? = some task' ∨
      id = taskIdOf reg.nextTaskSequence ∧ task'.taskId = id ∧ task'.result = none := by
  rcases callTool_cases reg caller.correlation caller.principal request with
    ⟨hreg, _⟩ | ⟨tool, owner, task, _, _, _, htask, hreg, _⟩
  · rw [RegistryOp.apply, hreg] at hget'
    exact .inl hget'
  · rw [RegistryOp.apply, hreg, BTreeMap.get_insert] at hget'
    by_cases heq : taskIdOf reg.nextTaskSequence = id
    · rw [if_pos heq, Option.some.injEq] at hget'
      rw [← hget', htask]
      exact .inr ⟨heq.symm, heq, rfl⟩
    · rw [if_neg heq] at hget'
      exact .inl hget'

end Tasks

/-! ### Many servers on one store -/

/-- What a store may do. It replaces a state only where the revision is the expected one, and its answer may get
lost. -/
inductive StoreServes : Option McpServerState → (query : StoreQuery) → query.Answer → Option McpServerState → Prop where
  | loaded (stored : Option McpServerState) : StoreServes stored .load (.ok stored) stored
  | unreadable (stored : Option McpServerState) (e : ProtocolError) : StoreServes stored .load (.error e) stored
  | replaced {stored : Option McpServerState} {expected : Option Nat} (next : McpServerState)
    (current : stored.map (·.storageRevision) = expected) :
    StoreServes stored (.compareAndSwap expected next) (.ok ()) (some next)
  | unacknowledged {stored : Option McpServerState} {expected : Option Nat} (next : McpServerState)
    (current : stored.map (·.storageRevision) = expected) (e : ProtocolError) :
    StoreServes stored (.compareAndSwap expected next) (.error e) (some next)
  | refused (stored : Option McpServerState) (expected : Option Nat) (next : McpServerState) (e : ProtocolError) :
    StoreServes stored (.compareAndSwap expected next) (.error e) stored

/-- What a client starts: a server, or a call of one. -/
inductive ServerTask where
  | new (registry : McpServerRegistry)
  | call (server : McpJsonRpcServer) (clock : Readings) (asked : ServerCall)

section

variable [Digest] [JsonSchema] [JsonReader]

/-- `McpJsonRpcServer::new`: the registry is stored where nothing is stored yet. -/
def newServer (registry : McpServerRegistry) : Program Unit := do
  let answer : ProtocolResult (Option McpServerState) ← liftM StoreQuery.load.ask
  match ← Program.check answer with
  | some existing => Program.check existing.validate
  | none =>
    let answer : ProtocolResult Unit ←
      liftM (StoreQuery.compareAndSwap none (initial registry)).ask
    Program.check answer

/-- The program of a task. -/
def ServerTask.program : ServerTask → Prog StoreQuery StoreQuery.Answer (ProtocolResult Reply)
  | .new registry => ((fun _ => Reply.done) <$> newServer registry).run
  | .call server clock asked => (asked.program server clock).run

/-- A system of servers, each of which is at some point of a call. -/
abbrev Servers (ι : Type) : Type :=
  Clients (Option McpServerState) ι StoreQuery StoreQuery.Answer (ProtocolResult Reply)

/-- A run of servers from an empty store. -/
abbrev ServersRun {ι : Type} [DecidableEq ι] (log : List (ClientEvent ι ServerTask StoreQuery StoreQuery.Answer))
    (servers : Servers ι) : Prop :=
  Path (Clients.Step StoreServes ServerTask.program) (.idle none (.ok .done)) log servers

/-- What a task brings fits: the state that it creates, and the result that it takes. -/
def ServerTask.Fit (Fits : Value → Prop) (I : McpServerState → Prop) : ServerTask → Prop
  | .new registry => I (.initial registry)
  | .call server _ asked => asked.Fit Fits server

omit [Digest] [JsonSchema] [JsonReader] in
theorem relies_storing {I : McpServerState → Prop} :
    Clients.Relies (storing I) (fun stored => ∀ state, stored = some state → I state) StoreServes := by
  intro _ stored query answer stored' hstored hallows hserves
  cases hserves with
  | loaded =>
    refine ⟨hstored, fun state hstate => ?_⟩
    exact hstored state (Except.ok.inj hstate)
  | unreadable e => exact ⟨hstored, by rintro _ ⟨⟩⟩
  | replaced next _ =>
    refine ⟨?_, trivial⟩
    rintro _ ⟨⟩
    exact hallows
  | unacknowledged next _ e =>
    refine ⟨?_, trivial⟩
    rintro _ ⟨⟩
    exact hallows
  | refused next e => exact ⟨hstored, trivial⟩

/-- **What every step keeps is an invariant**, of any interleaving of the calls of any servers. -/
theorem Upheld.run {ι : Type} [DecidableEq ι] {Fits : Value → Prop} {I : McpServerState → Prop} (hI : Upheld Fits I)
    {log : List (ClientEvent ι ServerTask StoreQuery StoreQuery.Answer)} {servers : Servers ι}
    (hrun : ServersRun log servers) (hfit : ∀ task, (∃ e ∈ log, e.start = some task) → task.Fit Fits I) :
    ∀ state, servers.store = some state → I state := by
  refine (Clients.Guarded.run (M := storing I) (I := fun stored => ∀ state, stored = some state → I state)
    (Clients.guarded_idle (by rintro _ ⟨⟩)) relies_storing (fun task htask => ⟨(), ?_⟩) hrun).store
  have hfits := hfit task htask
  have hstores : Stores I (ExceptT.mk task.program) := by
    cases task with
    | call server clock asked => exact stores_program hI hfits
    | new registry =>
      refine @Stores.map I _ _ (newServer registry) (fun _ => Reply.done) ?_
      unfold newServer
      refine Passes.perform_bind trivial fun answer _ => Stores.check fun found _ => ?_
      cases found with
      | some existing => exact Stores.checked
      | none => exact Passes.perform_bind hfits fun _ _ => Stores.checked
  exact Holds.mono hstores fun _ _ _ => trivial

omit [Digest] [JsonSchema] [JsonReader] in
theorem storeServes_storeAnswer (stored : Option McpServerState) (query : StoreQuery) :
    StoreServes stored query (storeAnswer query stored).1 (storeAnswer query stored).2 := by
  cases query with
  | load => exact .loaded stored
  | compareAndSwap expected next =>
    by_cases hcurrent : stored.map (·.storageRevision) = expected
    · have hanswer : storeAnswer (.compareAndSwap expected next) stored = (.ok (), some next) := if_pos hcurrent
      rw [hanswer]
      exact .replaced next hcurrent
    · have hanswer : storeAnswer (.compareAndSwap expected next) stored =
          (.error (.conflict "MCP server state changed concurrently"), stored) := if_neg hcurrent
      rw [hanswer]
      exact .refused stored expected next _

/-- A run goes on with a task that runs alone, on a store that does what it is told. -/
theorem exists_alone {ι : Type} [DecidableEq ι] {log : List (ClientEvent ι ServerTask StoreQuery StoreQuery.Answer)}
    {servers : Servers ι} (hrun : ServersRun log servers) (client : ι) (task : ServerTask) :
    ∃ log' servers', ServersRun (log ++ log') servers' ∧
      servers'.store = (task.program.runOn storeAnswer servers.store).2 ∧
      ∀ started, (∃ e ∈ log', e.start = some started) → started = task := by
  obtain ⟨log', hnone, halone⟩ := @Clients.alone _ _ _ _ _ ServerTask _ StoreServes ServerTask.program
    ⟨servers.store, Function.update servers.running client task.program⟩ storeAnswer storeServes_storeAnswer client
    task.program (Function.update_self ..)
  refine ⟨.started client task :: log', _, hrun.append (.cons (.start servers client task) halone), rfl, ?_⟩
  rintro started ⟨e, he, hstart⟩
  rcases List.mem_cons.mp he with rfl | he
  · exact (Option.some.inj hstart).symm
  · rw [hnone e he] at hstart
    cases hstart

/-- What is stored after tasks that run one after the other, on a store that does what it is told. -/
def storedAfterAll (stored : Option McpServerState) (tasks : List ServerTask) : Option McpServerState :=
  tasks.foldl (fun stored task => (task.program.runOn storeAnswer stored).2) stored

theorem storedAfterAll_append (stored : Option McpServerState) (tasks : List ServerTask) (task : ServerTask) :
    storedAfterAll stored (tasks ++ [task]) = (task.program.runOn storeAnswer (storedAfterAll stored tasks)).2 := by
  unfold storedAfterAll
  rw [List.foldl_append, List.foldl_cons, List.foldl_nil]

/-- A run goes on with these tasks. -/
theorem exists_in_turn {ι : Type} [DecidableEq ι] {log : List (ClientEvent ι ServerTask StoreQuery StoreQuery.Answer)}
    {servers : Servers ι} (hrun : ServersRun log servers) (client : ι) (tasks : List ServerTask) :
    ∃ log' servers', ServersRun (log ++ log') servers' ∧ servers'.store = storedAfterAll servers.store tasks ∧
      ∀ task, (∃ e ∈ log', e.start = some task) → task ∈ tasks := by
  induction tasks generalizing log servers with
  | nil => exact ⟨[], servers, by rwa [List.append_nil], rfl, by rintro _ ⟨_, he, _⟩; cases he⟩
  | cons first rest ih =>
    obtain ⟨log₁, servers₁, hrun₁, hstore₁, hfirst⟩ := exists_alone hrun client first
    obtain ⟨log₂, servers₂, hrun₂, hstore₂, hrest⟩ := ih hrun₁
    refine ⟨log₁ ++ log₂, servers₂, by rwa [← List.append_assoc], ?_, ?_⟩
    · rw [hstore₂, hstore₁]
      rfl
    · rintro task ⟨e, he, hstart⟩
      rcases List.mem_append.mp he with he | he
      · rw [hfirst task ⟨e, he, hstart⟩]
        exact List.mem_cons_self
      · exact List.mem_cons_of_mem _ (hrest task ⟨e, he, hstart⟩)

end

end AikitRuntime.Mcp
