import AikitRuntime.Governance.Authorization

/-!
# Many authorizations over shared grants

Any number of calls are authorized at once, by any configurations. What they share, the caches of
grants and the registries of bindings, changes between two questions of one call: other calls
install grants, runs are cleared and retired. `Happens` is one step of all this, and the log lists
the steps that were taken.
-/

namespace AikitRuntime.Governance

open Library Durability

/-! ### One call -/

/-- What a call asked, and what it was told. -/
abbrev Asked : Type := List (Event Query Query.Answer)

/-- A hook blocked the call, or timed out. -/
inductive Blocks : Event Query Query.Answer → Prop where
  | blocked (hook : Nat) (ctx : PreToolUseContext) (reason : String) :
    Blocks ⟨.preToolUse hook ctx, some (HookOutcome.block reason)⟩
  | timedOut (hook : Nat) (ctx : PreToolUseContext) : Blocks ⟨.preToolUse hook ctx, none⟩

/-- The question goes to a hook. -/
def Query.isHook : Query → Bool
  | .preToolUse _ _ => true
  | _ => false

/-- No hook blocked the call. -/
def Unblocked (asked : Asked) : Prop := ∀ e ∈ asked, ¬ Blocks e

/-- The approver allowed the call, with these updates. -/
def Approves (ctx : AuthorizationContext) (updates : List PermissionUpdate)
    (e : Event Query Query.Answer) : Prop :=
  ∃ approver input updated,
    e = ⟨.approve approver (ctx.approvalRequest input), ApprovalDecision.allow updated updates⟩

/-- The grant is one that the approver of the call made. -/
structure GrantedBy (ctx : AuthorizationContext) (asked : Asked) (grant : ApprovedPermission) : Prop where
  runId : grant.runId = ctx.runId
  tool : grant.tool = ctx.tool
  approved : ∃ updates, grant.scope ∈ updates ∧ ∃ e ∈ asked, Approves ctx updates e

/-- What is asked of the grants, and told. -/
def cachedRead (g : Governance) (ctx : AuthorizationContext) (input : Value) (source : String) :
    Event Query Query.Answer :=
  ⟨.matchingSource g.approvedPermissions ctx.runId ctx.tool input, some (some source)⟩

/-- Why a call may run with an input, by what it was told. -/
structure Justified (g : Governance) (ctx : AuthorizationContext) (input : Value) (asked : Asked) :
    Prop where
  notDenied : ¬ (g.evaluatePermission ctx.runId ctx.tool input).outcome.Denies
  approved : (g.evaluatePermission ctx.runId ctx.tool input).outcome = .ask →
    (∃ updates, ∃ e ∈ asked, Approves ctx updates e) ∨ ∃ source, cachedRead g ctx input source ∈ asked
  unblocked : Unblocked asked

/-- A report that allows an input is justified. -/
def Justifies (g : Governance) (ctx : AuthorizationContext) (report : AuthorizationReport)
    (asked : Asked) : Prop :=
  ∀ input, report.authorization = .allowed input → Justified g ctx input asked

/-- Remembers what was asked, and allows only grants of the call's approver, in its own cache. -/
def remembers (g : Governance) (ctx : AuthorizationContext) : Monitor Query Query.Answer Asked where
  allows asked op := ∀ cache grants, op = .install cache grants →
    cache = g.approvedPermissions ∧ ∀ grant ∈ grants, GrantedBy ctx asked grant
  admits _ _ _ := True
  step asked op answer := asked ++ [⟨op, answer⟩]

variable {g : Governance} {ctx : AuthorizationContext} {asked : Asked}

@[simp] theorem remembers_step (op : Query) (answer : op.Answer) :
    (remembers g ctx).step asked op answer = asked ++ [⟨op, answer⟩] := rfl

theorem remembers_after (new : Asked) : (remembers g ctx).after asked new = asked ++ new := by
  induction new generalizing asked with
  | nil => exact (List.append_nil asked).symm
  | cons e rest ih =>
    rw [Monitor.after_cons, ih, remembers_step, List.append_assoc]
    rfl

variable {op : Query}

/-- A question that is no installation is allowed. -/
theorem remembers_allows (h : ∀ cache grants, op ≠ .install cache grants) :
    (remembers g ctx).allows asked op := fun cache grants heq => absurd heq (h cache grants)

variable {e : Event Query Query.Answer}

theorem Unblocked.concat (h : Unblocked asked) (he : ¬ Blocks e) :
    Unblocked (asked ++ [e]) := by
  intro a ha
  rcases List.mem_append.mp ha with ha | ha
  · exact h a ha
  · rwa [List.mem_singleton.mp ha]

/-- Only the answer of a hook blocks. -/
theorem Unblocked.told (h : Unblocked asked) (hop : op.isHook = false) (answer : op.Answer) :
    Unblocked (asked ++ [⟨op, answer⟩]) := by
  refine h.concat ?_
  rintro (_ | _) <;> cases hop

/-- **The hooks**, by induction on those that are left: unless they block, none did. -/
theorem runHooks_holds (hook : Nat) (matchers : List HookMatcher) (seen : PreToolUseContext)
    (rewritten : Bool) (h : Unblocked asked) :
    Holds (remembers g ctx)
      (fun outcome asked' => asked <+: asked' ∧ (Unblocked asked' ∨ ∃ reason, outcome = .block reason))
      (runHooks hook matchers seen rewritten) asked := by
  induction matchers generalizing hook seen rewritten asked with
  | nil => exact Holds.pure ⟨List.prefix_rfl, .inl h⟩
  | cons matcher rest ih =>
    unfold runHooks
    refine Holds.ite (fun _ => ?_) fun _ => ih _ _ _ h
    refine Holds.perform_bind (remembers_allows nofun) fun answer _ => ?_
    rw [remembers_step]
    have goes {outcome : HookOutcome} (hne : ∀ reason, outcome ≠ .block reason) :
        Unblocked (asked ++ [⟨.preToolUse hook seen, some outcome⟩]) := by
      refine h.concat ?_
      rintro ⟨⟩
      exact hne _ rfl
    match answer with
    | none => exact Holds.pure ⟨List.prefix_append _ _, .inr ⟨_, rfl⟩⟩
    | some (.block reason) => exact Holds.pure ⟨List.prefix_append _ _, .inr ⟨_, rfl⟩⟩
    | some (.rewrite input) =>
      refine (ih _ _ _ (goes (by rintro _ ⟨⟩))).mono fun _ _ ht => ⟨?_, ht.2⟩
      exact (List.prefix_append _ _).trans ht.1
    | some .continue =>
      refine (ih _ _ _ (goes (by rintro _ ⟨⟩))).mono fun _ _ ht => ⟨?_, ht.2⟩
      exact (List.prefix_append _ _).trans ht.1

/-- A report of a denial needs no justification. -/
theorem justifies_of_denied {report : AuthorizationReport} {message : String} {interrupt : Bool}
    (h : report.authorization = .denied message interrupt) : Justifies g ctx report asked := by
  intro input hallowed
  rw [h] at hallowed
  cases hallowed

variable {updates : List PermissionUpdate}

theorem grantsFor_granted
    (he : e ∈ asked) (happroves : Approves ctx updates e) (source : String) (approved : Value) :
    ∀ grant ∈ grantsFor ctx source approved updates, GrantedBy ctx asked grant := by
  intro grant hgrant
  obtain ⟨update, hupdate, rfl⟩ := List.mem_map.mp hgrant
  exact ⟨rfl, rfl, updates, hupdate, e, he, happroves⟩

/-- What is approved is granted, where there is something to grant. -/
theorem installs_holds
    (he : e ∈ asked) (happroves : Approves ctx updates e) (h : Unblocked asked)
    (source : String) (approved : Value) (before final : String)
    (hnot : ¬ (g.evaluatePermission ctx.runId ctx.tool approved).outcome.Denies) :
    Holds (remembers g ctx) (Justifies g ctx)
      (if updates.isEmpty then pure (askAllowed source approved final updates) else do
        let answer : Option Unit ← Prog.perform (Query.install g.approvedPermissions
          (grantsFor ctx source approved updates))
        match answer with
        | none => pure (approvalStateError before)
        | some () => pure (askAllowed source approved final updates)) asked := by
  have justified {asked' : Asked} (hsub : asked ⊆ asked') (hunblocked : Unblocked asked') :
      Justifies g ctx (askAllowed source approved final updates) asked' := by
    rintro _ ⟨⟩
    exact ⟨hnot, fun _ => .inl ⟨updates, e, hsub he, happroves⟩, hunblocked⟩
  refine Holds.ite (fun _ => Holds.pure (justified (List.Subset.refl _) h)) fun _ => ?_
  refine Holds.perform_bind ?_ fun answer _ => ?_
  · rintro cache grants ⟨⟩
    exact ⟨rfl, grantsFor_granted he happroves source approved⟩
  · cases answer with
    | none => exact Holds.pure (justifies_of_denied rfl)
    | some _ => exact Holds.pure (justified (List.subset_append_left _ _) (h.told rfl _))

/-- **The end of an approval**: the input is not denied, and the grants are the approver's. -/
theorem grantApproval_holds
    (he : e ∈ asked) (happroves : Approves ctx updates e) (h : Unblocked asked)
    (source : String) (approved : Value) (before final : String) :
    Holds (remembers g ctx) (Justifies g ctx)
      (g.grantApproval ctx source approved before final updates) asked := by
  have goes := installs_holds (g := g) he happroves h source approved before final
  unfold grantApproval
  dsimp only
  cases hrecheck : (g.evaluatePermission ctx.runId ctx.tool approved).outcome with
  | deny reason => exact Holds.pure (justifies_of_denied rfl)
  | allow => exact goes (hrecheck ▸ Outcome.not_denies_allow)
  | ask => exact goes (hrecheck ▸ Outcome.not_denies_ask)

theorem applyApproval_holds
    (he : e ∈ asked) (happroves : Approves ctx updates e) (h : Unblocked asked)
    (source : String) (effective : Value) (before : String) (updated : Option Value) :
    Holds (remembers g ctx) (Justifies g ctx)
      (g.applyApproval ctx source effective before updated updates) asked := by
  cases updated with
  | none => exact grantApproval_holds he happroves h _ _ _ _
  | some input =>
    refine Holds.bind (runHooks_holds _ _ _ _ h) fun outcome asked' houtcome => ?_
    obtain ⟨hfront, hunblocked⟩ := houtcome
    have he' := hfront.subset he
    cases outcome with
    | block reason => exact Holds.pure (justifies_of_denied rfl)
    | rewrite final => exact grantApproval_holds he' happroves (hunblocked.resolve_right nofun) _ _ _ _
    | «continue» => exact grantApproval_holds he' happroves (hunblocked.resolve_right nofun) _ _ _ _

theorem askApprover_holds (h : Unblocked asked) (source : String) (effective : Value)
    (before : String) :
    Holds (remembers g ctx) (Justifies g ctx) (g.askApprover ctx source effective before) asked := by
  unfold askApprover
  cases g.approver with
  | none => exact Holds.pure (justifies_of_denied rfl)
  | some approver =>
    refine Holds.perform_bind (remembers_allows nofun) fun decision _ => ?_
    match decision with
    | .deny message interrupt => exact Holds.pure (justifies_of_denied rfl)
    | .allow updated updates =>
      exact applyApproval_holds (List.mem_append_right _ (List.mem_singleton_self _))
        ⟨approver, effective, updated, rfl⟩ (h.told rfl _) _ _ _ _

theorem ask_holds (h : Unblocked asked) (source : String) (effective : Value) (before : String)
    (hask : (g.evaluatePermission ctx.runId ctx.tool effective).outcome = .ask) :
    Holds (remembers g ctx) (Justifies g ctx) (g.ask ctx source effective before) asked := by
  refine Holds.perform_bind (remembers_allows nofun) fun answer _ => ?_
  match answer with
  | none => exact Holds.pure (justifies_of_denied rfl)
  | some none => exact askApprover_holds (h.told rfl _) _ _ _
  | some (some granted) =>
    refine Holds.pure ?_
    rintro _ ⟨⟩
    exact
      { notDenied := hask ▸ Outcome.not_denies_ask
        approved := fun _ => .inr ⟨granted, List.mem_append_right _ (List.mem_singleton_self _)⟩
        unblocked := h.told rfl _ }

theorem permit_holds (h : Unblocked asked) (effective : Value) (before : String) :
    Holds (remembers g ctx) (Justifies g ctx) (g.permit ctx effective before) asked := by
  unfold permit
  dsimp only
  cases houtcome : (g.evaluatePermission ctx.runId ctx.tool effective).outcome with
  | deny reason => exact Holds.pure (justifies_of_denied rfl)
  | ask => exact ask_holds h _ _ _ houtcome
  | allow =>
    refine Holds.pure ?_
    rintro _ ⟨⟩
    exact ⟨houtcome ▸ Outcome.not_denies_allow, fun hask => by simp [houtcome] at hask, h⟩

theorem decideCall_holds (h : Unblocked asked) :
    Holds (remembers g ctx) (Justifies g ctx) (g.decideCall ctx) asked := by
  refine Holds.bind (runHooks_holds _ _ _ _ h) fun outcome asked' houtcome => ?_
  cases outcome with
  | block reason => exact Holds.pure (justifies_of_denied rfl)
  | rewrite input => exact permit_holds (houtcome.2.resolve_right nofun) _ _
  | «continue» => exact permit_holds (houtcome.2.resolve_right nofun) _ _

section

variable [Digest]

/-- The check of the binding asks no hook. -/
theorem validateAuthorizationBinding_holds (h : Unblocked asked) (runId : String) :
    Holds (remembers g ctx) (fun _ asked' => Unblocked asked')
      (g.validateAuthorizationBinding runId) asked := by
  unfold validateAuthorizationBinding
  cases g.bindingViolation with
  | some reason => exact Holds.pure h
  | none =>
    refine Holds.perform_bind (remembers_allows nofun) fun answer _ => ?_
    have h' : Unblocked (asked ++ [⟨.registered g.durableBindings runId, answer⟩]) := h.told rfl _
    match answer with
    | none => exact Holds.pure h'
    | some registered =>
      show Holds _ _ (g.checkBinding runId registered) _
      unfold checkBinding
      cases g.bindingFor registered with
      | error reason => exact Holds.pure h'
      | ok binding =>
        cases binding with
        | none => exact Holds.pure h'
        | some binding =>
          dsimp only
          cases g.checkIdentity runId binding with
          | error reason => exact Holds.pure h'
          | ok =>
            show Holds _ _ (g.checkDurableRun runId binding) _
            unfold checkDurableRun
            cases g.durableRun with
            | none => exact Holds.pure h'
            | some run =>
              refine Holds.perform_bind (remembers_allows nofun) fun answer _ => ?_
              match answer with
              | none => exact Holds.pure (h'.told rfl _)
              | some run => exact Holds.pure (h'.told rfl _)

/-- **One call**, in any surroundings. -/
theorem authorize_justified (g : Governance) (ctx : AuthorizationContext) :
    Holds (remembers g ctx) (Justifies g ctx) (g.authorizeDetailedWithContext ctx) [] := by
  have hnone : Unblocked [] := fun _ he => absurd he List.not_mem_nil
  refine Holds.bind (validateAuthorizationBinding_holds hnone ctx.runId) fun valid _ h => ?_
  cases valid with
  | error reason => exact Holds.pure (justifies_of_denied rfl)
  | ok => exact decideCall_holds h

end

/-! ### Many calls -/

/-- A call that is being authorized, or was. -/
structure Call where
  governance : Governance
  ctx : AuthorizationContext
  asked : Asked
  rest : Asking AuthorizationReport

/-- What happens. A call to the caches or the registries that fails changes nothing, and is not
listed. -/
inductive Act where
  /-- A configuration gets a cache of its own: `new`, `fork_for_run`. -/
  | fork (g : Governance)
  | authorize (g : Governance) (ctx : AuthorizationContext)
  /-- A question of a call is answered. -/
  | told (call : Nat) (e : Event Query Query.Answer)
  | register (g : Governance) (binding : GovernanceBinding)
  /-- `clear_run_permissions`. -/
  | clear (g : Governance) (runId : String)
  | retire (g : Governance) (run : RunState)

/-- The grants of a run in a cache are removed. -/
def Act.Forgets (cache : Nat) (runId : String) : Act → Prop
  | .clear g cleared => g.approvedPermissions = cache ∧ cleared = runId
  | .retire g run => g.approvedPermissions = cache ∧ run.runId = runId
  | _ => False

/-- The calls, and what they share. -/
structure System where
  caches : Nat → ApprovedPermissionSet
  registries : Nat → BTreeMap GovernanceBinding
  /-- The caches below this one were given out. -/
  fresh : Nat
  calls : List Call

namespace System

/-- Nothing has happened. -/
def start : System := ⟨fun _ => ⟨[]⟩, fun _ => ∅, 0, []⟩

/-- The answers that a question may get: what is shared is as it is, unless its lock is poisoned, and
hooks, approvers and durable runs answer anything. -/
def Answers (s : System) : (op : Query) → op.Answer → Prop
  | .registered registry runId, answer => answer = none ∨ answer = some (s.registries registry)[runId]?
  | .matchingSource cache runId tool input, answer =>
    answer = none ∨ answer = some ((s.caches cache).matchingSource runId tool input)
  | .durableRun _, _ | .preToolUse _ _, _ | .approve _ _, _ | .install _ _, _ => True

/-- The caches after a question was answered. -/
def cachesAfter (s : System) : (op : Query) → op.Answer → Nat → ApprovedPermissionSet
  | .install cache grants, some () =>
    Function.update s.caches cache (grants.foldl ApprovedPermissionSet.insert (s.caches cache))
  | _, _ => s.caches

end System

/-- One step. -/
inductive Happens [Digest] (s : System) : Act → System → Prop where
  /-- The configuration is `g.forkForRun s.fresh`. -/
  | fork (g : Governance) : Happens s (.fork g) { s with fresh := s.fresh + 1 }
  | authorize {g : Governance} (hcache : g.approvedPermissions < s.fresh) (ctx : AuthorizationContext) :
    Happens s (.authorize g ctx)
      { s with calls := s.calls ++ [⟨g, ctx, [], g.authorizeDetailedWithContext ctx⟩] }
  | told {i : Nat} {c : Call} {e : Event Query Query.Answer} {rest : Asking AuthorizationReport}
    (hcall : s.calls[i]? = some c) (hstep : Prog.Step c.rest e rest) (hanswers : s.Answers e.op e.answer) :
    Happens s (.told i e)
      { s with
        caches := s.cachesAfter e.op e.answer
        calls := s.calls.set i { c with asked := c.asked ++ [e], rest } }
  | register {g : Governance} {binding : GovernanceBinding} {bindings : BTreeMap GovernanceBinding}
    (h : registerDurableBinding binding (s.registries g.durableBindings) = .ok bindings) :
    Happens s (.register g binding)
      { s with registries := Function.update s.registries g.durableBindings bindings }
  | clear (g : Governance) (runId : String) :
    Happens s (.clear g runId)
      { s with
        caches := Function.update s.caches g.approvedPermissions
          ((s.caches g.approvedPermissions).forget runId) }
  | retire {g : Governance} {run : RunState} {bindings : BTreeMap GovernanceBinding}
    {approved : ApprovedPermissionSet}
    (h : retireDurableRun run (s.registries g.durableBindings) (s.caches g.approvedPermissions) =
      .ok (bindings, approved)) :
    Happens s (.retire g run)
      { s with
        registries := Function.update s.registries g.durableBindings bindings
        caches := Function.update s.caches g.approvedPermissions approved }

/-! ### The account of the caches -/

/-- The approver of a call allowed it to make this grant. -/
def ApprovedBefore (log : List Act) (i : Nat) (grant : ApprovedPermission) : Prop :=
  ∃ approver request updated updates,
    .told i ⟨.approve approver request, ApprovalDecision.allow updated updates⟩ ∈ log ∧
    request.runId = grant.runId ∧ request.tool = grant.tool ∧ grant.scope ∈ updates

/-- The grant was put into the cache by a call whose approver made it, and was neither cleared nor
retired since. -/
def Stands (log : List Act) (cache : Nat) (grant : ApprovedPermission) : Prop :=
  ∃ before i grants after,
    log = before ++ .told i ⟨.install cache grants, some ()⟩ :: after ∧ grant ∈ grants ∧
    ApprovedBefore before i grant ∧ ∀ act ∈ after, ¬ act.Forgets cache grant.runId

/-- The log tells of the calls, of every grant in the caches, and of what was read of them. -/
structure System.Sound [Digest] (log : List Act) (s : System) : Prop where
  path : ∀ (i : Nat) c, s.calls[i]? = some c →
    Path Prog.Step (c.governance.authorizeDetailedWithContext c.ctx) c.asked c.rest
  told : ∀ (i : Nat) c, s.calls[i]? = some c → ∀ e ∈ c.asked, .told i e ∈ log
  grants : ∀ cache, ∀ grant ∈ (s.caches cache).grants, Stands log cache grant
  reads : ∀ before i cache runId tool input source after,
    log = before ++ .told i ⟨.matchingSource cache runId tool input, some (some source)⟩ :: after →
    ∃ grant, grant.covers runId tool input = true ∧ Stands before cache grant
  given : ∀ (i : Nat) c, s.calls[i]? = some c → c.governance.approvedPermissions < s.fresh
  fresh : ∀ cache, s.fresh ≤ cache → (s.caches cache).grants = []

variable {log : List Act} {cache : Nat} {grant : ApprovedPermission} {s t : System} {act : Act}

theorem Stands.goes_on (h : Stands log cache grant) (hact : ¬ act.Forgets cache grant.runId) :
    Stands (log ++ [act]) cache grant := by
  obtain ⟨before, i, grants, after, rfl, hmem, happroved, hkept⟩ := h
  refine ⟨before, i, grants, after ++ [act], by simp, hmem, happroved, fun a ha => ?_⟩
  rcases List.mem_append.mp ha with ha | ha
  · exact hkept a ha
  · rwa [List.mem_singleton.mp ha]

variable [Digest]

namespace System

theorem sound_start : Sound [] start where
  path _ _ h := by cases h
  told _ _ h := by cases h
  grants _ _ h := by cases h
  reads before _ _ _ _ _ _ _ h := by cases before <;> cases h
  given _ _ h := by cases h
  fresh _ _ := rfl

/-- What was read before still was. -/
theorem Sound.reads_goes_on (h : Sound log s)
    (hact : ∀ i cache runId tool input source,
      act = .told i ⟨.matchingSource cache runId tool input, some (some source)⟩ →
      ∃ grant, grant.covers runId tool input = true ∧ Stands log cache grant) :
    ∀ before i cache runId tool input source after,
      log ++ [act] = before ++ .told i ⟨.matchingSource cache runId tool input, some (some source)⟩ :: after →
      ∃ grant, grant.covers runId tool input = true ∧ Stands before cache grant := by
  intro before i cache runId tool input source after heq
  rcases List.eq_nil_or_concat after with rfl | ⟨init, last, rfl⟩
  · obtain ⟨rfl, hlast⟩ := List.append_inj' heq rfl
    exact hact i cache runId tool input source (List.singleton_inj.mp hlast)
  · rw [List.concat_eq_append, ← List.cons_append, ← List.append_assoc] at heq
    exact h.reads _ _ _ _ _ _ _ _ (List.append_inj' heq rfl).1

/-- A step that leaves the calls, and only takes grants away. -/
theorem Sound.of_fewer (h : Sound log s) (hcalls : t.calls = s.calls) (hfresh : s.fresh ≤ t.fresh)
    (hno : ∀ i e, act ≠ .told i e)
    (hgrants : ∀ cache, ∀ grant ∈ (t.caches cache).grants,
      grant ∈ (s.caches cache).grants ∧ ¬ act.Forgets cache grant.runId) :
    Sound (log ++ [act]) t where
  path i c hc := h.path i c (hcalls ▸ hc)
  told i c hc e he := List.mem_append_left _ (h.told i c (hcalls ▸ hc) e he)
  grants cache grant hgrant :=
    (h.grants cache grant (hgrants cache grant hgrant).1).goes_on (hgrants cache grant hgrant).2
  reads := h.reads_goes_on fun _ _ _ _ _ _ heq => absurd heq (hno _ _)
  given i c hc := Nat.lt_of_lt_of_le (h.given i c (hcalls ▸ hc)) hfresh
  fresh cache hcache := by
    refine List.eq_nil_iff_forall_not_mem.mpr fun grant hgrant => ?_
    have hmem := (hgrants cache grant hgrant).1
    rw [h.fresh cache (Nat.le_trans hfresh hcache)] at hmem
    cases hmem

omit [Digest] in
/-- Forgetting takes away just the grants of the run. -/
theorem mem_update_forget {runId : String} (hact : ∀ cache run,
    act.Forgets cache run → g.approvedPermissions = cache ∧ runId = run) :
    ∀ cache, ∀ grant ∈ (Function.update s.caches g.approvedPermissions
        ((s.caches g.approvedPermissions).forget runId) cache).grants,
      grant ∈ (s.caches cache).grants ∧ ¬ act.Forgets cache grant.runId := by
  intro cache grant hgrant
  by_cases hcache : cache = g.approvedPermissions
  · subst hcache
    rw [Function.update_self, ApprovedPermissionSet.mem_forget] at hgrant
    exact ⟨hgrant.1, fun hforgets => hgrant.2 (hact _ _ hforgets).2.symm⟩
  · rw [Function.update_of_ne hcache] at hgrant
    exact ⟨hgrant, fun hforgets => hcache (hact _ _ hforgets).1.symm⟩

variable {c : Call} {i : Nat}

/-- The grants that a call installs are its approver's. -/
theorem Sound.approved (h : Sound log s) (hcall : s.calls[i]? = some c)
    {grants : List ApprovedPermission} {next : Option Unit → Asking AuthorizationReport}
    (hrest : c.rest = .call (.install cache grants) next) :
    cache = c.governance.approvedPermissions ∧ ∀ grant ∈ grants, ApprovedBefore log i grant := by
  have hadmitted : (remembers c.governance c.ctx).Admitted [] c.asked :=
    Monitor.admitted_of_forall _ (fun _ _ _ => trivial) _ _
  have hallows := (authorize_justified c.governance c.ctx).allowed (hrest ▸ h.path i c hcall) hadmitted
  obtain ⟨hcache, hgranted⟩ := hallows cache grants rfl
  refine ⟨hcache, fun grant hgrant => ?_⟩
  obtain ⟨hrun, htool, updates, hscope, e, he, approver, input, updated, rfl⟩ := hgranted grant hgrant
  rw [remembers_after, List.nil_append] at he
  exact ⟨approver, _, updated, updates, h.told i c hcall _ he, hrun.symm, htool.symm, hscope⟩

omit [Digest] in
/-- What the caches hold after an answer. -/
theorem mem_cachesAfter {op : Query} {answer : op.Answer}
    (h : grant ∈ (s.cachesAfter op answer cache).grants) :
    grant ∈ (s.caches cache).grants ∨
      ∃ grants, (⟨op, answer⟩ : Event Query Query.Answer) = ⟨.install cache grants, some ()⟩ ∧
        grant ∈ grants := by
  unfold cachesAfter at h
  split at h
  next installed grants =>
    by_cases hcache : cache = installed
    · subst hcache
      rw [Function.update_self] at h
      exact (ApprovedPermissionSet.mem_foldl_insert h).imp id fun hgrant => ⟨grants, rfl, hgrant⟩
    · rw [Function.update_of_ne hcache] at h
      exact .inl h
  next => exact .inl h

/-- A question is answered. -/
theorem Sound.answered (h : Sound log s)
    {rest : Asking AuthorizationReport} (hcall : s.calls[i]? = some c) (hstep : Prog.Step c.rest e rest)
    (hanswers : s.Answers e.op e.answer) :
    Sound (log ++ [.told i e])
      { s with
        caches := s.cachesAfter e.op e.answer
        calls := s.calls.set i { c with asked := c.asked ++ [e], rest } } := by
  -- a call is as it was, or the one that was answered
  have hcalls : ∀ (j : Nat) d, (s.calls.set i { c with asked := c.asked ++ [e], rest })[j]? = some d →
      s.calls[j]? = some d ∨ (j = i ∧ d = { c with asked := c.asked ++ [e], rest }) := by
    intro j d hd
    by_cases hij : i = j
    · subst hij
      rw [List.getElem?_set_self (List.getElem?_eq_some_iff.mp hcall).1] at hd
      exact .inr ⟨rfl, (Option.some.inj hd).symm⟩
    · rw [List.getElem?_set_ne hij] at hd
      exact .inl hd
  -- who puts grants into a cache has them from its approver
  have hinstalled : ∀ cache grants, e = ⟨.install cache grants, some ()⟩ →
      cache = c.governance.approvedPermissions ∧ ∀ grant ∈ grants, ApprovedBefore log i grant := by
    rintro cache grants rfl
    obtain ⟨rest', hrest, hnext⟩ : ∃ p, c.rest = p ∧ Prog.Step p
        ⟨.install cache grants, some ()⟩ rest := ⟨c.rest, rfl, hstep⟩
    cases hnext
    exact h.approved hcall hrest
  refine ⟨?_, ?_, ?_, ?_, ?_, ?_⟩
  · intro j d hd
    rcases hcalls j d hd with hd | ⟨rfl, rfl⟩
    · exact h.path j d hd
    · exact (h.path j c hcall).append (.single hstep)
  · intro j d hd a ha
    rcases hcalls j d hd with hd | ⟨rfl, rfl⟩
    · exact List.mem_append_left _ (h.told j d hd a ha)
    · rcases List.mem_append.mp ha with ha | ha
      · exact List.mem_append_left _ (h.told j c hcall a ha)
      · rw [List.mem_singleton.mp ha]
        exact List.mem_append_right _ (List.mem_singleton_self _)
  · intro cache grant hgrant
    rcases mem_cachesAfter hgrant with hgrant | ⟨grants, he, hgrant⟩
    · exact (h.grants cache grant hgrant).goes_on id
    · refine ⟨log, i, grants, [], ?_, hgrant, (hinstalled cache grants he).2 grant hgrant,
        fun _ ha => absurd ha List.not_mem_nil⟩
      rw [← he]
  · refine h.reads_goes_on ?_
    rintro _ cache runId tool input source ⟨⟩
    have hread := hanswers.resolve_left (by rintro ⟨⟩)
    obtain ⟨grant, hmem, hcovers, -⟩ :=
      ApprovedPermissionSet.matchingSource_eq_some (Option.some.inj hread).symm
    exact ⟨grant, hcovers, h.grants cache grant hmem⟩
  · intro j d hd
    rcases hcalls j d hd with hd | ⟨rfl, rfl⟩
    · exact h.given j d hd
    · exact h.given j c hcall
  · intro cache hcache
    refine List.eq_nil_iff_forall_not_mem.mpr fun grant hgrant => ?_
    rcases mem_cachesAfter hgrant with hgrant | ⟨grants, he, -⟩
    · rw [h.fresh cache hcache] at hgrant
      cases hgrant
    · have hlt := h.given i c hcall
      rw [← (hinstalled cache grants he).1] at hlt
      exact Nat.not_lt_of_le hcache hlt

/-- A call begins. -/
theorem Sound.begins (h : Sound log s) (hcache : g.approvedPermissions < s.fresh)
    (ctx : AuthorizationContext) :
    Sound (log ++ [.authorize g ctx])
      { s with calls := s.calls ++ [⟨g, ctx, [], g.authorizeDetailedWithContext ctx⟩] } := by
  have hcalls : ∀ (j : Nat) d,
      (s.calls ++ [⟨g, ctx, [], g.authorizeDetailedWithContext ctx⟩])[j]? = some d →
      s.calls[j]? = some d ∨ d = ⟨g, ctx, [], g.authorizeDetailedWithContext ctx⟩ := by
    intro j d hd
    rw [List.getElem?_append] at hd
    split at hd
    · exact .inl hd
    · exact .inr (List.mem_singleton.mp (List.mem_of_getElem? hd))
  refine ⟨?_, ?_, fun cache grant hgrant => (h.grants cache grant hgrant).goes_on id,
    h.reads_goes_on (by rintro _ _ _ _ _ _ ⟨⟩), ?_, h.fresh⟩
  · intro j d hd
    rcases hcalls j d hd with hd | rfl
    · exact h.path j d hd
    · exact .nil _
  · intro j d hd e he
    rcases hcalls j d hd with hd | rfl
    · exact List.mem_append_left _ (h.told j d hd e he)
    · cases he
  · intro j d hd
    rcases hcalls j d hd with hd | rfl
    · exact h.given j d hd
    · exact hcache

/-- **Every step keeps the account.** -/
theorem Sound.happens (h : Sound log s) (hstep : Happens s act t) : Sound (log ++ [act]) t := by
  cases hstep with
  | fork g => exact h.of_fewer rfl (Nat.le_succ _) (by rintro _ _ ⟨⟩) fun _ _ hgrant => ⟨hgrant, id⟩
  | authorize hcache ctx => exact h.begins hcache ctx
  | told hcall hstep hanswers => exact h.answered hcall hstep hanswers
  | register _ => exact h.of_fewer rfl (Nat.le_refl _) (by rintro _ _ ⟨⟩) fun _ _ hgrant => ⟨hgrant, id⟩
  | clear g runId =>
    exact h.of_fewer rfl (Nat.le_refl _) (by rintro _ _ ⟨⟩)
      (mem_update_forget fun _ _ hforgets => hforgets)
  | @retire g run bindings approved hretire =>
    have happroved : approved = (s.caches g.approvedPermissions).forget run.runId := by
      simp only [retireDurableRun, bind_eq_ok, exists_unit] at hretire
      obtain ⟨-, binding, -, -, released, -, heq⟩ := hretire
      exact (Prod.mk.inj (Except.ok.inj heq)).2.symm
    subst happroved
    exact h.of_fewer rfl (Nat.le_refl _) (by rintro _ _ ⟨⟩)
      (mem_update_forget fun _ _ hforgets => hforgets)

/-- **Every run keeps the account.** -/
theorem sound_of_path {acts : List Act} (h : Path Happens start acts s) : Sound acts s :=
  h.invariant_log sound_start fun _ _ _ _ hstep hsound => hsound.happens hstep

end System

/-! ### Allowed calls -/

/-- **An allowed call is justified**: the static decision on its input is no denial; where that says
to ask, the approver allowed this call, or the call read from its cache a grant that stood there; and
no hook blocked it. -/
theorem allowed_justified {acts : List Act} (h : Path Happens System.start acts s) {i : Nat} {c : Call}
    (hcall : s.calls[i]? = some c) {report : AuthorizationReport} (hret : c.rest = .ret report)
    {input : Value} (hallowed : report.authorization = .allowed input) :
    ¬ (c.governance.evaluatePermission c.ctx.runId c.ctx.tool input).outcome.Denies ∧
    ((c.governance.evaluatePermission c.ctx.runId c.ctx.tool input).outcome = .ask →
      (∃ updates, ∃ e ∈ c.asked, Approves c.ctx updates e) ∨
      ∃ before source after grant,
        acts = before ++ .told i (cachedRead c.governance c.ctx input source) :: after ∧
        grant.covers c.ctx.runId c.ctx.tool input = true ∧
        Stands before c.governance.approvedPermissions grant) ∧
    Unblocked c.asked := by
  have hsound := System.sound_of_path h
  have hjustified := (authorize_justified c.governance c.ctx).result (hret ▸ hsound.path i c hcall)
    (Monitor.admitted_of_forall _ (fun _ _ _ => trivial) _ _)
  rw [remembers_after, List.nil_append] at hjustified
  obtain ⟨hnot, happroved, hunblocked⟩ := hjustified input hallowed
  refine ⟨hnot, fun hask => (happroved hask).imp id ?_, hunblocked⟩
  rintro ⟨source, hread⟩
  obtain ⟨before, after, heq⟩ := List.append_of_mem (hsound.told i c hcall _ hread)
  obtain ⟨grant, hcovers, hstands⟩ := hsound.reads _ _ _ _ _ _ _ _ heq
  exact ⟨before, source, after, grant, heq, hcovers, hstands⟩

/-- Every call is asked about, and one hook sees it. -/
def sampleGovernance : Governance where
  permissions := ⟨.ask, []⟩
  hooks := [⟨"*"⟩]
  approver := some 0
  approvedPermissions := 0
  policySnapshot := none
  tenantId := none
  agentId := none
  durableBinding := none
  durableRun := none
  durableBindings := 0
  bindingViolation := none

def sampleContext : AuthorizationContext := ⟨"run", 0, "use", "Bash", .null⟩

/-- The approver allows the first call, and the tool; the second call finds the grant. -/
def sampleActs : List Act :=
  [.fork sampleGovernance, .authorize sampleGovernance sampleContext,
    .told 0 ⟨.registered 0 "run", some none⟩,
    .told 0 ⟨.preToolUse 0 (sampleContext.hookContext .null), some HookOutcome.continue⟩,
    .told 0 ⟨.matchingSource 0 "run" "Bash" .null, some none⟩,
    .told 0 ⟨.approve 0 (sampleContext.approvalRequest .null), ApprovalDecision.allow none [.allowTool]⟩,
    .told 0 ⟨.install 0 (grantsFor sampleContext "default_mode" .null [.allowTool]), some ()⟩,
    .authorize sampleGovernance sampleContext,
    .told 1 ⟨.registered 0 "run", some none⟩,
    .told 1 ⟨.preToolUse 0 (sampleContext.hookContext .null), some (HookOutcome.rewrite (.bool true))⟩,
    .told 1 (cachedRead sampleGovernance sampleContext (.bool true)
      "human_approval:default_mode:use:allow_tool")]

/-- The run of the sample. -/
theorem sample_happens : ∃ s c, Path Happens System.start sampleActs s ∧ s.calls[1]? = some c ∧
    c.governance = sampleGovernance ∧ c.ctx = sampleContext ∧
    ∃ report, c.rest = .ret report ∧ report.authorization = .allowed (.bool true) := by
  refine ⟨_, _, .cons (.fork _) (.cons (.authorize Nat.zero_lt_one _)
    (.cons (.told rfl (.call _ _ _) (.inr rfl)) (.cons (.told rfl (.call _ _ _) trivial) (.cons (.told rfl (.call _ _ _) (.inr rfl))
    (.cons (.told rfl (.call _ _ _) trivial) (.cons (.told rfl (.call _ _ _) trivial)
    (.cons (.authorize Nat.zero_lt_one _) (.cons (.told rfl (.call _ _ _) (.inr rfl))
    (.cons (.told rfl (.call _ _ _) trivial) (.cons (.told rfl (.call _ _ _) (.inr rfl)) (.nil _))))))))))),
    rfl, rfl, rfl, _, rfl, rfl⟩

omit [Digest] in
theorem allowed_justified_sample : ∃ c : Call, c.governance = sampleGovernance ∧
    ¬ (c.governance.evaluatePermission c.ctx.runId c.ctx.tool (.bool true)).outcome.Denies ∧
    ((c.governance.evaluatePermission c.ctx.runId c.ctx.tool (.bool true)).outcome = .ask →
      (∃ updates, ∃ e ∈ c.asked, Approves c.ctx updates e) ∨
      ∃ before source after grant,
        sampleActs = before ++ .told 1 (cachedRead c.governance c.ctx (.bool true) source) :: after ∧
        grant.covers c.ctx.runId c.ctx.tool (.bool true) = true ∧
        Stands before c.governance.approvedPermissions grant) ∧
    Unblocked c.asked := by
  obtain ⟨s, c, hpath, hcall, hgovernance, -, report, hret, hallowed⟩ := @sample_happens sha256
  exact ⟨c, hgovernance, @allowed_justified s sha256 sampleActs hpath 1 c hcall report hret _ hallowed⟩

end AikitRuntime.Governance
