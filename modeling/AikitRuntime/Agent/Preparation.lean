import AikitRuntime.Agent.Frames

/-!
# What preparation does not change

Before a run starts it is classified: the driver is asked, and the run gets its audit
identity. That changes the configuration, but neither its tools nor its limits, and it
neither shows nor records anything.
-/

namespace AikitRuntime.Agent

open Library Durability Streaming Governance

/-- The operations that name a run and its invocation. -/
def Op.Naming : Op → Prop
  | .driver .runId | .freshRunId | .secureInvocationId => True
  | _ => False

/-- The operations of a preparation. -/
def Op.Preparing : Op → Prop
  | .driver call => call.Plain
  | .freshRunId | .secureInvocationId => True
  | _ => False

theorem Op.Naming.preparing {op : Op} (h : op.Naming) : op.Preparing := by
  cases op with
  | driver call =>
    cases call with
    | runId => trivial
    | _ => exact h.elim
  | freshRunId => trivial
  | secureInvocationId => trivial
  | _ => exact h.elim

/-- What the preparation of an invocation does not change. -/
structure Prepares (cfg cfg' : RunConfig) : Prop where
  messages : cfg'.messages = cfg.messages
  tools : cfg'.tools = cfg.tools
  maxTurns : cfg'.maxTurns = cfg.maxTurns
  durable : cfg'.durable = cfg.durable
  failureMode : cfg'.audit.failureMode = cfg.audit.failureMode
  sinkCount : cfg'.audit.sinkCount = cfg.audit.sinkCount

namespace Prepares

theorem refl (cfg : RunConfig) : Prepares cfg cfg := ⟨rfl, rfl, rfl, rfl, rfl, rfl⟩

theorem trans {cfg cfg' cfg'' : RunConfig} (h : Prepares cfg cfg') (h' : Prepares cfg' cfg'') :
    Prepares cfg cfg'' where
  messages := h'.messages.trans h.messages
  tools := h'.tools.trans h.tools
  maxTurns := h'.maxTurns.trans h.maxTurns
  durable := h'.durable.trans h.durable
  failureMode := h'.failureMode.trans h.failureMode
  sinkCount := h'.sinkCount.trans h.sinkCount

end Prepares

/-- An audit trail of the same kind: it fails as the other does. -/
structure SameTrail (trail trail' : AuditTrail) : Prop where
  failureMode : trail'.failureMode = trail.failureMode
  sinkCount : trail'.sinkCount = trail.sinkCount

variable {cfg : RunConfig} {trail : AuditTrail}

theorem forTerminalReplay_same {replay : RunStoppedAuditReplayEnvelope} {trail' : AuditTrail}
    (h : trail.forTerminalReplay replay = .ok trail') : SameTrail trail trail' := by
  unfold AuditTrail.forTerminalReplay at h
  cases hrun : AuditTrail.validId "run_id" replay.auditRunId with
  | error error =>
    rw [hrun] at h
    cases h
  | ok _ =>
    cases hinvocation : AuditTrail.validId "invocation_id" replay.invocationId with
    | error error =>
      rw [hrun, hinvocation] at h
      cases h
    | ok _ =>
      simp only [hrun, hinvocation, bind, Except.bind] at h
      split at h
      · cases h
      split at h
      · cases h
      · cases h
        exact ⟨rfl, rfl⟩

theorem forRunId_returns (runId : String) :
    Returns (fun r => ∀ trail', r = .ok trail' → SameTrail trail trail') (trail.forRunId runId) := by
  unfold AuditTrail.forRunId
  split
  · exact Returns.pure fun _ heq => by cases heq
  refine Returns.call fun invocationId => ?_
  cases invocationId with
  | error error => exact Returns.pure fun _ heq => by cases heq
  | ok id =>
    refine Returns.pure fun trail' heq => ?_
    cases heq
    exact ⟨rfl, rfl⟩

theorem forRunId_uses (runId : String) : Uses Op.Naming (trail.forRunId runId) := by
  unfold AuditTrail.forRunId
  split
  · trivial
  · exact .call trivial fun _ => trivial

theorem prepareAudit_returns (disposition : Disposition) :
    Returns (fun r => ∀ trail', r = .ok trail' → SameTrail trail trail') (prepareAudit trail disposition) := by
  unfold prepareAudit
  split
  · exact Returns.pure fun _ heq => forTerminalReplay_same heq
  refine Returns.call fun runId => ?_
  cases runId with
  | error error => exact Returns.pure fun _ heq => by cases heq
  | ok runId => exact forRunId_returns runId

theorem prepareAudit_uses (disposition : Disposition) :
    Uses Op.Naming (prepareAudit trail disposition) := by
  unfold prepareAudit
  split
  · trivial
  refine .call trivial fun runId => ?_
  cases runId with
  | error error => trivial
  | ok runId => exact forRunId_uses runId

theorem prepareInvocation_returns : Returns (Prepares cfg) (prepareInvocation cfg) := by
  unfold prepareInvocation
  split
  · exact Returns.pure (.refl cfg)
  split
  · refine Returns.call fun attached => ?_
    cases attached with
    | error error => exact Returns.pure ⟨rfl, rfl, rfl, rfl, rfl, rfl⟩
    | ok _ =>
      refine Returns.call fun disposition => ?_
      cases disposition with
      | error error => exact Returns.pure ⟨rfl, rfl, rfl, rfl, rfl, rfl⟩
      | ok disposition =>
        refine Returns.bind (prepareAudit_returns disposition) fun prepared hprepared => ?_
        cases prepared with
        | error error => exact Returns.pure ⟨rfl, rfl, rfl, rfl, rfl, rfl⟩
        | ok audit =>
          obtain ⟨hmode, hcount⟩ := hprepared audit rfl
          exact Returns.pure ⟨rfl, rfl, rfl, rfl, hmode, hcount⟩
  · exact Returns.call fun runId => Returns.pure ⟨rfl, rfl, rfl, rfl, rfl, rfl⟩

theorem prepareInvocation_uses : Uses Op.Preparing (prepareInvocation cfg) := by
  unfold prepareInvocation
  split
  · trivial
  split
  · refine .call trivial fun attached => ?_
    cases attached with
    | error error => trivial
    | ok _ =>
      refine .call trivial fun disposition => ?_
      cases disposition with
      | error error => trivial
      | ok disposition =>
        refine ((prepareAudit_uses disposition).mono fun _ => Op.Naming.preparing).bind fun prepared => ?_
        cases prepared <;> trivial
  · exact .call trivial fun _ => trivial

theorem checkAudit_returns (disposition : Disposition) :
    Returns (fun r => ∀ trail', r = .ok trail' → SameTrail cfg.audit trail') (checkAudit cfg disposition) := by
  unfold checkAudit
  split
  · exact Returns.pure fun _ heq => forTerminalReplay_same heq
  · refine Returns.call fun runId => ?_
    cases runId with
    | error error => exact Returns.pure fun _ heq => by cases heq
    | ok runId =>
      dsimp only
      split
      · refine Returns.pure fun _ heq => ?_
        cases heq
        exact ⟨rfl, rfl⟩
      · exact Returns.pure fun _ heq => by cases heq
  · refine Returns.pure fun _ heq => ?_
    cases heq
    exact ⟨rfl, rfl⟩

theorem checkAudit_uses (disposition : Disposition) : Uses Op.Naming (checkAudit cfg disposition) := by
  unfold checkAudit
  split
  · trivial
  · refine .call trivial fun runId => ?_
    cases runId with
    | error error => trivial
    | ok runId => exact .ite trivial trivial
  · trivial

theorem revalidate_returns : Returns (Prepares cfg) (revalidate cfg) := by
  refine Returns.call fun disposition => ?_
  cases disposition with
  | error error => exact Returns.pure ⟨rfl, rfl, rfl, rfl, rfl, rfl⟩
  | ok disposition =>
    have hchecked := @checkAudit_returns { cfg with durableInvocation := some disposition } disposition
    refine Returns.bind hchecked fun checked hsame => ?_
    cases checked with
    | error error => exact Returns.pure ⟨rfl, rfl, rfl, rfl, rfl, rfl⟩
    | ok audit =>
      obtain ⟨hmode, hcount⟩ := hsame audit rfl
      exact Returns.pure ⟨rfl, rfl, rfl, rfl, hmode, hcount⟩

theorem revalidate_uses : Uses Op.Preparing (revalidate cfg) := by
  refine .call trivial fun disposition => ?_
  cases disposition with
  | error error => trivial
  | ok disposition =>
    have hchecked := (@checkAudit_uses { cfg with durableInvocation := some disposition } disposition).mono fun _ => Op.Naming.preparing
    refine hchecked.bind fun checked => ?_
    cases checked <;> trivial

/-- **Classification** keeps what a run depends on. -/
theorem classify_returns : Returns (Prepares cfg) (classify cfg) := by
  refine Returns.bind prepareInvocation_returns fun cfg' h => ?_
  show Returns _ (if _ then _ else _)
  split
  · exact revalidate_returns.mono fun _ h' => h.trans h'
  · exact Returns.pure h

theorem classify_uses : Uses Op.Preparing (classify cfg) :=
  prepareInvocation_uses.bind fun _ => .ite revalidate_uses trivial

end AikitRuntime.Agent
