import AikitRuntime.Agent.Audit

/-!
# The configuration of a run, and its tools

`RunConfig` is what `run_agent` is given. The schemas of its tools are compiled once, before
the first turn; a name that is not among them was not advertised.
-/

namespace AikitRuntime.Agent

open Library Durability Streaming Governance

/-- `RunConfig`, with the name of the provider. Of the driver it is only kept whether there is
one; hooks, policies, budget, compaction and cancellation are behind the operations. -/
structure RunConfig where
  model : String
  messages : List Message
  tools : List ToolSpec
  maxTurns : Nat
  maxTokens : Nat
  options : Value
  providerOptions : Value
  compatibilityMode : String
  providerName : String
  audit : AuditTrail
  durable : Bool
  invocationPrepared : Bool
  invocationError : Option AikitError
  durableInvocation : Option Disposition

/-- The request of a turn. -/
def RunConfig.request (cfg : RunConfig) (messages : List Message) : ProviderRequest where
  model := cfg.model
  messages
  tools := cfg.tools
  maxTokens := cfg.maxTokens
  options := cfg.options
  providerOptions := cfg.providerOptions
  compatibilityMode := cfg.compatibilityMode

/-- The validators of a run, by tool name. -/
abbrev Validators : Type := List (String × (Value → Except String Unit))

section

variable [JsonSchema]

/-- One tool of `compile_tool_validators`. -/
def compileTool (validators : Validators) (tool : ToolSpec) : Except AikitError Validators :=
  if isBlank tool.name then .error (.configuration "tool name cannot be empty")
  else if tool.inputSchema.isObject = false then
    .error (.configuration s!"tool '{tool.name}' input_schema must be a JSON Schema object")
  else match JsonSchema.validatorFor tool.inputSchema with
    | .error error =>
      .error (.configuration s!"tool '{tool.name}' has an invalid input_schema: {error}")
    | .ok validator =>
      if (validators.lookup tool.name).isSome then
        .error (.configuration s!"tool '{tool.name}' is advertised more than once")
      else .ok ((tool.name, validator) :: validators)

/-- `compile_tool_validators`, from the validators compiled so far. -/
def compileToolsFrom (validators : Validators) : List ToolSpec → Except AikitError Validators
  | [] => .ok validators
  | tool :: tools => compileTool validators tool >>= fun validators => compileToolsFrom validators tools

/-- `compile_tool_validators`. -/
def compileToolValidators (tools : List ToolSpec) : Except AikitError Validators :=
  compileToolsFrom [] tools

end

/-- `validate_tool_input`. -/
def validateToolInput (tool : String) (validator : Value → Except String Unit) (input : Value) :
    Except String Unit :=
  (validator input).mapError fun error => s!"tool '{tool}' input failed JSON Schema validation: {error}"

variable {validator : Value → Except String Unit}

theorem validateToolInput_eq_ok {tool : String}
    {input : Value} : validateToolInput tool validator input = .ok () ↔ validator input = .ok () := by
  unfold validateToolInput
  cases validator input <;> simp [Except.mapError]

variable [JsonSchema]

/-- A compiled tool is one of the run's tools, with the validator of its own schema. -/
def Compiled (tools : List ToolSpec) (validators : Validators) : Prop :=
  ∀ name validator, (name, validator) ∈ validators →
    ∃ tool ∈ tools, tool.name = name ∧ JsonSchema.validatorFor tool.inputSchema = .ok validator

variable {validators : Validators}

variable {validators' : Validators}

theorem compileTool_eq_ok {tool : ToolSpec}
    (h : compileTool validators tool = .ok validators') :
    ∃ validator, JsonSchema.validatorFor tool.inputSchema = .ok validator ∧
      validators.lookup tool.name = none ∧ validators' = (tool.name, validator) :: validators := by
  unfold compileTool at h
  by_cases hblank : isBlank tool.name = true
  · rw [if_pos hblank] at h
    cases h
  rw [if_neg hblank] at h
  by_cases hobject : tool.inputSchema.isObject = false
  · rw [if_pos hobject] at h
    cases h
  rw [if_neg hobject] at h
  cases hv : JsonSchema.validatorFor tool.inputSchema with
  | error error =>
    rw [hv] at h
    cases h
  | ok validator =>
    rw [hv] at h
    cases hl : validators.lookup tool.name with
    | none =>
      simp only [hl] at h
      cases h
      exact ⟨validator, rfl, rfl, rfl⟩
    | some found =>
      simp only [hl] at h
      cases h

variable {tools : List ToolSpec}

theorem compileToolsFrom_compiled {all : List ToolSpec}
    (h : compileToolsFrom validators tools = .ok validators') (hsub : tools ⊆ all)
    (hc : Compiled all validators) : Compiled all validators' := by
  induction tools generalizing validators with
  | nil =>
    cases h
    exact hc
  | cons tool tools ih =>
    unfold compileToolsFrom at h
    cases hstep : compileTool validators tool with
    | error error =>
      rw [hstep] at h
      cases h
    | ok next =>
      rw [hstep] at h
      obtain ⟨validator, hv, -, rfl⟩ := compileTool_eq_ok hstep
      refine ih h (fun t ht => hsub (List.mem_cons_of_mem _ ht)) fun name found hmem => ?_
      rcases List.mem_cons.mp hmem with heq | hmem
      · cases heq
        exact ⟨tool, hsub List.mem_cons_self, rfl, hv⟩
      · exact hc name found hmem

theorem compileToolValidators_compiled
    (h : compileToolValidators tools = .ok validators) : Compiled tools validators :=
  compileToolsFrom_compiled h (List.Subset.refl tools) fun _ _ hmem => absurd hmem List.not_mem_nil

omit [JsonSchema] in
theorem lookup_mem {name : String}
    (h : validators.lookup name = some validator) : (name, validator) ∈ validators := by
  induction validators with
  | nil => cases h
  | cons entry validators ih =>
    obtain ⟨key, value⟩ := entry
    by_cases heq : name = key
    · subst heq
      rw [List.lookup_cons_self] at h
      cases h
      exact List.mem_cons_self
    · simp only [List.lookup_cons, beq_eq_false_iff_ne.mpr heq] at h
      exact List.mem_cons_of_mem _ (ih h)

end AikitRuntime.Agent
