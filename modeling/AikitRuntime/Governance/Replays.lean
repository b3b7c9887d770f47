import AikitRuntime.Durability.Approvals
import AikitRuntime.Governance.Decisions

/-!
# Approvals that are replayed

A durable approver writes the decision of the approver it wraps into the run's log, as the response of the
approval. A replayed run does not ask again: it reads the decision back from that response. An input that was
updated to `null` is written as one that was not updated, and the replayed run calls the tool with the input that
the model proposed.
-/

namespace AikitRuntime.Governance

open Durability Library

/-! ### Writing a decision -/

/-- `ApprovalDecision::deny`. -/
def ApprovalDecision.denied (message : String) : ApprovalDecision := .deny message false

/-- `approval_decision_payload`. -/
def approvalDecisionPayload : ApprovalDecision → Option Value
  | .allow updatedInput updatedPermissions => some (.ofFields
      [("decision", .string "allow"), ("updated_input", updatedInput.getD .null),
        ("updated_permissions", .array (updatedPermissions.map fun permission => .string permission.asStr))])
  | .deny message interrupt => some (.ofFields
      [("decision", .string "deny"), ("message", .string message), ("interrupt", .bool interrupt)])

/-- What `approve` records with a decision: whether it approves. -/
def ApprovalDecision.approved : ApprovalDecision → Bool
  | .allow .. => true
  | .deny .. => false

/-! ### Reading it back -/

/-- One permission of a response. -/
def readPermission (permission : Value) : Except String PermissionUpdate :=
  match permission.asStr with
  | some "allow_exact_input" => .ok .allowExactInput
  | some "allow_tool" => .ok .allowTool
  | _ => .error "durable approval permission is unknown"

/-- The allowing branch of `durable_approval_decision`. -/
def readAllow (response : List (String × Value)) : Except String ApprovalDecision := do
  let updatedInput := (Value.field? "updated_input" response).filter fun value => !value.isNull
  let permissions ← okOr ((Value.field? "updated_permissions" response).bind Value.asArray)
    "durable approval permissions are malformed"
  let permissions ← permissions.mapM readPermission
  pure (.allow updatedInput permissions)

/-- Its denying branch. -/
def readDeny (response : List (String × Value)) : Except String ApprovalDecision := do
  let message ← okOr ((Value.field? "message" response).bind Value.asStr) "durable denial message is missing"
  let interrupt ← okOr ((Value.field? "interrupt" response).bind Value.asBool)
    "durable denial interrupt flag is missing"
  pure (.deny message interrupt)

/-- `durable_approval_decision`. -/
def durableApprovalDecision (approval : DurableApproval) : Except String ApprovalDecision :=
  if approval.timedOut then .ok (.denied "approval timed out")
  else do
    let response ← okOr (approval.response.bind Value.asObject) "durable approval response is missing"
    match (Value.field? "decision" response).bind Value.asStr, approval.status with
    | some "allow", .approved => readAllow response
    | some "deny", .rejected => readDeny response
    | _, _ => .error "durable approval status and response disagree"

/-! ### What is read back -/

/-- The decision that a replayed run acts on, for the one that was made. -/
def ApprovalDecision.replayed : ApprovalDecision → ApprovalDecision
  | .allow updatedInput updatedPermissions =>
    .allow (updatedInput.filter fun value => !value.isNull) updatedPermissions
  | .deny message interrupt => .deny message interrupt

/-- The input that a decision replaces the proposed one by. -/
def ApprovalDecision.updatedInput : ApprovalDecision → Option Value
  | .allow updatedInput _ => updatedInput
  | .deny .. => none

theorem replayed_eq_iff (d : ApprovalDecision) : d.replayed = d ↔ d.updatedInput ≠ some .null := by
  cases d with
  | deny message interrupt => simp [ApprovalDecision.replayed, ApprovalDecision.updatedInput]
  | allow updatedInput updatedPermissions =>
    simp only [ApprovalDecision.replayed, ApprovalDecision.updatedInput, ApprovalDecision.allow.injEq, and_true]
    cases updatedInput with
    | none => simp
    | some value =>
      by_cases h : value = .null
      · simp [Option.filter, Value.isNull, h]
      · simp [Option.filter, Value.isNull, h]

/-- The approval has the decision as its response. -/
structure Records (approval : DurableApproval) (d : ApprovalDecision) : Prop where
  status : approval.status = if d.approved then .approved else .rejected
  response : approval.response = approvalDecisionPayload d
  inTime : approval.timedOut = false

variable {approval : DurableApproval} {d : ApprovalDecision}

@[simp] theorem readPermission_asStr (permission : PermissionUpdate) :
    readPermission (.string permission.asStr) = .ok permission := by
  cases permission <;> rfl

theorem mapM_readPermission (permissions : List PermissionUpdate) :
    permissions.mapM (readPermission ∘ fun permission => .string permission.asStr) = .ok permissions := by
  induction permissions with
  | nil => rfl
  | cons permission rest ih =>
    rw [List.mapM_cons, ih, Function.comp_apply, readPermission_asStr]
    rfl

theorem filter_getD_null (updatedInput : Option Value) :
    (some (updatedInput.getD .null)).filter (fun value => !value.isNull)
      = updatedInput.filter fun value => !value.isNull := by
  cases updatedInput with
  | none => simp [Value.isNull]
  | some value => rfl

/-- **A recorded decision is read back**, but for an updated input that is `null`. -/
theorem durableApprovalDecision_of_records (h : Records approval d) :
    durableApprovalDecision approval = .ok d.replayed := by
  unfold durableApprovalDecision
  rw [if_neg (by rw [h.inTime]; exact Bool.false_ne_true), h.response, h.status]
  cases d with
  | allow updatedInput updatedPermissions =>
    simp [approvalDecisionPayload, ApprovalDecision.approved, Value.ofFields, Value.asObject, Value.asStr,
      Value.field?_insertField, Value.asArray, okOr, readAllow, mapM_readPermission, filter_getD_null,
      ApprovalDecision.replayed]
  | deny message interrupt =>
    simp [approvalDecisionPayload, ApprovalDecision.approved, Value.ofFields, Value.asObject, Value.asStr,
      Value.field?_insertField, Value.asBool, okOr, readDeny, ApprovalDecision.replayed]

/-! ### Through the log -/

/-- A field that the object has is decoded, and the next fields are read from the same object. -/
theorem fieldOr_bind {α β : Type} {name : String} {decoder : Decoder α} {fields : List (String × Value)} {v : Value}
    {a : α} (byName byOrder : Option α) (next : α → FieldReader β) (hfield : Value.field? name fields = some v)
    (hdecoded : decoder v = some a) :
    (Decoder.fieldOr name decoder byName byOrder >>= next) (.named fields) = next a (.named fields) := by
  show ((Decoder.fieldOr name decoder byName byOrder) (.named fields)).bind _ = _
  simp only [Decoder.fieldOr, hfield, hdecoded, Option.map_some, Option.bind_some]

variable {resolvedAtUnixMs : Nat}

/-- A resolution's envelope is read back. -/
theorem decodeResolutionEnvelope_encode {value : Value} (hnow : resolvedAtUnixMs < 2 ^ 64)
    (hvalue : value.isNull = false) :
    ((encodeResolutionEnvelope
        { schemaVersion := durabilitySchemaVersion, resolvedAtUnixMs, timedOut := false, response := some value }).get
      durableResolutionEnvelopeKey).bind decodeResolutionEnvelope =
        some { schemaVersion := durabilitySchemaVersion, resolvedAtUnixMs, timedOut := false, response := some value } := by
  have hversion : Decoder.u32 (ofNat durabilitySchemaVersion) = some durabilitySchemaVersion := by decide
  have hclock : Decoder.u64 (ofNat resolvedAtUnixMs) = some resolvedAtUnixMs := by
    simp only [Decoder.u64, Decoder.unsigned, ofNat, Value.asU64, Option.filter_some, hnow, decide_true, if_true]
  have hresponse : Decoder.nullable Decoder.value value = some (some value) := by
    simp [Decoder.nullable, Decoder.value, hvalue]
  have hflag : Decoder.flag (.bool false) = some false := rfl
  have hencoded : (encodeResolutionEnvelope
      { schemaVersion := durabilitySchemaVersion, resolvedAtUnixMs, timedOut := false, response := some value }).get
        durableResolutionEnvelopeKey =
      some (.object [("resolved_at_unix_ms", ofNat resolvedAtUnixMs), ("response", value),
        ("schema_version", ofNat durabilitySchemaVersion), ("timed_out", .bool false)]) := by
    simp only [encodeResolutionEnvelope, entryIfSome, Value.get, Value.asObject, Value.ofFields, List.foldl_cons,
      List.foldl_nil, List.cons_append, List.nil_append, Value.insertField, String.reduceEq, String.reduceLT,
      if_false, if_true, Option.map_some, Option.toList_some, Option.bind_some, Value.field?]
  rw [hencoded, Option.bind_some]
  unfold decodeResolutionEnvelope Decoder.record Decoder.required Decoder.defaulted
  dsimp only
  rw [if_neg (by simp), fieldOr_bind _ _ _ (by simp [Value.field?]) hversion,
    fieldOr_bind _ _ _ (by simp [Value.field?]) hclock, fieldOr_bind _ _ _ (by simp [Value.field?]) hflag,
    fieldOr_bind _ _ _ (by simp [Value.field?]) hresponse]
  rfl

/-- What a run makes of a response that it is given in time. -/
theorem decodeResolutionPayload_inTime {approved : Bool} {value : Value} {decoded : DecodedResolutionPayload} (hnow : resolvedAtUnixMs < 2 ^ 64)
    (hvalue : value.isNull = false)
    (h : decodeResolutionPayload approval approved
      (RunState.resolutionResponse approval (some value) (some resolvedAtUnixMs) false) durabilitySchemaVersion
        = .ok decoded) :
    decoded.response = some value ∧ decoded.timedOut = false := by
  unfold decodeResolutionPayload RunState.resolutionResponse at h
  cases hexpires : approval.expiresAtUnixMs with
  | none =>
    simp only [hexpires, Except.ok.injEq] at h
    subst h
    exact ⟨rfl, rfl⟩
  | some expiresAt =>
    simp only [hexpires, Option.bind_some] at h
    obtain ⟨envelope, henvelope, h⟩ := bind_eq_ok.mp h
    obtain ⟨read, hread, h⟩ := bind_eq_ok.mp h
    have hback := decodeResolutionEnvelope_encode hnow hvalue
    rw [okOr_eq_ok.mp henvelope, Option.bind_some, okOr_eq_ok.mp hread, Option.some.injEq] at hback
    subst hback
    obtain ⟨-, -, h⟩ := bind_eq_ok.mp h
    obtain ⟨-, -, h⟩ := bind_eq_ok.mp h
    cases h
    exact ⟨rfl, rfl⟩

theorem isNull_payload {payload : Value} (h : approvalDecisionPayload d = some payload) : payload.isNull = false := by
  cases d <;> cases h <;> simp [Value.isNull, Value.ofFields]

/-- **A run that has recorded a decision** gives it back, but for an updated input that is `null`: the approval is
resolved by the event that `resolve_approval` emits for the decision, before its deadline. -/
theorem applyApprovalResolved_replays {s t : RunState} {sequence : Nat} {approvalId : String} (hget : s.projection.approvals[approvalId]? = some approval)
    (hnow : resolvedAtUnixMs < 2 ^ 64)
    (h : s.applyApprovalResolved durabilitySchemaVersion sequence approvalId d.approved
      (RunState.resolutionResponse approval (approvalDecisionPayload d) (some resolvedAtUnixMs) false) = .ok t) :
    ∃ resolved, t.projection.approvals[approvalId]? = some resolved ∧
      durableApprovalDecision resolved = .ok d.replayed := by
  obtain ⟨payload, hpayload⟩ : ∃ payload, approvalDecisionPayload d = some payload := by
    cases d <;> exact ⟨_, rfl⟩
  unfold RunState.applyApprovalResolved at h
  obtain ⟨found, hfound, h⟩ := bind_eq_ok.mp h
  obtain rfl : approval = found := Option.some.inj (hget.symm.trans (okOr_eq_ok.mp hfound))
  obtain ⟨-, -, h⟩ := bind_eq_ok.mp h
  obtain ⟨decoded, hdecoded, h⟩ := bind_eq_ok.mp h
  rw [hpayload] at hdecoded
  obtain ⟨hresponse, hinTime⟩ := decodeResolutionPayload_inTime hnow (isNull_payload hpayload) hdecoded
  cases h
  refine ⟨_, BTreeMap.get_insert_self, durableApprovalDecision_of_records ?_⟩
  exact ⟨rfl, hresponse.trans hpayload.symm, hinTime⟩

/-- **Which decisions are replayed.** A response that was recorded in time is read back as the decision that the
approver made, unless the approver updated the input to `null`. So is the response that the approval has in the
run, once the event has been applied that `resolve_approval` emits for the decision before the deadline. -/
theorem replays_decision_iff (d : ApprovalDecision) :
    (∀ (approval : DurableApproval) (sequence : Nat) (resolvedAtUnixMs : Option Nat),
      durableApprovalDecision (RunState.resolvedApproval approval sequence d.approved
        { response := approvalDecisionPayload d, resolvedAtUnixMs, timedOut := false }) = .ok d ↔
          d.updatedInput ≠ some .null) ∧
    ∀ (s t : RunState) (sequence resolvedAtUnixMs : Nat) (approvalId : String) (approval : DurableApproval),
      s.projection.approvals[approvalId]? = some approval → resolvedAtUnixMs < 2 ^ 64 →
      s.applyApprovalResolved durabilitySchemaVersion sequence approvalId d.approved
        (RunState.resolutionResponse approval (approvalDecisionPayload d) (some resolvedAtUnixMs) false) = .ok t →
        ∃ resolved, t.projection.approvals[approvalId]? = some resolved ∧
          (durableApprovalDecision resolved = .ok d ↔ d.updatedInput ≠ some .null) := by
  constructor
  · intro approval sequence resolvedAtUnixMs
    rw [durableApprovalDecision_of_records ⟨rfl, rfl, rfl⟩, Except.ok.injEq]
    exact replayed_eq_iff d
  · intro s t sequence resolvedAtUnixMs approvalId approval hget hnow h
    obtain ⟨resolved, hresolved, hreads⟩ := applyApprovalResolved_replays hget hnow h
    refine ⟨resolved, hresolved, ?_⟩
    rw [hreads, Except.ok.injEq]
    exact replayed_eq_iff d

/-- A run that asks for an approval with a deadline. -/
def askingLog : List RunEvent :=
  RunState.logOf "r" [("1", .runStarted "s" .sync "b"),
    ("2", .approvalRequested "a" "call-1" none "Allow tool?" (encodeApprovalEnvelope
      { schemaVersion := durabilitySchemaVersion, kind := .confirmation, payload := .null,
        policySnapshotHash := none, governanceBinding := none, requestedAtUnixMs := 1,
        expiresAtUnixMs := 10 }))]

/-- The call is allowed with another input, and the tool for the rest of the session. -/
def updating : ApprovalDecision := .allow (some (.string "README.md")) [.allowTool]

/-- The decision is applied in the middle of the time that the approval has. -/
theorem decidesInTime :
    ∃ s, @RunState.fromEvents sha256 askingLog = .ok s ∧ ∃ approval, s.projection.approvals["a"]? = some approval ∧
      ∃ t, s.applyApprovalResolved durabilitySchemaVersion 3 "a" updating.approved
        (RunState.resolutionResponse approval (approvalDecisionPayload updating) (some 5) false) = .ok t ∧ True := by
  rw [sha256_eq_quick]
  decide +kernel

/-- It is read back with its input and its permission. -/
theorem replays_decision_updating :
    ∃ (s t : RunState) (approval resolved : DurableApproval), @RunState.fromEvents sha256 askingLog = .ok s ∧
      s.applyApprovalResolved durabilitySchemaVersion 3 "a" true
        (RunState.resolutionResponse approval (approvalDecisionPayload updating) (some 5) false) = .ok t ∧
      t.projection.approvals["a"]? = some resolved ∧ durableApprovalDecision resolved = .ok updating := by
  let _ : Digest := sha256
  obtain ⟨s, hs, approval, hget, t, ht, -⟩ := decidesInTime
  obtain ⟨resolved, hresolved, hreads⟩ :=
    (replays_decision_iff updating).2 s t 3 5 "a" approval hget (by decide) ht
  exact ⟨s, t, approval, resolved, hs, ht, hresolved, hreads.mpr (by simp [updating, ApprovalDecision.updatedInput])⟩

/-- An approver that allows the call with `null` as its input: the replayed run is allowed the proposed input. -/
theorem not_replays_decision :
    ¬ ∀ (approval : DurableApproval) (d : ApprovalDecision), Records approval d →
      durableApprovalDecision approval = .ok d := by
  intro h
  let asked : DurableApproval :=
    { approvalId := "approval-1", logicalKey := "call-1", activityId := none, kind := .confirmation,
      prompt := "Allow tool `write`?", payload := .null, policySnapshotHash := none, governanceBinding := none,
      requestedAtUnixMs := some 1, expiresAtUnixMs := some 10, status := .approved,
      response := approvalDecisionPayload (.allow (some .null) []), resolvedAtUnixMs := some 2, timedOut := false,
      requestedSequence := 3, resolvedSequence := some 4 }
  have hrecords : Records asked (.allow (some .null) []) := ⟨rfl, rfl, rfl⟩
  have hread := (durableApprovalDecision_of_records hrecords).symm.trans (h asked _ hrecords)
  simp [ApprovalDecision.replayed, Value.isNull] at hread

end AikitRuntime.Governance
