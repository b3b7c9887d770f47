import AikitRuntime.Library.Refusals
import AikitRuntime.Durability.Sha256

/-!
# Governance bindings, and how identities are computed

A governed run is pinned to a `GovernanceBinding`: the hash of its policy, the scopes it
was resolved for, and a seal over all of them. `seal` makes one, `validate` checks the
shape and recomputes the seal, and `forRun` seals the same scopes for another run.

`Digest` is what computes identities: `stable_identifier`, `stable_input_hash` and the
digest a binding is sealed with. The state machine never looks inside an identity, so it
is modelled over any digest whose identifiers are well formed. `sha256` is the digest of
the source.
-/

namespace AikitRuntime.Durability

open Library

/-- `GOVERNANCE_CONTRACT_VERSION`. -/
def governanceContractVersion : Nat := 1

/-- `GovernanceBindingPayload`: what a binding's hash covers. -/
structure GovernanceBindingPayload where
  schemaVersion : Nat
  policySnapshotHash : String
  tenantId : Option String
  agentId : Option String
  runId : String
  deriving DecidableEq

/-- A text `validate_identifier` accepts: not empty, and free of control characters. -/
def ValidIdentifier (text : String) : Prop := text ≠ "" ∧ hasControl text = false

instance (text : String) : Decidable (ValidIdentifier text) :=
  inferInstanceAs (Decidable (_ ∧ _))

/-- How identities are computed. -/
class Digest where
  /-- `stable_identifier(namespace, parts)`. -/
  stableIdentifier : String → List String → String
  /-- `stable_input_hash(value)`. -/
  stableInputHash : Value → String
  /-- `canonical_digest(payload)`. -/
  canonicalDigest : GovernanceBindingPayload → String
  /-- An identifier in a well-formed namespace is well formed. -/
  stableIdentifier_valid : ∀ ns parts, ValidIdentifier ns → ValidIdentifier (stableIdentifier ns parts)

export Digest (stableIdentifier stableInputHash canonicalDigest stableIdentifier_valid)

/-! ### The digest of the source -/

theorem isControl_hexDigit (n : ℕ) : isControl (Sha256.hexDigit n) = false := by
  unfold Sha256.hexDigit
  cases hdigit : Sha256.hexDigits[n]? with
  | none => rfl
  | some c =>
    have hall : Sha256.hexDigits.all (fun c => !isControl c) = true := rfl
    simpa using List.all_eq_true.mp hall c (List.mem_of_getElem? hdigit)

theorem hexSha256_no_control (input : List UInt8) : (hexSha256 input).any isControl = false := by
  unfold hexSha256
  simp [Sha256.hexWord, isControl_hexDigit]

/-- The JSON of a payload: the fields in their declared order. -/
def GovernanceBindingPayload.json (payload : GovernanceBindingPayload) : List Char :=
  let optional (text : Option String) : List Char := (text.map jsonString).getD "null".toList
  let fields : List (String × List Char) :=
    [("schema_version", (toString payload.schemaVersion).toList),
      ("policy_snapshot_hash", jsonString payload.policySnapshotHash),
      ("tenant_id", optional payload.tenantId),
      ("agent_id", optional payload.agentId),
      ("run_id", jsonString payload.runId)]
  '\x7b' :: (commaSeparated (fields.map fun field => jsonString field.1 ++ ':' :: field.2) ++ ['\x7d'])

/-- The digest of the source: SHA-256 of framed fields and of canonical JSON. -/
@[reducible] def sha256 : Digest where
  stableIdentifier ns parts :=
    ns ++ "_" ++ String.ofList (hexSha256 ((ns :: parts).flatMap hashField))
  stableInputHash value := "sha256:" ++ String.ofList (hexSha256 (utf8 (canonicalJson value)))
  canonicalDigest payload := "sha256:" ++ String.ofList (hexSha256 (utf8 payload.json))
  stableIdentifier_valid ns parts h := by
    obtain ⟨hne, hcontrol⟩ := h
    refine ⟨fun hempty => hne ?_, ?_⟩
    · have hlist := congrArg String.toList hempty
      simp only [String.toList_append, String.toList_empty, List.append_eq_nil_iff] at hlist
      exact String.toList_inj.mp (by rw [hlist.1.1, String.toList_empty])
    · rw [hasControl_eq] at hcontrol ⊢
      have hdash : "_".toList.any isControl = false := by decide
      rw [String.toList_append, String.toList_append, List.any_append, List.any_append, hcontrol,
        hdash, String.toList_ofList, hexSha256_no_control]
      rfl

/-! ### Governance bindings -/

/-- `GovernanceContractError`, as far as bindings raise it. -/
inductive GovernanceContractError where
  | invalid (text : String)
  | integrityMismatch (expected actual : String)
  deriving DecidableEq

/-- `Display`. -/
def GovernanceContractError.text : GovernanceContractError → String
  | .invalid text => s!"invalid governance contract: {text}"
  | .integrityMismatch expected actual =>
    s!"integrity mismatch: expected {expected}, computed {actual}"

/-- `GovernanceBinding`. -/
structure GovernanceBinding where
  schemaVersion : Nat
  policySnapshotHash : String
  tenantId : Option String
  agentId : Option String
  runId : String
  bindingHash : String
  deriving DecidableEq

/-- `validate_binding_id`. The length is counted in bytes. -/
def validateBindingId (field : String) (value : Option String) : Except GovernanceContractError Unit :=
  refuseIf (value.any fun text => text = "" || 512 < text.utf8ByteSize || hasControl text)
    (.invalid s!"governance binding {field} is invalid")

namespace GovernanceBinding

def payload (b : GovernanceBinding) : GovernanceBindingPayload where
  schemaVersion := b.schemaVersion
  policySnapshotHash := b.policySnapshotHash
  tenantId := b.tenantId
  agentId := b.agentId
  runId := b.runId

def validateShape (b : GovernanceBinding) : Except GovernanceContractError Unit := do
  refuseIf (b.schemaVersion ≠ governanceContractVersion)
    (.invalid s!"unsupported governance binding schema version {b.schemaVersion}")
  refuseIf (isSha256Digest b.policySnapshotHash = false)
    (.invalid "governance binding policy hash must be sha256:<64 hex>")
  validateBindingId "run_id" (some b.runId)
  validateBindingId "tenant_id" b.tenantId
  validateBindingId "agent_id" b.agentId

variable [Digest]

/-- `computed_hash`. -/
def computedHash (b : GovernanceBinding) : String := canonicalDigest b.payload

def validate (b : GovernanceBinding) : Except GovernanceContractError Unit := do
  b.validateShape
  refuseIf (b.computedHash ≠ b.bindingHash) (.integrityMismatch b.bindingHash b.computedHash)

def «seal» (policySnapshotHash : String) (tenantId agentId : Option String) (runId : String) :
    Except GovernanceContractError GovernanceBinding := do
  let binding : GovernanceBinding :=
    { schemaVersion := governanceContractVersion, policySnapshotHash, tenantId, agentId, runId,
      bindingHash := "" }
  binding.validateShape
  pure { binding with bindingHash := binding.computedHash }

/-- `for_run`. -/
def forRun (b : GovernanceBinding) (runId : String) :
    Except GovernanceContractError GovernanceBinding :=
  «seal» b.policySnapshotHash b.tenantId b.agentId runId

end GovernanceBinding

end AikitRuntime.Durability
