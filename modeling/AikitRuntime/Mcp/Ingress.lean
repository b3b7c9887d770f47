import AikitRuntime.Library.Refusals
import AikitRuntime.Library.SortedMaps
import AikitRuntime.Durability.Json

/-!
# Governed ingress

What every protocol shares: errors, the identities that a request carries, principals with their
scopes, and the envelope that says whether a request is allowed. An action can be taken out of a
`GovernedAction` only if its envelope allows it.
-/

namespace AikitRuntime.Mcp

open Library Durability

/-! ### Errors -/

/-- `ProtocolErrorCode`. -/
inductive ProtocolErrorCode where
  | invalidRequest | unauthorized | forbidden | notFound | conflict | invalidTransition | cancelled
  deriving DecidableEq

/-- `ProtocolError`. -/
structure ProtocolError where
  code : ProtocolErrorCode
  message : String
  deriving DecidableEq

namespace ProtocolError

def invalid (message : String) : ProtocolError := ⟨.invalidRequest, message⟩

def notFound (message : String) : ProtocolError := ⟨.notFound, message⟩

def conflict (message : String) : ProtocolError := ⟨.conflict, message⟩

def invalidTransition (message : String) : ProtocolError := ⟨.invalidTransition, message⟩

end ProtocolError

/-- `ProtocolResult`. -/
abbrev ProtocolResult (α : Type) : Type := Except ProtocolError α

/-- `validate_identifier`. The length is counted in bytes. -/
def validateIdentifier (field value : String) : ProtocolResult Unit := do
  refuseIf (isBlank value) (.invalid s!"{field} must not be empty")
  refuseIf (512 < value.utf8ByteSize) (.invalid s!"{field} must not exceed 512 bytes")
  refuseIf (hasControl value) (.invalid s!"{field} must not contain control characters")

/-- A text that `validate_identifier` accepts. -/
def IsIdentifier (value : String) : Prop :=
  isBlank value = false ∧ value.utf8ByteSize ≤ 512 ∧ hasControl value = false

instance (value : String) : Decidable (IsIdentifier value) := inferInstanceAs (Decidable (_ ∧ _))

theorem validateIdentifier_eq_ok {field value : String} :
    validateIdentifier field value = .ok () ↔ IsIdentifier value := by
  simp [validateIdentifier, IsIdentifier, bind_eq_ok]

/-- `validate_scope_set`. -/
def validateScopeSet (scopes : BTreeSet) : ProtocolResult Unit :=
  firstRefusal (validateIdentifier "protocol scope") scopes.elements

/-! ### Identities -/

/-- `CorrelationIdentity`. -/
structure CorrelationIdentity where
  correlationId : String
  requestId : String
  sessionId : Option String
  runId : Option String
  deriving DecidableEq

namespace CorrelationIdentity

/-- `CorrelationIdentity::validate`. -/
def validate (identity : CorrelationIdentity) : ProtocolResult Unit := do
  validateIdentifier "correlation_id" identity.correlationId
  validateIdentifier "request_id" identity.requestId
  firstRefusal (validateIdentifier "session_id") identity.sessionId.toList
  firstRefusal (validateIdentifier "run_id") identity.runId.toList

/-- `CorrelationIdentity::new`. -/
def new (correlationId requestId : String) : ProtocolResult CorrelationIdentity := do
  let identity : CorrelationIdentity := ⟨correlationId, requestId, none, none⟩
  identity.validate
  pure identity

end CorrelationIdentity

/-- `ProtocolPrincipal`. -/
structure ProtocolPrincipal where
  subject : String
  tenantId : Option String
  scopes : BTreeSet
  deriving DecidableEq

namespace ProtocolPrincipal

/-- `ProtocolPrincipal::allows`. -/
def allows (principal : ProtocolPrincipal) (requiredScopes : BTreeSet) : Bool :=
  principal.scopes.contains "*" || requiredScopes.isSubset principal.scopes

/-- `ProtocolPrincipal::matches_identity`. -/
def matchesIdentity (principal : ProtocolPrincipal) (ownerSubject : String)
    (ownerTenantId : Option String) : Bool :=
  principal.subject = ownerSubject && principal.tenantId = ownerTenantId

variable {principal : ProtocolPrincipal}

theorem allows_iff {requiredScopes : BTreeSet} :
    principal.allows requiredScopes = true ↔
      principal.scopes.contains "*" = true ∨ requiredScopes.isSubset principal.scopes = true :=
  Bool.or_eq_true_iff

/-- Fewer scopes are allowed where more are. -/
theorem allows_of_isSubset {fewer more : BTreeSet}
    (h : principal.allows more = true) (hsubset : fewer.isSubset more = true) :
    principal.allows fewer = true :=
  allows_iff.mpr ((allows_iff.mp h).imp_right (BTreeSet.isSubset_trans hsubset))

/-- `ProtocolPrincipal::validate`. -/
def validate (principal : ProtocolPrincipal) : ProtocolResult Unit := do
  validateIdentifier "principal subject" principal.subject
  firstRefusal (validateIdentifier "tenant_id") principal.tenantId.toList
  firstRefusal (validateIdentifier "scope") principal.scopes.elements

end ProtocolPrincipal

/-! ### Envelopes -/

/-- `GovernanceDenialCode`. -/
inductive GovernanceDenialCode where
  | invalidRequest | missingPrincipal | missingScope | principalMismatch | unknownTarget
  | stateConflict | invalidApproval | duplicateConflict
  deriving DecidableEq

/-- `GovernanceAuthorization`. -/
inductive GovernanceAuthorization where
  | allowed
  | denied (code : GovernanceDenialCode) (reason : String)
  deriving DecidableEq

/-- `GovernanceAuthorization::is_allowed`. -/
def GovernanceAuthorization.isAllowed : GovernanceAuthorization → Bool
  | .allowed => true
  | .denied _ _ => false

/-- `GovernanceEnvelope`, less its version and its protocol, which are the same for all requests of
the server. -/
structure GovernanceEnvelope where
  correlation : CorrelationIdentity
  principal : Option ProtocolPrincipal
  operation : String
  target : String
  requiredScopes : BTreeSet
  authorization : GovernanceAuthorization
  deriving DecidableEq

namespace GovernanceEnvelope

/-- What `evaluate` decides. -/
def authorize (correlation : CorrelationIdentity) (principal : Option ProtocolPrincipal)
    (requiredScopes : BTreeSet) : GovernanceAuthorization :=
  match correlation.validate, principal with
  | .error error, _ => .denied .invalidRequest error.message
  | .ok _, none => .denied .missingPrincipal "authenticated principal is required"
  | .ok _, some principal =>
    match principal.validate with
    | .error error => .denied .invalidRequest error.message
    | .ok _ =>
      if principal.allows requiredScopes then .allowed
      else .denied .missingScope "principal lacks a required protocol scope"

/-- `GovernanceEnvelope::evaluate`. -/
def evaluate (correlation : CorrelationIdentity) (principal : Option ProtocolPrincipal)
    (operation target : String) (requiredScopes : BTreeSet) : GovernanceEnvelope where
  correlation
  principal
  operation
  target
  requiredScopes
  authorization := authorize correlation principal requiredScopes

/-- `GovernanceEnvelope::deny`. -/
def deny (envelope : GovernanceEnvelope) (code : GovernanceDenialCode) (reason : String) :
    GovernanceEnvelope :=
  { envelope with authorization := .denied code reason }

/-- An envelope that is allowed has a principal with the scopes that it requires. -/
theorem isAllowed_evaluate {correlation : CorrelationIdentity} {principal : Option ProtocolPrincipal}
    {operation target : String} {requiredScopes : BTreeSet}
    (h : (evaluate correlation principal operation target requiredScopes).authorization.isAllowed = true) :
    ∃ owner, principal = some owner ∧ owner.validate = .ok () ∧ owner.allows requiredScopes = true := by
  unfold evaluate authorize at h
  split at h
  · cases h
  · cases h
  · next owner _ =>
    split at h
    · cases h
    · next hvalid =>
      split at h
      · next hallows => exact ⟨owner, rfl, hvalid, hallows⟩
      · cases h

end GovernanceEnvelope

/-- `GovernedAction`. -/
structure GovernedAction (α : Type) where
  envelope : GovernanceEnvelope
  action : Option α
  deriving DecidableEq

namespace GovernedAction

variable {α : Type}

/-- `GovernedAction::from_envelope`. -/
def fromEnvelope (envelope : GovernanceEnvelope) (action : α) : GovernedAction α where
  envelope
  action := if envelope.authorization.isAllowed then some action else none

/-- `GovernedAction::denied`. -/
def denied (envelope : GovernanceEnvelope) : GovernedAction α := ⟨envelope, none⟩

/-- `GovernedAction::is_authorized`. -/
def isAuthorized (decision : GovernedAction α) : Bool :=
  decision.action.isSome && decision.envelope.authorization.isAllowed

@[simp] theorem action_denied (envelope : GovernanceEnvelope) :
    (denied envelope : GovernedAction α).action = none := rfl

variable {action : α} {envelope : GovernanceEnvelope}

/-- An action that an envelope lets through. -/
theorem action_fromEnvelope {a : α} :
    (fromEnvelope envelope action).action = some a ↔
      envelope.authorization.isAllowed = true ∧ action = a := by
  unfold fromEnvelope
  cases envelope.authorization.isAllowed <;> simp

/-- What is authorized has an action. -/
theorem isAuthorized_fromEnvelope :
    (fromEnvelope envelope action).isAuthorized = envelope.authorization.isAllowed := by
  unfold isAuthorized fromEnvelope
  cases envelope.authorization.isAllowed <;> rfl

end GovernedAction

/-- `scopes`. -/
def scopes (values : List String) : BTreeSet := .ofList values

end AikitRuntime.Mcp
