import AikitRuntime.Library.Counters
import AikitRuntime.Library.Methods
import AikitRuntime.Library.Refusals
import AikitRuntime.Library.SortedMaps
import AikitRuntime.Durability.Json
import AikitRuntime.Durability.Sha256

/-!
# The in-memory session store

`InMemorySessionStore` holds sessions, each with a revision, and the execution leases on them. A
worker acquires a lease, which is a claim with a secret token; it commits the session with the
claim, or releases it. A claim that expired can be recovered by another worker or cleared.

Both maps are behind locks: a call on the leases holds theirs to its end and takes that of the
sessions on the way, and the other calls take only that of the sessions, so every call has one
moment at which it takes effect. What a call reads of its surroundings, the clocks and the random
bytes of a new token, comes with the call (`Surroundings`). Messages, and what an outcome has
besides its messages, are any types. The hash maps are sorted here, which no call can tell.
-/

namespace AikitRuntime.Sessions

open Library Durability Method

/-- `SessionStoreError`. -/
inductive SessionStoreError where
  | notFound (id : String)
  | conflict (id : String) (expectedRevision actualRevision : Nat)
  | invalidId (reason : String)
  | io (message : String)
  | serialization (message : String)
  deriving DecidableEq

/-- `RunOutcome`: its messages, and what else it has. -/
structure RunOutcome (Message Details : Type) where
  messages : List Message
  details : Details

/-- `Session`. -/
structure Session (Message Details : Type) where
  id : String
  revision : Nat
  messages : List Message
  metadata : BTreeMap Value
  createdAtUnixMs : Nat
  updatedAtUnixMs : Nat
  outcome : Option (RunOutcome Message Details)

/-- `SessionExecutionLeaseRecord`. -/
structure SessionExecutionLeaseRecord where
  owner : String
  token : String
  expiresAtUnixMs : Nat
  deriving DecidableEq

/-- `SessionExecutionLease`: a claim. Its holder may change the session in it. -/
structure SessionExecutionLease (Message Details : Type) where
  session : Session Message Details
  owner : String
  token : String
  expiresAtUnixMs : Nat

/-- `InMemorySessionStore`. -/
structure InMemorySessionStore (Message Details : Type) where
  sessions : BTreeMap (Session Message Details)
  executionLeases : BTreeMap SessionExecutionLeaseRecord

/-- What a call reads of its surroundings: `now_unix_ms`, `execution_lease_now_unix_ms`, which may
fail, and the random bytes of a new token, which may not be there. -/
structure Surroundings where
  now : Nat
  leaseNow : Except SessionStoreError Nat
  random : Except SessionStoreError (Fin 16 → UInt8)

/-- `EXECUTION_LEASE_TTL_MS`. -/
def executionLeaseTtlMs : Nat := 24 * 60 * 60 * 1000

/-- The token of some random bytes. -/
def leaseToken (bytes : Fin 16 → UInt8) : String :=
  "lease-" ++ String.ofList ((List.ofFn bytes).flatMap fun byte =>
    [Sha256.hexDigit (byte.toNat / 16), Sha256.hexDigit (byte.toNat % 16)])

/-- `secure_execution_lease_token`. -/
def secureExecutionLeaseToken (around : Surroundings) : Except SessionStoreError String :=
  around.random.map leaseToken

/-- `SessionExecutionLeaseRecord::new`. -/
def SessionExecutionLeaseRecord.new (around : Surroundings) (owner : String) :
    Except SessionStoreError SessionExecutionLeaseRecord := do
  let token ← secureExecutionLeaseToken around
  let now ← around.leaseNow
  pure ⟨owner, token, saturatingAdd now executionLeaseTtlMs⟩

/-- `SessionExecutionLeaseRecord::is_expired`. -/
def SessionExecutionLeaseRecord.isExpired (around : Surroundings)
    (record : SessionExecutionLeaseRecord) : Except SessionStoreError Bool := do
  let now ← around.leaseNow
  pure (record.expiresAtUnixMs ≤ now)

/-- `validate_session_id`. -/
def validateSessionId (sessionId : String) : Except SessionStoreError Unit := do
  refuseIf (isBlank sessionId) (.invalidId "id cannot be empty")
  refuseIf (hasControl sessionId) (.invalidId "id cannot contain control characters")

/-- `validate_execution_lease_owner`. -/
def validateExecutionLeaseOwner (owner : String) : Except SessionStoreError Unit :=
  refuseIf (isBlank owner ∨ hasControl owner)
    (.invalidId "execution lease owner must be non-empty and contain no control characters")

/-- `is_valid_execution_lease_token`. -/
def isValidExecutionLeaseToken (token : String) : Bool :=
  let chars := token.toList
  chars.take 6 = "lease-".toList && (chars.drop 6).length = 32 && (chars.drop 6).all isHexDigit

/-- `validate_stored_execution_lease`. -/
def validateStoredExecutionLease (record : SessionExecutionLeaseRecord) :
    Except SessionStoreError Unit := do
  refuseIf (isBlank record.owner ∨ hasControl record.owner)
    (.serialization "stored execution lease has an invalid owner")
  refuseIf (isValidExecutionLeaseToken record.token = false)
    (.serialization "stored execution lease has an invalid fencing token")

/-- `validate_revision`. -/
def validateRevision (sessionId : String) (expectedRevision actualRevision : Nat) :
    Except SessionStoreError Unit :=
  refuseIf (expectedRevision ≠ actualRevision) (.conflict sessionId expectedRevision actualRevision)

section
variable {Message Details : Type}

/-- `SessionExecutionLease::from_record`. -/
def SessionExecutionLease.fromRecord (session : Session Message Details)
    (record : SessionExecutionLeaseRecord) : SessionExecutionLease Message Details :=
  ⟨session, record.owner, record.token, record.expiresAtUnixMs⟩

/-- `execution_lease_conflict`: the other revision is made up, and differs from the session's. -/
def executionLeaseConflict (session : Session Message Details) : SessionStoreError :=
  .conflict session.id session.revision ((checkedAdd session.revision 1).getD 0)

/-- `validate_lease_base`. -/
def validateLeaseBase (current : Option (Session Message Details)) (base : Session Message Details) :
    Except SessionStoreError Unit :=
  if base.revision = 0 then
    match current with
    | some current => .error (.conflict base.id 0 current.revision)
    | none => .ok ()
  else do
    let current ← okOr current (.notFound base.id)
    validateRevision base.id base.revision current.revision

/-- `validate_execution_lease_claim`. -/
def validateExecutionLeaseClaim (actual : Option SessionExecutionLeaseRecord)
    (claim : SessionExecutionLease Message Details) : Except SessionStoreError Unit :=
  match actual with
  | some record =>
    refuseIf (¬ (record.owner = claim.owner ∧ record.token = claim.token ∧
      isValidExecutionLeaseToken record.token)) (executionLeaseConflict claim.session)
  | none => .error (executionLeaseConflict claim.session)

/-- `synchronize_outcome_messages`. -/
def synchronizeOutcomeMessages (session : Session Message Details) : Session Message Details :=
  { session with outcome := session.outcome.map fun o => { o with messages := session.messages } }

/-- `initialize_created_session`. -/
def initializeCreatedSession (around : Surroundings) (session : Session Message Details) :
    Session Message Details :=
  synchronizeOutcomeMessages
    { session with revision := 1, createdAtUnixMs := around.now, updatedAtUnixMs := around.now }

/-- `prepare_replacement`. -/
def prepareReplacement (around : Surroundings) (current replacement : Session Message Details) :
    Except SessionStoreError (Session Message Details) := do
  let revision ← okOr (checkedAdd current.revision 1)
    (.io s!"session `{current.id}` revision overflow")
  pure (synchronizeOutcomeMessages
    { replacement with
      revision
      createdAtUnixMs := current.createdAtUnixMs
      updatedAtUnixMs := max around.now (saturatingAdd current.updatedAtUnixMs 1) })

/-- A call on the store. -/
abbrev StoreCall (Message Details α : Type) : Type :=
  Method (InMemorySessionStore Message Details) SessionStoreError α

namespace InMemorySessionStore

/-- `InMemorySessionStore::default()`. -/
def empty : InMemorySessionStore Message Details := ⟨∅, ∅⟩

/-- `create_session`. -/
def createSession (around : Surroundings) (session : Session Message Details) :
    StoreCall Message Details (Session Message Details) := do
  check (validateSessionId session.id)
  let store ← read id
  match store.sessions[session.id]? with
  | some current => throw (.conflict session.id 0 current.revision)
  | none =>
    let session := initializeCreatedSession around session
    modify fun store => { store with sessions := store.sessions.insert session.id session }
    pure session

/-- `compare_and_swap`. -/
def compareAndSwap (around : Surroundings) (expectedRevision : Nat)
    (replacement : Session Message Details) :
    StoreCall Message Details (Session Message Details) := do
  check (validateSessionId replacement.id)
  let store ← read id
  let current ← check (okOr store.sessions[replacement.id]? (.notFound replacement.id))
  check (validateRevision replacement.id expectedRevision current.revision)
  let replacement ← check (prepareReplacement around current replacement)
  modify fun store => { store with sessions := store.sessions.insert replacement.id replacement }
  pure replacement

/-- `acquire_execution_lease`. -/
def acquireExecutionLease (around : Surroundings) (base : Session Message Details) (owner : String) :
    StoreCall Message Details (SessionExecutionLease Message Details) := do
  check (validateSessionId base.id)
  check (validateExecutionLeaseOwner owner)
  let store ← read id
  check (refuseIf (store.executionLeases.contains base.id) (executionLeaseConflict base))
  check (validateLeaseBase store.sessions[base.id]? base)
  let record ← check (SessionExecutionLeaseRecord.new around owner)
  modify fun store => { store with executionLeases := store.executionLeases.insert base.id record }
  pure (.fromRecord base record)

/-- What a recovery and a clearing ask: there is a lease, it is sound, and it is expired. -/
def checkExpired (around : Surroundings) (base : Session Message Details)
    (store : InMemorySessionStore Message Details) : Except SessionStoreError Unit := do
  let lease ← okOr store.executionLeases[base.id]? (executionLeaseConflict base)
  validateStoredExecutionLease lease
  let expired ← lease.isExpired around
  refuseIf (expired = false) (executionLeaseConflict base)
  validateLeaseBase store.sessions[base.id]? base

/-- `recover_expired_execution_lease`. -/
def recoverExpiredExecutionLease (around : Surroundings) (base : Session Message Details)
    (recoveryOwner : String) :
    StoreCall Message Details (SessionExecutionLease Message Details) := do
  check (validateSessionId base.id)
  check (validateExecutionLeaseOwner recoveryOwner)
  let store ← read id
  check (checkExpired around base store)
  let recovered ← check (SessionExecutionLeaseRecord.new around recoveryOwner)
  modify fun store => { store with executionLeases := store.executionLeases.insert base.id recovered }
  pure (.fromRecord base recovered)

/-- `clear_expired_execution_lease`. -/
def clearExpiredExecutionLease (around : Surroundings) (base : Session Message Details) :
    StoreCall Message Details (Session Message Details) := do
  check (validateSessionId base.id)
  let store ← read id
  check (checkExpired around base store)
  modify fun store => { store with executionLeases := store.executionLeases.erase base.id }
  pure base

/-- The session that a commit writes, or why it writes none. -/
def committed (around : Surroundings) (session : Session Message Details)
    (current : Option (Session Message Details)) :
    Except SessionStoreError (Session Message Details) :=
  if session.revision = 0 then
    match current with
    | some current => .error (.conflict session.id 0 current.revision)
    | none => .ok (initializeCreatedSession around session)
  else do
    let current ← okOr current (.notFound session.id)
    validateRevision session.id session.revision current.revision
    prepareReplacement around current session

/-- An error after which a commit gives the lease up. -/
def givesUp : SessionStoreError → Bool
  | .conflict .. | .notFound _ => true
  | _ => false

/-- `commit_execution_lease`. -/
def commitExecutionLease (around : Surroundings) (lease : SessionExecutionLease Message Details) :
    StoreCall Message Details (Session Message Details) := do
  check (validateSessionId lease.session.id)
  let store ← read id
  check (validateExecutionLeaseClaim store.executionLeases[lease.session.id]? lease)
  match committed around lease.session store.sessions[lease.session.id]? with
  | .ok session =>
    modify fun store =>
      { sessions := store.sessions.insert session.id session
        executionLeases := store.executionLeases.erase lease.session.id }
    pure session
  | .error error =>
    if givesUp error then
      modify fun store =>
        { store with executionLeases := store.executionLeases.erase lease.session.id }
    throw error

/-- `release_execution_lease`. -/
def releaseExecutionLease (lease : SessionExecutionLease Message Details) :
    StoreCall Message Details (Session Message Details) := do
  check (validateSessionId lease.session.id)
  let store ← read id
  check (validateExecutionLeaseClaim store.executionLeases[lease.session.id]? lease)
  modify fun store =>
    { store with executionLeases := store.executionLeases.erase lease.session.id }
  pure lease.session

end InMemorySessionStore

end

end AikitRuntime.Sessions
