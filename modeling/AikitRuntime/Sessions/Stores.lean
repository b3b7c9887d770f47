import AikitRuntime.Sessions.SessionStore

/-!
# The built-in session stores

Besides the store in memory there are one in a JSON file, which is read and replaced as a whole, and one in two
tables of SQLite. `SessionStore` is what the three have in common; `load` and `save` of outcomes are written once, over
the other methods.

What a call meets at the file or the database comes with it (`Access`): whether it can be read, and what becomes of a
write. A column of JSON is the session that it decodes to. `load` and `save` show their errors as text in the source.
-/

namespace AikitRuntime.Sessions

open Library Durability Method

/-- What an outcome has besides its messages: the index of the first message of its invocation, and the rest. -/
structure OutcomeDetails (Rest : Type) where
  invocationStartMessageIndex : Option Nat
  rest : Rest

section
variable {Message Rest Details : Type}

/-! ### Outcomes -/

/-- `Session::from_outcome`. -/
def Session.fromOutcome (id : String) (outcome : RunOutcome Message Details) : Session Message Details :=
  ⟨id, 0, outcome.messages, ∅, 0, 0, some outcome⟩

/-- `Session::canonical_outcome`. -/
def Session.canonicalOutcome [DecidableEq Message] [Inhabited Rest] (session : Session Message (OutcomeDetails Rest)) :
    RunOutcome Message (OutcomeDetails Rest) :=
  let outcome := session.outcome.getD ⟨[], none, default⟩
  let outcome :=
    if outcome.messages ≠ session.messages then
      { outcome with details := { outcome.details with invocationStartMessageIndex := none } }
    else outcome
  { outcome with messages := session.messages }

/-- `SessionStore`, without `load` and `save`. -/
structure SessionStore (σ Message Details : Type) where
  createSession : Surroundings → Session Message Details → Method σ SessionStoreError (Session Message Details)
  loadSession : String → Method σ SessionStoreError (Session Message Details)
  compareAndSwap : Surroundings → Nat → Session Message Details → Method σ SessionStoreError (Session Message Details)
  acquireExecutionLease : Surroundings → Session Message Details → String →
    Method σ SessionStoreError (SessionExecutionLease Message Details)
  recoverExpiredExecutionLease : Surroundings → Session Message Details → String →
    Method σ SessionStoreError (SessionExecutionLease Message Details)
  clearExpiredExecutionLease : Surroundings → Session Message Details →
    Method σ SessionStoreError (Session Message Details)
  commitExecutionLease : Surroundings → SessionExecutionLease Message Details →
    Method σ SessionStoreError (Session Message Details)
  releaseExecutionLease : SessionExecutionLease Message Details → Method σ SessionStoreError (Session Message Details)

namespace SessionStore

variable {σ : Type}

/-- `load`. -/
def load [DecidableEq Message] [Inhabited Rest] (store : SessionStore σ Message (OutcomeDetails Rest))
    (sessionId : String) : Method σ SessionStoreError (Option (RunOutcome Message (OutcomeDetails Rest))) := fun s =>
  match store.loadSession sessionId s with
  | .ok session s => .ok (some session.canonicalOutcome) s
  | .error (.notFound _) s => .ok none s
  | .error error s => .error error s

variable (store : SessionStore σ Message Details) (around : Surroundings)

/-- One round of `save`. After a conflict the source goes round again. -/
def saveRound (sessionId : String) (outcome : RunOutcome Message Details) : Method σ SessionStoreError PUnit := fun s =>
  match store.loadSession sessionId s with
  | .ok current s =>
    (discard (store.compareAndSwap around current.revision
      { current with messages := outcome.messages, outcome := some outcome })) s
  | .error (.notFound _) s => (discard (store.createSession around (.fromOutcome sessionId outcome))) s
  | .error error s => .error error s

/-- `save`, up to so many rounds more. -/
def save : Nat → String → RunOutcome Message Details → Method σ SessionStoreError PUnit
  | 0, sessionId, outcome => store.saveRound around sessionId outcome
  | rounds + 1, sessionId, outcome => fun s =>
    match store.saveRound around sessionId outcome s with
    | .error (.conflict ..) s => save rounds sessionId outcome s
    | result => result

end SessionStore

/-! ### The store in memory -/

/-- `InMemorySessionStore::load_session`. -/
def InMemorySessionStore.loadSession (sessionId : String) : StoreCall Message Details (Session Message Details) := do
  check (validateSessionId sessionId)
  let store ← read id
  check (okOr store.sessions[sessionId]? (.notFound sessionId))

open InMemorySessionStore in
/-- `impl SessionStore for InMemorySessionStore`. -/
def inMemorySessionStore : SessionStore (InMemorySessionStore Message Details) Message Details where
  createSession := createSession
  loadSession := loadSession
  compareAndSwap := compareAndSwap
  acquireExecutionLease := acquireExecutionLease
  recoverExpiredExecutionLease := recoverExpiredExecutionLease
  clearExpiredExecutionLease := clearExpiredExecutionLease
  commitExecutionLease := commitExecutionLease
  releaseExecutionLease := releaseExecutionLease

/-! ### Files and databases -/

/-- What becomes of a write: it is made, or it is refused; or it is made and reported as failed. -/
inductive WriteFate where
  | made
  | refused (error : SessionStoreError)
  | madeLate (error : SessionStoreError)

/-- What a call meets at the file or the database. -/
structure Access where
  opened : Except SessionStoreError Unit
  fate : WriteFate

/-- A file or database that works. -/
def Access.working : Access := ⟨.ok (), .made⟩

/-- Replace the file, or commit the transaction. -/
def Access.write {σ : Type} (access : Access) (next : σ) : Method σ SessionStoreError PUnit := fun s =>
  match access.fate with
  | .made => .ok ⟨⟩ next
  | .refused error => .error error s
  | .madeLate error => .error error next

/-! ### The store in a file -/

/-- `SessionFile`. Its version is checked when it is opened. -/
structure SessionFile (Message Details : Type) where
  sessions : BTreeMap (Session Message Details)
  executionLeases : BTreeMap SessionExecutionLeaseRecord

/-- A call on the store in a file. -/
abbrev FileCall (Message Details α : Type) : Type := Method (SessionFile Message Details) SessionStoreError α

namespace JsonFileSessionStore

/-- `SessionFile::default()`. -/
def empty : SessionFile Message Details := ⟨∅, ∅⟩

variable (access : Access) (around : Surroundings)

/-- `read_database`. -/
def readDatabase : FileCall Message Details (SessionFile Message Details) := do
  check access.opened
  read id

/-- `write_database`. -/
def writeDatabase (database : SessionFile Message Details) : FileCall Message Details PUnit := access.write database

/-- `create_session`. -/
def createSession (session : Session Message Details) : FileCall Message Details (Session Message Details) := do
  check (validateSessionId session.id)
  let database ← readDatabase access
  match database.sessions[session.id]? with
  | some current => throw (.conflict session.id 0 current.revision)
  | none =>
    let session := initializeCreatedSession around session
    writeDatabase access { database with sessions := database.sessions.insert session.id session }
    pure session

/-- `load_session`. -/
def loadSession (sessionId : String) : FileCall Message Details (Session Message Details) := do
  check (validateSessionId sessionId)
  let database ← readDatabase access
  check (okOr database.sessions[sessionId]? (.notFound sessionId))

/-- `compare_and_swap`. -/
def compareAndSwap (expectedRevision : Nat) (replacement : Session Message Details) :
    FileCall Message Details (Session Message Details) := do
  check (validateSessionId replacement.id)
  let database ← readDatabase access
  let current ← check (okOr database.sessions[replacement.id]? (.notFound replacement.id))
  check (validateRevision replacement.id expectedRevision current.revision)
  let replacement ← check (prepareReplacement around current replacement)
  writeDatabase access { database with sessions := database.sessions.insert replacement.id replacement }
  pure replacement

/-- `acquire_execution_lease`. -/
def acquireExecutionLease (base : Session Message Details) (owner : String) :
    FileCall Message Details (SessionExecutionLease Message Details) := do
  check (validateSessionId base.id)
  check (validateExecutionLeaseOwner owner)
  let database ← readDatabase access
  check (refuseIf (database.executionLeases.contains base.id) (executionLeaseConflict base))
  check (validateLeaseBase database.sessions[base.id]? base)
  let record ← check (SessionExecutionLeaseRecord.new around owner)
  writeDatabase access { database with executionLeases := database.executionLeases.insert base.id record }
  pure (.fromRecord base record)

/-- What a recovery and a clearing ask. -/
def checkExpired (base : Session Message Details) (database : SessionFile Message Details) :
    Except SessionStoreError Unit := do
  let lease ← okOr database.executionLeases[base.id]? (executionLeaseConflict base)
  validateStoredExecutionLease lease
  let expired ← lease.isExpired around
  refuseIf (expired = false) (executionLeaseConflict base)
  validateLeaseBase database.sessions[base.id]? base

/-- `recover_expired_execution_lease`. -/
def recoverExpiredExecutionLease (base : Session Message Details) (recoveryOwner : String) :
    FileCall Message Details (SessionExecutionLease Message Details) := do
  check (validateSessionId base.id)
  check (validateExecutionLeaseOwner recoveryOwner)
  let database ← readDatabase access
  check (checkExpired around base database)
  let recovered ← check (SessionExecutionLeaseRecord.new around recoveryOwner)
  writeDatabase access { database with executionLeases := database.executionLeases.insert base.id recovered }
  pure (.fromRecord base recovered)

/-- `clear_expired_execution_lease`. -/
def clearExpiredExecutionLease (base : Session Message Details) :
    FileCall Message Details (Session Message Details) := do
  check (validateSessionId base.id)
  let database ← readDatabase access
  check (checkExpired around base database)
  writeDatabase access { database with executionLeases := database.executionLeases.erase base.id }
  pure base

/-- The session that a commit writes, or why it writes none. -/
def committed (session : Session Message Details) (current : Option (Session Message Details)) :
    Except SessionStoreError (Session Message Details) :=
  if session.revision = 0 then
    match current with
    | some current => .error (.conflict session.id 0 current.revision)
    | none => .ok (initializeCreatedSession around session)
  else do
    let current ← okOr current (.notFound session.id)
    validateRevision session.id session.revision current.revision
    prepareReplacement around current session

/-- `commit_execution_lease`. -/
def commitExecutionLease (lease : SessionExecutionLease Message Details) :
    FileCall Message Details (Session Message Details) := do
  check (validateSessionId lease.session.id)
  let database ← readDatabase access
  check (validateExecutionLeaseClaim database.executionLeases[lease.session.id]? lease)
  let executionLeases := database.executionLeases.erase lease.session.id
  match committed around lease.session database.sessions[lease.session.id]? with
  | .ok session =>
    writeDatabase access { sessions := database.sessions.insert session.id session, executionLeases }
    pure session
  | .error error =>
    if InMemorySessionStore.givesUp error then writeDatabase access { database with executionLeases }
    throw error

/-- `release_execution_lease`. -/
def releaseExecutionLease (lease : SessionExecutionLease Message Details) :
    FileCall Message Details (Session Message Details) := do
  check (validateSessionId lease.session.id)
  let database ← readDatabase access
  check (validateExecutionLeaseClaim database.executionLeases[lease.session.id]? lease)
  writeDatabase access { database with executionLeases := database.executionLeases.erase lease.session.id }
  pure lease.session

end JsonFileSessionStore

open JsonFileSessionStore in
/-- `impl SessionStore for JsonFileSessionStore`. -/
def jsonFileSessionStore (access : Access) : SessionStore (SessionFile Message Details) Message Details where
  createSession := createSession access
  loadSession := loadSession access
  compareAndSwap := compareAndSwap access
  acquireExecutionLease := acquireExecutionLease access
  recoverExpiredExecutionLease := recoverExpiredExecutionLease access
  clearExpiredExecutionLease := clearExpiredExecutionLease access
  commitExecutionLease := commitExecutionLease access
  releaseExecutionLease := releaseExecutionLease access

/-! ### The store in SQLite -/

/-- A row of `aikit_sessions`, without its primary key. -/
structure SessionRow (Message Details : Type) where
  revision : Int
  sessionJson : Session Message Details

/-- A row of `aikit_session_execution_leases`, without its primary key. -/
structure LeaseRow where
  owner : String
  token : Option String
  expiresAtUnixMs : Int
  deriving DecidableEq

/-- The two tables. -/
structure SessionTables (Message Details : Type) where
  sessions : BTreeMap (SessionRow Message Details)
  executionLeases : BTreeMap LeaseRow

/-- A call on the store in SQLite. -/
abbrev TableCall (Message Details α : Type) : Type := Method (SessionTables Message Details) SessionStoreError α

namespace SqliteSessionStore

def empty : SessionTables Message Details := ⟨∅, ∅⟩

/-- `revision_to_sql`. -/
def revisionToSql (revision : Nat) : Except SessionStoreError Int := do
  refuseIf (2 ^ 63 ≤ revision) (.io "session revision exceeds SQLite INTEGER range")
  pure revision

/-- `validate_id`. -/
def validateId (id : String) : Except SessionStoreError Unit :=
  refuseIf (isBlank id ∨ hasControl id) (.invalidId "id must be non-empty and contain no control characters")

/-- `current_revision`. -/
def currentRevision (tables : SessionTables Message Details) (id : String) : Except SessionStoreError (Option Nat) :=
  match tables.sessions[id]? with
  | none => .ok none
  | some row => do
    refuseIf (row.revision < 0) (.io "database contains a negative revision")
    pure (some row.revision.toNat)

/-- `sqlite_execution_lease_record`. -/
def sqliteExecutionLeaseRecord (tables : SessionTables Message Details) (id : String) :
    Except SessionStoreError (Option SessionExecutionLeaseRecord) :=
  match tables.executionLeases[id]? with
  | none => .ok none
  | some row => do
    let token ← okOr row.token (.serialization "stored SQLite execution lease has no fencing token")
    refuseIf (row.expiresAtUnixMs < 0) (.serialization "stored SQLite execution lease has an invalid expiration")
    let record := ⟨row.owner, token, row.expiresAtUnixMs.toNat⟩
    validateStoredExecutionLease record
    pure (some record)

/-- The row of a lease. -/
def leaseRow (record : SessionExecutionLeaseRecord) : Except SessionStoreError LeaseRow := do
  let expiresAtUnixMs ← revisionToSql record.expiresAtUnixMs
  pure ⟨record.owner, some record.token, expiresAtUnixMs⟩

/-- `WHERE id=?1 AND token=?2`: is there such a row? -/
def holdsToken (tables : SessionTables Message Details) (id token : String) : Bool :=
  tables.executionLeases[id]?.any fun row => row.token = some token

/-- `DELETE FROM aikit_session_execution_leases WHERE id=?1 AND token=?2`. -/
def deleteLease (tables : SessionTables Message Details) (id token : String) : BTreeMap LeaseRow :=
  if holdsToken tables id token then tables.executionLeases.erase id else tables.executionLeases

/-- What the calls on leases ask of the session. -/
def checkBase (tables : SessionTables Message Details) (base : Session Message Details) :
    Except SessionStoreError Unit := do
  let actualRevision ← currentRevision tables base.id
  if base.revision = 0 then
    match actualRevision with
    | some actualRevision => .error (.conflict base.id 0 actualRevision)
    | none => pure ()
  else
    let actualRevision ← okOr actualRevision (.notFound base.id)
    refuseIf (actualRevision ≠ base.revision) (.conflict base.id base.revision actualRevision)

variable (access : Access) (around : Surroundings)

/-- Begin a transaction, or a query. -/
def beginTransaction : TableCall Message Details (SessionTables Message Details) := do
  check access.opened
  read id

/-- `create_session`. -/
def createSession (session : Session Message Details) : TableCall Message Details (Session Message Details) := do
  check (validateId session.id)
  let session := { session with revision := 1, createdAtUnixMs := around.now, updatedAtUnixMs := around.now }
  let revision ← check (revisionToSql session.revision)
  let tables ← beginTransaction access
  match tables.sessions[session.id]? with
  | some _ =>
    let actual ← check (currentRevision tables session.id)
    throw (.conflict session.id 0 (actual.getD 0))
  | none =>
    access.write { tables with sessions := tables.sessions.insert session.id ⟨revision, session⟩ }
    pure session

/-- `load_session`. -/
def loadSession (sessionId : String) : TableCall Message Details (Session Message Details) := do
  check (validateId sessionId)
  let tables ← beginTransaction access
  check (okOr (tables.sessions[sessionId]?.map SessionRow.sessionJson) (.notFound sessionId))

/-- What replaces a session: it keeps the time of its creation. -/
def replaced (current replacement : Session Message Details) :
    Except SessionStoreError (Session Message Details) := do
  let revision ← okOr (checkedAdd current.revision 1) (.io "session revision overflow")
  pure
    { replacement with
      revision
      createdAtUnixMs := current.createdAtUnixMs
      updatedAtUnixMs := max around.now current.updatedAtUnixMs }

/-- `UPDATE aikit_sessions SET revision=?1,session_json=?2 WHERE id=?3 AND revision=?4`: the row before, if there is
one, and that after. -/
def updated (tables : SessionTables Message Details) (session : Session Message Details) (expectedRevision : Nat) :
    Except SessionStoreError (Option (BTreeMap (SessionRow Message Details))) := do
  let revision ← revisionToSql session.revision
  let expectedRevisionSql ← revisionToSql expectedRevision
  if tables.sessions[session.id]?.any fun row => row.revision = expectedRevisionSql then
    pure (some (tables.sessions.insert session.id ⟨revision, session⟩))
  else pure none

/-- The rows with a session that replaces one of a revision, and the session. -/
def replaceRow (session : Session Message Details) (expectedRevision : Nat)
    (tables : SessionTables Message Details) :
    Except SessionStoreError (BTreeMap (SessionRow Message Details) × Session Message Details) := do
  let current ← okOr (tables.sessions[session.id]?.map SessionRow.sessionJson) (.notFound session.id)
  refuseIf (current.revision ≠ expectedRevision) (.conflict session.id expectedRevision current.revision)
  let session ← replaced around current session
  match ← updated tables session expectedRevision with
  | some sessions => pure (sessions, session)
  | none =>
    let actual ← currentRevision tables session.id
    .error (.conflict session.id expectedRevision (actual.getD 0))

/-- `compare_and_swap`. -/
def compareAndSwap (expectedRevision : Nat) (replacement : Session Message Details) :
    TableCall Message Details (Session Message Details) := do
  check (validateId replacement.id)
  let tables ← beginTransaction access
  let (sessions, replacement) ← check (replaceRow around replacement expectedRevision tables)
  access.write { tables with sessions }
  pure replacement

/-- `acquire_execution_lease`. -/
def acquireExecutionLease (base : Session Message Details) (owner : String) :
    TableCall Message Details (SessionExecutionLease Message Details) := do
  check (validateId base.id)
  check (validateExecutionLeaseOwner owner)
  let tables ← beginTransaction access
  check (refuseIf (tables.executionLeases.contains base.id) (executionLeaseConflict base))
  check (checkBase tables base)
  let lease ← check (SessionExecutionLeaseRecord.new around owner)
  let row ← check (leaseRow lease)
  access.write { tables with executionLeases := tables.executionLeases.insert base.id row }
  pure (.fromRecord base lease)

/-- What a recovery and a clearing ask, and the lease. -/
def checkExpired (base : Session Message Details) (tables : SessionTables Message Details) :
    Except SessionStoreError SessionExecutionLeaseRecord := do
  let existing ← sqliteExecutionLeaseRecord tables base.id
  let existing ← okOr existing (executionLeaseConflict base)
  let expired ← existing.isExpired around
  refuseIf (expired = false) (executionLeaseConflict base)
  checkBase tables base
  pure existing

/-- `recover_expired_execution_lease`. -/
def recoverExpiredExecutionLease (base : Session Message Details) (recoveryOwner : String) :
    TableCall Message Details (SessionExecutionLease Message Details) := do
  check (validateId base.id)
  check (validateExecutionLeaseOwner recoveryOwner)
  let tables ← beginTransaction access
  let _ ← check (checkExpired around base tables)
  let recovered ← check (SessionExecutionLeaseRecord.new around recoveryOwner)
  let row ← check (leaseRow recovered)
  access.write { tables with executionLeases := tables.executionLeases.insert base.id row }
  pure (.fromRecord base recovered)

/-- `clear_expired_execution_lease`. -/
def clearExpiredExecutionLease (base : Session Message Details) :
    TableCall Message Details (Session Message Details) := do
  check (validateId base.id)
  let tables ← beginTransaction access
  let existing ← check (checkExpired around base tables)
  check (refuseIf (holdsToken tables base.id existing.token = false) (executionLeaseConflict base))
  access.write { tables with executionLeases := deleteLease tables base.id existing.token }
  pure base

/-- The rows of the sessions that a commit writes and the session in them, or why it writes none. -/
def committed (session : Session Message Details) (tables : SessionTables Message Details) :
    Except SessionStoreError (BTreeMap (SessionRow Message Details) × Session Message Details) :=
  if session.revision = 0 then do
    match ← currentRevision tables session.id with
    | some actualRevision => .error (.conflict session.id 0 actualRevision)
    | none =>
      let session := { session with revision := 1, createdAtUnixMs := around.now, updatedAtUnixMs := around.now }
      pure (tables.sessions.insert session.id ⟨1, session⟩, session)
  else replaceRow around session session.revision tables

/-- `commit_execution_lease`. -/
def commitExecutionLease (lease : SessionExecutionLease Message Details) :
    TableCall Message Details (Session Message Details) := do
  check (validateId lease.session.id)
  let tables ← beginTransaction access
  let actual ← check (sqliteExecutionLeaseRecord tables lease.session.id)
  check (validateExecutionLeaseClaim actual lease)
  let executionLeases := deleteLease tables lease.session.id lease.token
  match committed around lease.session tables with
  | .ok (sessions, session) =>
    access.write { sessions, executionLeases }
    pure session
  | .error error =>
    if InMemorySessionStore.givesUp error then access.write { tables with executionLeases }
    throw error

/-- `release_execution_lease`. -/
def releaseExecutionLease (lease : SessionExecutionLease Message Details) :
    TableCall Message Details (Session Message Details) := do
  check (validateId lease.session.id)
  let tables ← beginTransaction access
  let actual ← check (sqliteExecutionLeaseRecord tables lease.session.id)
  check (validateExecutionLeaseClaim actual lease)
  check (refuseIf (holdsToken tables lease.session.id lease.token = false) (executionLeaseConflict lease.session))
  access.write { tables with executionLeases := deleteLease tables lease.session.id lease.token }
  pure lease.session

end SqliteSessionStore

open SqliteSessionStore in
/-- `impl SessionStore for SqliteSessionStore`. -/
def sqliteSessionStore (access : Access) : SessionStore (SessionTables Message Details) Message Details where
  createSession := createSession access
  loadSession := loadSession access
  compareAndSwap := compareAndSwap access
  acquireExecutionLease := acquireExecutionLease access
  recoverExpiredExecutionLease := recoverExpiredExecutionLease access
  clearExpiredExecutionLease := clearExpiredExecutionLease access
  commitExecutionLease := commitExecutionLease access
  releaseExecutionLease := releaseExecutionLease access

/-! ### Calls -/

/-- A call on a session store. -/
inductive SessionRequest (Message Details : Type) where
  | create (around : Surroundings) (session : Session Message Details)
  | loadSession (sessionId : String)
  | swap (around : Surroundings) (expectedRevision : Nat) (replacement : Session Message Details)
  | acquire (around : Surroundings) (base : Session Message Details) (owner : String)
  | recover (around : Surroundings) (base : Session Message Details) (recoveryOwner : String)
  | clear (around : Surroundings) (base : Session Message Details)
  | commit (around : Surroundings) (lease : SessionExecutionLease Message Details)
  | release (lease : SessionExecutionLease Message Details)
  | load (sessionId : String)
  | save (around : Surroundings) (rounds : Nat) (sessionId : String) (outcome : RunOutcome Message Details)

/-- What a call returns. -/
inductive SessionReply (Message Details : Type) where
  | session (session : Session Message Details)
  | lease (lease : SessionExecutionLease Message Details)
  | outcome (outcome : Option (RunOutcome Message Details))
  | saved

/-- The method of a call. -/
def SessionStore.request [DecidableEq Message] [Inhabited Rest] {σ : Type}
    (store : SessionStore σ Message (OutcomeDetails Rest)) :
    SessionRequest Message (OutcomeDetails Rest) →
      Method σ SessionStoreError (SessionReply Message (OutcomeDetails Rest))
  | .create around session => .session <$> store.createSession around session
  | .loadSession sessionId => .session <$> store.loadSession sessionId
  | .swap around expectedRevision replacement => .session <$> store.compareAndSwap around expectedRevision replacement
  | .acquire around base owner => .lease <$> store.acquireExecutionLease around base owner
  | .recover around base recoveryOwner => .lease <$> store.recoverExpiredExecutionLease around base recoveryOwner
  | .clear around base => .session <$> store.clearExpiredExecutionLease around base
  | .commit around lease => .session <$> store.commitExecutionLease around lease
  | .release lease => .session <$> store.releaseExecutionLease lease
  | .load sessionId => .outcome <$> store.load sessionId
  | .save around rounds sessionId outcome => (fun _ => .saved) <$> store.save around rounds sessionId outcome

end

end AikitRuntime.Sessions
