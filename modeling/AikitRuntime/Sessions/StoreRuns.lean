import AikitRuntime.Library.Simulations
import AikitRuntime.Sessions.Stores

/-!
# Calls on the session stores

The three stores are given the same calls. The store in a file does what the one in memory does. SQLite has tables of
the same sessions and leases (`tablesOf`), but it does not give an outcome the messages of its session, and the time of
a change that falls in the same millisecond as the one before is not moved on. `WritesAlike` says where this makes no
difference.
-/

namespace AikitRuntime.Sessions

open Std SessionStoreError SessionStore
open Library Durability Method

section
variable {Message Rest Details : Type}

/-! ### The store in a file -/

/-- The file with what a store in memory holds. -/
def fileOf (s : InMemorySessionStore Message Details) : SessionFile Message Details := ⟨s.sessions, s.executionLeases⟩

/-- The file holds what the store in memory does. -/
def IsFile (s : InMemorySessionStore Message Details) (file : SessionFile Message Details) : Prop := file = fileOf s

variable {s : InMemorySessionStore Message Details} {around : Surroundings}

section
open JsonFileSessionStore

theorem sessions_fileOf : (fileOf s).sessions = s.sessions := rfl

/-- A file that can be read is read. -/
theorem run_readDatabase_bind {α : Type} (f : SessionFile Message Details → FileCall Message Details α)
    (file : SessionFile Message Details) : (readDatabase .working >>= f).run file = (f file).run file := rfl

theorem json_createSession (session : Session Message Details) :
    Matches IsFile ((InMemorySessionStore.createSession around session).run s)
      ((createSession .working around session).run (fileOf s)) := by
  refine Matches.check_bind rfl fun _ _ => ?_
  rw [run_read_bind, run_readDatabase_bind, id_eq, sessions_fileOf]
  cases s.sessions[session.id]? with
  | some current => exact .error rfl
  | none => exact .ok rfl

theorem json_loadSession (sessionId : String) :
    Matches IsFile ((InMemorySessionStore.loadSession sessionId).run s)
      ((loadSession .working sessionId).run (fileOf s)) := by
  refine Matches.check_bind rfl fun _ _ => ?_
  show Matches IsFile ((check (okOr s.sessions[sessionId]? _)).run s) ((check (okOr s.sessions[sessionId]? _)).run _)
  cases s.sessions[sessionId]? with
  | some current => exact .ok rfl
  | none => exact .error rfl

theorem json_compareAndSwap (expectedRevision : Nat) (replacement : Session Message Details) :
    Matches IsFile ((InMemorySessionStore.compareAndSwap around expectedRevision replacement).run s)
      ((compareAndSwap .working around expectedRevision replacement).run (fileOf s)) := by
  refine Matches.check_bind rfl fun _ _ => ?_
  refine Matches.check_bind rfl fun current _ => ?_
  refine Matches.check_bind rfl fun _ _ => ?_
  refine Matches.check_bind rfl fun replacement _ => ?_
  exact .ok rfl

theorem json_acquireExecutionLease (base : Session Message Details) (owner : String) :
    Matches IsFile ((InMemorySessionStore.acquireExecutionLease around base owner).run s)
      ((acquireExecutionLease .working around base owner).run (fileOf s)) := by
  refine Matches.check_bind rfl fun _ _ => ?_
  refine Matches.check_bind rfl fun _ _ => ?_
  refine Matches.check_bind rfl fun _ _ => ?_
  refine Matches.check_bind rfl fun _ _ => ?_
  refine Matches.check_bind rfl fun record _ => ?_
  exact .ok rfl

theorem json_recoverExpiredExecutionLease (base : Session Message Details) (owner : String) :
    Matches IsFile ((InMemorySessionStore.recoverExpiredExecutionLease around base owner).run s)
      ((recoverExpiredExecutionLease .working around base owner).run (fileOf s)) := by
  refine Matches.check_bind rfl fun _ _ => ?_
  refine Matches.check_bind rfl fun _ _ => ?_
  refine Matches.check_bind rfl fun _ _ => ?_
  refine Matches.check_bind rfl fun record _ => ?_
  exact .ok rfl

theorem json_clearExpiredExecutionLease (base : Session Message Details) :
    Matches IsFile ((InMemorySessionStore.clearExpiredExecutionLease around base).run s)
      ((clearExpiredExecutionLease .working around base).run (fileOf s)) := by
  refine Matches.check_bind rfl fun _ _ => ?_
  refine Matches.check_bind rfl fun _ _ => ?_
  exact .ok rfl

theorem json_commitExecutionLease (lease : SessionExecutionLease Message Details) :
    Matches IsFile ((InMemorySessionStore.commitExecutionLease around lease).run s)
      ((commitExecutionLease .working around lease).run (fileOf s)) := by
  refine Matches.check_bind rfl fun _ _ => ?_
  refine Matches.check_bind rfl fun _ _ => ?_
  have hsame : committed around lease.session s.sessions[lease.session.id]? =
      InMemorySessionStore.committed around lease.session s.sessions[lease.session.id]? := rfl
  dsimp only [id_eq]
  rw [sessions_fileOf, hsame]
  cases InMemorySessionStore.committed around lease.session s.sessions[lease.session.id]? with
  | ok session => exact .ok rfl
  | error error =>
    dsimp only
    cases InMemorySessionStore.givesUp error with
    | true => exact .error rfl
    | false => exact .error rfl

theorem json_releaseExecutionLease (lease : SessionExecutionLease Message Details) :
    Matches IsFile ((InMemorySessionStore.releaseExecutionLease lease).run s)
      ((releaseExecutionLease .working lease).run (fileOf s)) := by
  refine Matches.check_bind rfl fun _ _ => ?_
  refine Matches.check_bind rfl fun _ _ => ?_
  exact .ok rfl

end

/-! ### What is in a store -/

/-- Each session is at its id, and each lease is sound. -/
structure Kept (s : InMemorySessionStore Message Details) : Prop where
  session : ∀ {id : String} {session : Session Message Details}, s.sessions[id]? = some session → session.id = id
  lease : ∀ {id : String} {record : SessionExecutionLeaseRecord}, s.executionLeases[id]? = some record →
    validateStoredExecutionLease record = .ok ()

theorem kept_empty : Kept (.empty : InMemorySessionStore Message Details) where
  session h := by simp [InMemorySessionStore.empty] at h
  lease h := by simp [InMemorySessionStore.empty] at h

theorem Kept.insert (h : Kept s) (session : Session Message Details) :
    Kept { s with sessions := s.sessions.insert session.id session } where
  session := by
    intro id other hget
    rw [BTreeMap.get_insert] at hget
    split at hget
    · next heq =>
      cases hget
      exact heq
    · exact h.session hget
  lease := h.lease

theorem Kept.erase_lease (h : Kept s) (id : String) :
    Kept { s with executionLeases := s.executionLeases.erase id } where
  session := h.session
  lease := by
    intro other record hget
    rw [BTreeMap.get_erase] at hget
    split at hget
    · cases hget
    · exact h.lease hget

variable {record : SessionExecutionLeaseRecord}

theorem Kept.insert_lease (h : Kept s) (id : String)
    (hrecord : validateStoredExecutionLease record = .ok ()) :
    Kept { s with executionLeases := s.executionLeases.insert id record } where
  session := h.session
  lease := by
    intro other record' hget
    rw [BTreeMap.get_insert] at hget
    split at hget
    · cases hget
      exact hrecord
    · exact h.lease hget

theorem isValidExecutionLeaseToken_leaseToken (bytes : Fin 16 → UInt8) :
    isValidExecutionLeaseToken (leaseToken bytes) = true := by
  have hdigit : ∀ n < 16, isHexDigit (Sha256.hexDigit n) = true := by decide
  have hhex (items : List UInt8) :
      (items.flatMap fun byte => [Sha256.hexDigit (byte.toNat / 16), Sha256.hexDigit (byte.toNat % 16)]).length =
          2 * items.length ∧
        (items.flatMap fun byte => [Sha256.hexDigit (byte.toNat / 16), Sha256.hexDigit (byte.toNat % 16)]).all
          isHexDigit = true := by
    induction items with
    | nil => exact ⟨rfl, rfl⟩
    | cons byte rest ih =>
      obtain ⟨hlength, hall⟩ := ih
      have hhigh := hdigit (byte.toNat / 16) (by have := byte.toNat_lt; omega)
      have hlow := hdigit (byte.toNat % 16) (Nat.mod_lt _ (by decide))
      constructor
      · rw [List.flatMap_cons, List.length_append, hlength, List.length_cons]
        simp only [List.length_cons, List.length_nil]
        omega
      · rw [List.flatMap_cons, List.all_append, hall]
        simp [hhigh, hlow]
  obtain ⟨hlength, hall⟩ := hhex (List.ofFn bytes)
  unfold isValidExecutionLeaseToken leaseToken
  generalize (List.ofFn bytes).flatMap _ = digits at hlength hall
  have hdigits : (String.ofList digits).toList = digits := String.toList_ofList
  have htake : ("lease-".toList ++ digits).take 6 = "lease-".toList := List.take_left' rfl
  have hdrop : ("lease-".toList ++ digits).drop 6 = digits := List.drop_left' rfl
  dsimp only
  rw [String.toList_append, hdigits, htake, hdrop, hlength, hall, List.length_ofFn]
  rfl

/-- A new lease is sound. -/
theorem new_valid {owner : String}
    (howner : validateExecutionLeaseOwner owner = .ok ()) (h : SessionExecutionLeaseRecord.new around owner = .ok record) :
    validateStoredExecutionLease record = .ok () := by
  unfold SessionExecutionLeaseRecord.new secureExecutionLeaseToken at h
  obtain ⟨token, htoken, h⟩ := bind_eq_ok.mp h
  obtain ⟨now, -, h⟩ := bind_eq_ok.mp h
  obtain ⟨bytes, -, rfl⟩ := map_eq_ok.mp htoken
  cases h
  refine bind_eq_ok.mpr ⟨(), refuseIf_eq_ok.mpr (refuseIf_eq_ok.mp howner), refuseIf_eq_ok.mpr ?_⟩
  rw [isValidExecutionLeaseToken_leaseToken]
  exact Bool.noConfusion

/-! ### The tables -/

/-- The row of a session. -/
def sessionRow (session : Session Message Details) : SessionRow Message Details := ⟨session.revision, session⟩

/-- The row of a lease that fits. -/
def rowOfLease (record : SessionExecutionLeaseRecord) : LeaseRow :=
  ⟨record.owner, some record.token, record.expiresAtUnixMs⟩

/-- The tables with what a store in memory holds. -/
def tablesOf (s : InMemorySessionStore Message Details) : SessionTables Message Details where
  sessions := s.sessions.map fun _ session => sessionRow session
  executionLeases := s.executionLeases.map fun _ record => rowOfLease record

/-- What the counters of a store have to keep to for SQLite. -/
structure CountersFit (s : InMemorySessionStore Message Details) : Prop where
  revision : ∀ {id : String} {session : Session Message Details}, s.sessions[id]? = some session →
    session.revision < 2 ^ 63
  expires : ∀ {id : String} {record : SessionExecutionLeaseRecord}, s.executionLeases[id]? = some record →
    record.expiresAtUnixMs < 2 ^ 63

/-- What kind of error it is, and the numbers in it, without its text. -/
def SessionStoreError.variant : SessionStoreError → SessionStoreError
  | .invalidId _ => .invalidId ""
  | .io _ => .io ""
  | .serialization _ => .serialization ""
  | error => error

section
open SqliteSessionStore

theorem sessions_tablesOf (id : String) : (tablesOf s).sessions[id]? = s.sessions[id]?.map sessionRow := by
  unfold tablesOf
  rw [ExtTreeMap.getElem?_map]

theorem leases_tablesOf (id : String) : (tablesOf s).executionLeases[id]? = s.executionLeases[id]?.map rowOfLease := by
  unfold tablesOf
  rw [ExtTreeMap.getElem?_map]

theorem tablesOf_empty : tablesOf (.empty : InMemorySessionStore Message Details) = SqliteSessionStore.empty :=
  congrArg₂ SessionTables.mk (ExtTreeMap.ext_getElem? fun _ => by simp [InMemorySessionStore.empty])
    (ExtTreeMap.ext_getElem? fun _ => by simp [InMemorySessionStore.empty])

theorem tablesOf_insert (session : Session Message Details) :
    tablesOf { s with sessions := s.sessions.insert session.id session } =
      { tablesOf s with sessions := (tablesOf s).sessions.insert session.id (sessionRow session) } := by
  refine congrArg (SessionTables.mk · _) (ExtTreeMap.ext_getElem? fun id => ?_)
  simp only [tablesOf, ExtTreeMap.getElem?_map, ExtTreeMap.getElem?_insert]
  split
  · rfl
  · rfl

theorem tablesOf_insert_lease (id : String) (record : SessionExecutionLeaseRecord) :
    tablesOf { s with executionLeases := s.executionLeases.insert id record } =
      { tablesOf s with executionLeases := (tablesOf s).executionLeases.insert id (rowOfLease record) } := by
  refine congrArg (SessionTables.mk _) (ExtTreeMap.ext_getElem? fun id => ?_)
  simp only [tablesOf, ExtTreeMap.getElem?_map, ExtTreeMap.getElem?_insert]
  split
  · rfl
  · rfl

theorem tablesOf_erase_lease (id : String) :
    tablesOf { s with executionLeases := s.executionLeases.erase id } =
      { tablesOf s with executionLeases := (tablesOf s).executionLeases.erase id } := by
  refine congrArg (SessionTables.mk _) (ExtTreeMap.ext_getElem? fun id => ?_)
  simp only [tablesOf, ExtTreeMap.getElem?_map, ExtTreeMap.getElem?_erase]
  split
  · rfl
  · rfl

theorem currentRevision_tablesOf (id : String) :
    currentRevision (tablesOf s) id = .ok (s.sessions[id]?.map Session.revision) := by
  unfold currentRevision
  rw [sessions_tablesOf]
  cases s.sessions[id]? with
  | none => rfl
  | some session =>
    have hsign : ¬ (sessionRow session).revision < 0 := Int.not_lt.mpr (Int.natCast_nonneg _)
    dsimp only [Option.map_some]
    rw [refuseIf_of_not hsign]
    rfl

theorem sqliteExecutionLeaseRecord_tablesOf (h : Kept s) (id : String) :
    sqliteExecutionLeaseRecord (tablesOf s) id = .ok s.executionLeases[id]? := by
  unfold sqliteExecutionLeaseRecord
  rw [leases_tablesOf]
  cases hlease : s.executionLeases[id]? with
  | none => rfl
  | some record =>
    have hsign : ¬ (rowOfLease record).expiresAtUnixMs < 0 := Int.not_lt.mpr (Int.natCast_nonneg _)
    dsimp only [Option.map_some]
    rw [show (rowOfLease record).token = some record.token from rfl, okOr_some, ok_bind, refuseIf_of_not hsign, ok_bind]
    show (do validateStoredExecutionLease record; pure (some record)) = _
    rw [h.lease hlease]
    rfl

theorem checkBase_tablesOf (base : Session Message Details) :
    checkBase (tablesOf s) base = validateLeaseBase s.sessions[base.id]? base := by
  unfold checkBase validateLeaseBase
  rw [currentRevision_tablesOf, ok_bind]
  by_cases hzero : base.revision = 0
  · rw [if_pos hzero, if_pos hzero]
    cases s.sessions[base.id]? with
    | none => rfl
    | some current => rfl
  · rw [if_neg hzero, if_neg hzero]
    cases s.sessions[base.id]? with
    | none => rfl
    | some current =>
      dsimp only [Option.map_some]
      rw [okOr_some, okOr_some, ok_bind, ok_bind]
      exact if_congr ne_comm rfl rfl

/-- What a recovery and a clearing ask, and the lease. -/
theorem checkExpired_tablesOf (h : Kept s) (base : Session Message Details) :
    checkExpired around base (tablesOf s) = (do
      InMemorySessionStore.checkExpired around base s
      okOr s.executionLeases[base.id]? (executionLeaseConflict base)) := by
  unfold checkExpired InMemorySessionStore.checkExpired
  rw [sqliteExecutionLeaseRecord_tablesOf h, ok_bind, checkBase_tablesOf]
  cases hlease : s.executionLeases[base.id]? with
  | none => rfl
  | some record =>
    rw [okOr_some, ok_bind, ok_bind, h.lease hlease, ok_bind]
    cases record.isExpired around with
    | error error => rfl
    | ok expired =>
      rw [ok_bind, ok_bind]
      cases refuseIf (expired = false) (executionLeaseConflict base) with
      | error error => rfl
      | ok _ =>
        cases validateLeaseBase s.sessions[base.id]? base with
        | error error => rfl
        | ok _ => rfl

variable {record : SessionExecutionLeaseRecord}

theorem leaseRow_of_fit (h : record.expiresAtUnixMs < 2 ^ 63) :
    leaseRow record = .ok (rowOfLease record) := by
  unfold leaseRow revisionToSql
  rw [refuseIf_of_not (Nat.not_le.mpr h)]
  rfl

variable {id : String}

theorem holdsToken_tablesOf
    (h : s.executionLeases[id]? = some record) : holdsToken (tablesOf s) id record.token = true := by
  unfold holdsToken
  rw [leases_tablesOf, h]
  exact decide_eq_true rfl

theorem deleteLease_tablesOf
    (h : s.executionLeases[id]? = some record) :
    deleteLease (tablesOf s) id record.token = (tablesOf s).executionLeases.erase id :=
  if_pos (holdsToken_tablesOf h)

end

/-! ### What SQLite writes -/

/-- The outcome of the session, if it has one, has its messages. -/
def Session.Synchronized (session : Session Message Details) : Prop :=
  ∀ outcome, session.outcome = some outcome → outcome.messages = session.messages

/-- A call that writes, and writes the same in all stores: an outcome comes with the messages of its session, and a
session that is replaced was changed in an earlier millisecond. Calls that are refused are not asked. -/
def SessionRequest.WritesAlike (s : InMemorySessionStore Message Details) : SessionRequest Message Details → Prop
  | .create _ session => validateSessionId session.id = .ok () → s.sessions[session.id]? = none → session.Synchronized
  | .swap around expectedRevision replacement => validateSessionId replacement.id = .ok () →
    ∀ current, s.sessions[replacement.id]? = some current → current.revision = expectedRevision →
      replacement.Synchronized ∧ current.updatedAtUnixMs < around.now
  | .commit around lease => validateSessionId lease.session.id = .ok () →
    validateExecutionLeaseClaim s.executionLeases[lease.session.id]? lease = .ok () →
      CommitsAlike around lease.session s.sessions[lease.session.id]?
  | .save around _ sessionId _ => validateSessionId sessionId = .ok () →
    ∀ current, s.sessions[sessionId]? = some current → current.updatedAtUnixMs < around.now
  | _ => True
where
  /-- A commit creates a session, or replaces the one there is. -/
  CommitsAlike (around : Surroundings) (session : Session Message Details) : Option (Session Message Details) → Prop
  | none => session.revision = 0 → session.Synchronized
  | some current => session.revision ≠ 0 → current.revision = session.revision →
    session.Synchronized ∧ current.updatedAtUnixMs < around.now

theorem synchronizeOutcomeMessages_eq {session : Session Message Details} (h : session.Synchronized) :
    synchronizeOutcomeMessages session = session := by
  unfold synchronizeOutcomeMessages
  cases houtcome : session.outcome with
  | none => rw [Option.map_none, ← houtcome]
  | some outcome =>
    have hsame : { outcome with messages := session.messages } = outcome := by rw [← h outcome houtcome]
    rw [Option.map_some, hsame, ← houtcome]

/-- What replaces a session, in both stores. -/
theorem replaced_eq {current replacement : Session Message Details} (hsync : replacement.Synchronized)
    (hlater : current.updatedAtUnixMs < around.now) :
    (prepareReplacement around current replacement).mapError variant =
      (SqliteSessionStore.replaced around current replacement).mapError variant := by
  unfold prepareReplacement SqliteSessionStore.replaced
  cases checkedAdd current.revision 1 with
  | none => rfl
  | some revision =>
    have hstamp : max around.now (saturatingAdd current.updatedAtUnixMs 1) =
        max around.now current.updatedAtUnixMs := by
      have hstep : saturatingAdd current.updatedAtUnixMs 1 ≤ around.now := Nat.le_trans (Nat.min_le_left _ _) hlater
      rw [Nat.max_eq_left hstep, Nat.max_eq_left (Nat.le_of_lt hlater)]
    rw [okOr_some, okOr_some, ok_bind, ok_bind, hstamp]
    exact congrArg _ (congrArg _ (synchronizeOutcomeMessages_eq hsync))

section
open SqliteSessionStore

variable {expectedRevision : Nat} {replacement : Session Message Details}

variable {current : Session Message Details}

/-- A row with the expected revision is replaced. -/
theorem replaceRow_found
    (hcurrent : s.sessions[replacement.id]? = some current) (hexpected : current.revision = expectedRevision) :
    replaceRow around replacement expectedRevision (tablesOf s) = (do
      let session ← replaced around current replacement
      match ← updated (tablesOf s) session expectedRevision with
      | some sessions => pure (sessions, session)
      | none =>
        let actual ← currentRevision (tablesOf s) session.id
        .error (.conflict session.id expectedRevision (actual.getD 0))) := by
  unfold replaceRow
  rw [sessions_tablesOf, hcurrent, Option.map_some, Option.map_some, okOr_some, ok_bind]
  have hsession : (sessionRow current).sessionJson = current := rfl
  rw [hsession, refuseIf_of_not (not_not.mpr hexpected)]
  rfl

/-- A session that is replaced in one store is replaced in the other, if its revision fits. -/
theorem replaceRow_tablesOf
    (hcurrent : s.sessions[replacement.id]? = some current) (hexpected : current.revision = expectedRevision)
    (hfit : current.revision < 2 ^ 63) (hsync : replacement.Synchronized)
    (hlater : current.updatedAtUnixMs < around.now) :
    (∃ message message', prepareReplacement around current replacement = .error (.io message) ∧
        replaceRow around replacement expectedRevision (tablesOf s) = .error (.io message')) ∨
      ∃ session, prepareReplacement around current replacement = .ok session ∧ session.id = replacement.id ∧
        (session.revision < 2 ^ 63 → replaceRow around replacement expectedRevision (tablesOf s) =
          .ok ((tablesOf s).sessions.insert session.id (sessionRow session), session)) := by
  have hstart : replaceRow around replacement expectedRevision (tablesOf s) = _ := replaceRow_found hcurrent hexpected
  have hsame := replaced_eq hsync hlater
  cases hprepared : prepareReplacement around current replacement with
  | error error =>
    unfold prepareReplacement at hprepared
    cases hnext : checkedAdd current.revision 1 with
    | some revision =>
      rw [hnext] at hprepared
      cases hprepared
    | none =>
      rw [hnext] at hprepared
      cases hprepared
      refine .inl ⟨_, "session revision overflow", rfl, ?_⟩
      rw [hstart]
      unfold replaced
      rw [hnext]
      rfl
  | ok session =>
    rw [hprepared] at hsame
    cases hreplaced : replaced around current replacement with
    | error error =>
      rw [hreplaced] at hsame
      cases hsame
    | ok other =>
      rw [hreplaced] at hsame
      obtain rfl : session = other := Except.ok.inj hsame
      have hid : session.id = replacement.id := by
        unfold replaced at hreplaced
        obtain ⟨_, -, hreplaced⟩ := bind_eq_ok.mp hreplaced
        cases hreplaced
        rfl
      refine .inr ⟨session, rfl, hid, fun hrevision => ?_⟩
      have hrow : ((tablesOf s).sessions[session.id]?.any fun row => row.revision = (expectedRevision : Int)) = true := by
        rw [hid, sessions_tablesOf, hcurrent]
        exact decide_eq_true (congrArg _ hexpected)
      have hupdated : updated (tablesOf s) session expectedRevision =
          .ok (some ((tablesOf s).sessions.insert session.id (sessionRow session))) := by
        unfold updated revisionToSql
        rw [refuseIf_of_not (Nat.not_le.mpr hrevision), refuseIf_of_not (Nat.not_le.mpr (hexpected ▸ hfit))]
        exact if_pos hrow
      rw [hstart, hreplaced, ok_bind, hupdated]
      rfl

/-- Both ways of checking an id refuse the same ids. -/
theorem validateId_alike (id : String) :
    (validateSessionId id).mapError variant = (validateId id).mapError variant := by
  unfold validateSessionId validateId
  cases isBlank id with
  | true => rfl
  | false =>
    cases hasControl id with
    | true => rfl
    | false => rfl

/-- The tables hold what the store in memory does. -/
def IsTables (s : InMemorySessionStore Message Details) (tables : SessionTables Message Details) : Prop :=
  tables = tablesOf s

/-- A method, with its errors reported without their texts. -/
abbrev reported {σ α : Type} (m : Method σ SessionStoreError α) : Method σ SessionStoreError α :=
  mapError variant m

variable {α : Type}

variable {β σ : Type}

theorem run_reported_read_bind (g : σ → α) (f : α → Method σ SessionStoreError β) (s : σ) :
    (reported (read g >>= f)).run s = (reported (f (g s))).run s := rfl

theorem run_reported_check_bind_ok (a : α) (f : α → Method σ SessionStoreError β) (s : σ) :
    (reported (check (.ok a) >>= f)).run s = (reported (f a)).run s := rfl

/-- A transaction that can begin begins. -/
theorem run_reported_begin_bind (f : SessionTables Message Details → TableCall Message Details α)
    (tables : SessionTables Message Details) :
    (reported (beginTransaction .working >>= f)).run tables = (reported (f tables)).run tables := rfl

theorem sqlite_createSession (session : Session Message Details)
    (halike : (SessionRequest.create around session).WritesAlike s) :
    Matches IsTables ((reported (InMemorySessionStore.createSession around session)).run s)
      ((reported (createSession .working around session)).run (tablesOf s)) := by
  refine Matches.mapError_check_bind (validateId_alike session.id) rfl fun _ hvalid _ => ?_
  have hone : revisionToSql 1 = .ok 1 := rfl
  dsimp only
  rw [run_reported_read_bind, id_eq, hone, run_reported_check_bind_ok, run_reported_begin_bind, sessions_tablesOf]
  cases hcurrent : s.sessions[session.id]? with
  | some current =>
    rw [Option.map_some]
    dsimp only
    rw [currentRevision_tablesOf, hcurrent]
    exact .error rfl
  | none =>
    have hsame : initializeCreatedSession around session =
        { session with revision := 1, createdAtUnixMs := around.now, updatedAtUnixMs := around.now } :=
      synchronizeOutcomeMessages_eq (halike hvalid hcurrent)
    rw [Option.map_none]
    dsimp only
    rw [hsame]
    exact .ok (tablesOf_insert (s := s) { session with
      revision := 1, createdAtUnixMs := around.now, updatedAtUnixMs := around.now }).symm

theorem sqlite_loadSession (sessionId : String) :
    Matches IsTables ((reported (InMemorySessionStore.loadSession sessionId)).run s)
      ((reported (loadSession .working sessionId)).run (tablesOf s)) := by
  refine Matches.mapError_check_bind (validateId_alike sessionId) rfl fun _ _ _ => ?_
  show Matches IsTables ((reported (check (okOr s.sessions[sessionId]? _))).run s)
    ((reported (check (okOr ((tablesOf s).sessions[sessionId]?.map SessionRow.sessionJson) _))).run (tablesOf s))
  rw [sessions_tablesOf]
  cases s.sessions[sessionId]? with
  | some current => exact .ok rfl
  | none => exact .error rfl

theorem sqlite_compareAndSwap
    (halike : (SessionRequest.swap around expectedRevision replacement).WritesAlike s) (hfit : CountersFit s)
    (hafter : CountersFit
      (after ((InMemorySessionStore.compareAndSwap around expectedRevision replacement).run s))) :
    Matches IsTables ((reported (InMemorySessionStore.compareAndSwap around expectedRevision replacement)).run s)
      ((reported (compareAndSwap .working around expectedRevision replacement)).run (tablesOf s)) := by
  unfold InMemorySessionStore.compareAndSwap at hafter
  refine Matches.mapError_check_bind (validateId_alike replacement.id) rfl fun _ hvalid _ => ?_
  rw [hvalid, run_check_bind_ok, run_read_bind, id_eq] at hafter
  show Matches IsTables ((reported (check (okOr s.sessions[replacement.id]? _) >>= _)).run s)
    ((reported (check (replaceRow around replacement expectedRevision (tablesOf s)) >>= _)).run (tablesOf s))
  cases hcurrent : s.sessions[replacement.id]? with
  | none =>
    have hrow : replaceRow around replacement expectedRevision (tablesOf s) = .error (.notFound replacement.id) := by
      unfold replaceRow
      rw [sessions_tablesOf, hcurrent]
      rfl
    rw [hrow]
    exact .error rfl
  | some current =>
    rw [hcurrent, okOr_some, run_check_bind_ok] at hafter
    by_cases hexpected : current.revision = expectedRevision
    · obtain ⟨hsync, hlater⟩ := halike hvalid current hcurrent hexpected
      have hok : validateRevision replacement.id expectedRevision current.revision = .ok () :=
        refuseIf_of_not (not_not.mpr hexpected.symm)
      rw [hok, run_check_bind_ok] at hafter
      rw [okOr_some]
      show Matches IsTables ((reported (check (validateRevision _ _ _) >>= _)).run s) _
      rw [hok]
      show Matches IsTables ((reported (check (prepareReplacement _ _ _) >>= _)).run s) _
      rcases replaceRow_tablesOf hcurrent hexpected (hfit.revision hcurrent) hsync hlater with
        ⟨_, _, hprepared, hrow⟩ | ⟨session, hprepared, hid, hrow⟩
      · rw [hprepared, hrow]
        exact .error rfl
      · rw [hprepared] at hafter
        rw [hprepared, hrow (hafter.revision (BTreeMap.get_insert_self (k := session.id)))]
        exact .ok (tablesOf_insert (s := s) session).symm
    · have hconflict : validateRevision replacement.id expectedRevision current.revision =
          .error (.conflict replacement.id expectedRevision current.revision) :=
        refuseIf_eq_error.mpr ⟨Ne.symm hexpected, rfl⟩
      have hrow : replaceRow around replacement expectedRevision (tablesOf s) =
          .error (.conflict replacement.id expectedRevision current.revision) := by
        unfold replaceRow
        rw [sessions_tablesOf, hcurrent]
        show (do refuseIf (current.revision ≠ expectedRevision) _; _) = _
        rw [refuseIf_eq_error.mpr ⟨hexpected, rfl⟩]
        rfl
      rw [okOr_some, hrow]
      show Matches IsTables ((reported (check (validateRevision _ _ _) >>= _)).run s) _
      rw [hconflict]
      exact .error rfl

variable {base : Session Message Details}

variable {owner : String}

theorem sqlite_acquireExecutionLease
    (hafter : CountersFit (after ((InMemorySessionStore.acquireExecutionLease around base owner).run s))) :
    Matches IsTables ((reported (InMemorySessionStore.acquireExecutionLease around base owner)).run s)
      ((reported (acquireExecutionLease .working around base owner)).run (tablesOf s)) := by
  unfold InMemorySessionStore.acquireExecutionLease at hafter
  refine Matches.mapError_check_bind (validateId_alike base.id) rfl fun _ hvalid _ => ?_
  rw [hvalid, run_check_bind_ok] at hafter
  refine Matches.mapError_check_bind rfl rfl fun _ howner _ => ?_
  rw [howner, run_check_bind_ok, run_read_bind, id_eq] at hafter
  have hcontains : (tablesOf s).executionLeases.contains base.id = s.executionLeases.contains base.id :=
    ExtTreeMap.contains_map
  refine Matches.mapError_check_bind (congrArg _ (by rw [id_eq, id_eq, hcontains])) rfl fun _ hfree _ => ?_
  rw [id_eq] at hfree
  rw [hfree, run_check_bind_ok] at hafter
  refine Matches.mapError_check_bind (congrArg _ (checkBase_tablesOf base).symm) rfl fun _ hbase _ => ?_
  rw [id_eq] at hbase
  rw [hbase, run_check_bind_ok] at hafter
  refine Matches.mapError_check_bind rfl rfl fun record hrecord _ => ?_
  rw [hrecord] at hafter
  have hrow := leaseRow_of_fit (hafter.expires (BTreeMap.get_insert_self (k := base.id)))
  rw [hrow]
  exact .ok (tablesOf_insert_lease (s := s) base.id record).symm

variable {f : StoreCall Message Details α}

/-- What a recovery or a clearing checks is the same, and then there is a lease. -/
theorem Matches.checkExpired_bind (hkept : Kept s) {g : SessionExecutionLeaseRecord → TableCall Message Details α}
    (hf : ∀ record, InMemorySessionStore.checkExpired around base s = .ok () →
      s.executionLeases[base.id]? = some record →
      Matches IsTables ((reported f).run s) ((reported (g record)).run (tablesOf s))) :
    Matches IsTables ((reported (check (InMemorySessionStore.checkExpired around base s) >>= fun _ => f)).run s)
      ((reported (check (checkExpired around base (tablesOf s)) >>= g)).run (tablesOf s)) := by
  rw [checkExpired_tablesOf hkept]
  cases hexpired : InMemorySessionStore.checkExpired around base s with
  | error error => exact .error rfl
  | ok _ =>
    cases hlease : s.executionLeases[base.id]? with
    | none =>
      unfold InMemorySessionStore.checkExpired at hexpired
      rw [hlease] at hexpired
      cases hexpired
    | some record => exact hf record hexpired hlease

theorem sqlite_recoverExpiredExecutionLease (hkept : Kept s)
    (hafter : CountersFit (after ((InMemorySessionStore.recoverExpiredExecutionLease around base owner).run s))) :
    Matches IsTables ((reported (InMemorySessionStore.recoverExpiredExecutionLease around base owner)).run s)
      ((reported (recoverExpiredExecutionLease .working around base owner)).run (tablesOf s)) := by
  unfold InMemorySessionStore.recoverExpiredExecutionLease at hafter
  refine Matches.mapError_check_bind (validateId_alike base.id) rfl fun _ hvalid _ => ?_
  rw [hvalid, run_check_bind_ok] at hafter
  refine Matches.mapError_check_bind rfl rfl fun _ howner _ => ?_
  rw [howner, run_check_bind_ok, run_read_bind, id_eq] at hafter
  refine Matches.checkExpired_bind hkept fun _ hexpired _ => ?_
  rw [hexpired, run_check_bind_ok] at hafter
  refine Matches.mapError_check_bind rfl rfl fun record hrecord _ => ?_
  rw [hrecord] at hafter
  have hrow := leaseRow_of_fit (hafter.expires (BTreeMap.get_insert_self (k := base.id)))
  rw [hrow]
  exact .ok (tablesOf_insert_lease (s := s) base.id record).symm

theorem sqlite_clearExpiredExecutionLease (hkept : Kept s) :
    Matches IsTables ((reported (InMemorySessionStore.clearExpiredExecutionLease around base)).run s)
      ((reported (clearExpiredExecutionLease .working around base)).run (tablesOf s)) := by
  refine Matches.mapError_check_bind (validateId_alike base.id) rfl fun _ _ _ => ?_
  refine Matches.checkExpired_bind hkept fun record _ hlease => ?_
  have hheld : ¬ holdsToken (tablesOf s) base.id record.token = false := by
    rw [holdsToken_tablesOf hlease]
    exact Bool.noConfusion
  rw [id_eq, refuseIf_of_not hheld, deleteLease_tablesOf hlease]
  exact .ok (tablesOf_erase_lease (s := s) base.id).symm

variable {lease : SessionExecutionLease Message Details}

/-- What a commit or a release claims is the same, and then there is a lease with that token. -/
theorem Matches.claim_bind (hkept : Kept s) {g : TableCall Message Details α}
    (hf : ∀ record, validateExecutionLeaseClaim s.executionLeases[lease.session.id]? lease = .ok () →
      s.executionLeases[lease.session.id]? = some record → record.token = lease.token →
      Matches IsTables ((reported f).run s) ((reported g).run (tablesOf s))) :
    Matches IsTables
      ((reported (check (validateExecutionLeaseClaim s.executionLeases[lease.session.id]? lease) >>= fun _ => f)).run s)
      ((reported (check (sqliteExecutionLeaseRecord (tablesOf s) lease.session.id) >>= fun actual =>
        check (validateExecutionLeaseClaim actual lease) >>= fun _ => g)).run (tablesOf s)) := by
  rw [sqliteExecutionLeaseRecord_tablesOf hkept]
  refine Matches.mapError_check_bind rfl rfl fun _ hclaim _ => ?_
  cases hlease : s.executionLeases[lease.session.id]? with
  | none =>
    rw [hlease] at hclaim
    cases hclaim
  | some record =>
    refine hf record hclaim hlease ?_
    rw [hlease] at hclaim
    exact (not_not.mp (refuseIf_eq_ok.mp hclaim)).2.1

theorem sqlite_releaseExecutionLease (hkept : Kept s) :
    Matches IsTables ((reported (InMemorySessionStore.releaseExecutionLease lease)).run s)
      ((reported (releaseExecutionLease .working lease)).run (tablesOf s)) := by
  refine Matches.mapError_check_bind (validateId_alike lease.session.id) rfl fun _ _ _ => ?_
  refine Matches.claim_bind hkept fun record _ hlease htoken => ?_
  have hheld : ¬ holdsToken (tablesOf s) lease.session.id lease.token = false := by
    rw [← htoken, holdsToken_tablesOf hlease]
    exact Bool.noConfusion
  have hdelete : deleteLease (tablesOf s) lease.session.id lease.token =
      (tablesOf s).executionLeases.erase lease.session.id := by
    rw [← htoken, deleteLease_tablesOf hlease]
  rw [id_eq, refuseIf_of_not hheld, hdelete]
  exact .ok (tablesOf_erase_lease (s := s) lease.session.id).symm

/-- A commit writes the same session, or gives it up for the same reason. -/
theorem committed_tablesOf (around : Surroundings) {session : Session Message Details} (hfit : CountersFit s)
    (halike : SessionRequest.WritesAlike.CommitsAlike around session s.sessions[session.id]?) :
    (∃ error error', InMemorySessionStore.committed around session s.sessions[session.id]? = .error error ∧
        committed around session (tablesOf s) = .error error' ∧ error.variant = error'.variant) ∨
      ∃ written, InMemorySessionStore.committed around session s.sessions[session.id]? = .ok written ∧
        written.id = session.id ∧
        (written.revision < 2 ^ 63 → committed around session (tablesOf s) =
          .ok ((tablesOf s).sessions.insert written.id (sessionRow written), written)) := by
  unfold InMemorySessionStore.committed committed
  by_cases hzero : session.revision = 0
  · rw [if_pos hzero, if_pos hzero, currentRevision_tablesOf, ok_bind]
    cases hcurrent : s.sessions[session.id]? with
    | some current => exact .inl ⟨_, _, rfl, rfl, rfl⟩
    | none =>
      rw [hcurrent] at halike
      refine .inr ⟨initializeCreatedSession around session, rfl, rfl, fun _ => ?_⟩
      have hsame : initializeCreatedSession around session =
          { session with revision := 1, createdAtUnixMs := around.now, updatedAtUnixMs := around.now } :=
        synchronizeOutcomeMessages_eq (halike hzero)
      rw [hsame]
      rfl
  · rw [if_neg hzero, if_neg hzero]
    cases hcurrent : s.sessions[session.id]? with
    | none =>
      refine .inl ⟨.notFound session.id, .notFound session.id, rfl, ?_, rfl⟩
      unfold replaceRow
      rw [sessions_tablesOf, hcurrent]
      rfl
    | some current =>
      rw [hcurrent] at halike
      rw [okOr_some, ok_bind]
      by_cases hexpected : current.revision = session.revision
      · obtain ⟨hsync, hlater⟩ := halike hzero hexpected
        have hok : validateRevision session.id session.revision current.revision = .ok () :=
          refuseIf_of_not (not_not.mpr hexpected.symm)
        rw [hok, ok_bind]
        rcases replaceRow_tablesOf hcurrent hexpected (hfit.revision hcurrent) hsync hlater with
          ⟨_, _, hprepared, hrow⟩ | ⟨written, hprepared, hid, hrow⟩
        · exact .inl ⟨_, _, hprepared, hrow, rfl⟩
        · exact .inr ⟨written, hprepared, hid, hrow⟩
      · have hconflict : validateRevision session.id session.revision current.revision =
            .error (.conflict session.id session.revision current.revision) :=
          refuseIf_eq_error.mpr ⟨Ne.symm hexpected, rfl⟩
        refine .inl ⟨.conflict session.id session.revision current.revision,
          .conflict session.id session.revision current.revision, ?_, ?_, rfl⟩
        · rw [hconflict]
          rfl
        · unfold replaceRow
          rw [sessions_tablesOf, hcurrent]
          show (do refuseIf (current.revision ≠ session.revision) _; _) = _
          rw [refuseIf_eq_error.mpr ⟨hexpected, rfl⟩]
          rfl

/-- Whether a commit gives the lease up depends on the kind of error only. -/
theorem givesUp_variant (error : SessionStoreError) :
    InMemorySessionStore.givesUp error.variant = InMemorySessionStore.givesUp error := by
  cases error with
  | _ => rfl

theorem tablesOf_commit (session : Session Message Details) (id : String) :
    tablesOf { sessions := s.sessions.insert session.id session, executionLeases := s.executionLeases.erase id } =
      { sessions := (tablesOf s).sessions.insert session.id (sessionRow session)
        executionLeases := (tablesOf s).executionLeases.erase id } := by
  have hsessions := tablesOf_insert (s := { s with executionLeases := s.executionLeases.erase id }) session
  rw [tablesOf_erase_lease] at hsessions
  exact hsessions

theorem sqlite_commitExecutionLease (hkept : Kept s)
    (halike : (SessionRequest.commit around lease).WritesAlike s) (hfit : CountersFit s)
    (hafter : CountersFit (after ((InMemorySessionStore.commitExecutionLease around lease).run s))) :
    Matches IsTables ((reported (InMemorySessionStore.commitExecutionLease around lease)).run s)
      ((reported (commitExecutionLease .working around lease)).run (tablesOf s)) := by
  unfold InMemorySessionStore.commitExecutionLease at hafter
  refine Matches.mapError_check_bind (validateId_alike lease.session.id) rfl fun _ hvalid _ => ?_
  rw [hvalid, run_check_bind_ok, run_read_bind, id_eq] at hafter
  refine Matches.claim_bind hkept fun record hclaim hlease htoken => ?_
  rw [hclaim, run_check_bind_ok] at hafter
  have hdelete : deleteLease (tablesOf s) lease.session.id lease.token =
      (tablesOf s).executionLeases.erase lease.session.id := by
    rw [← htoken, deleteLease_tablesOf hlease]
  rw [id_eq, id_eq, hdelete]
  rcases committed_tablesOf around hfit (halike hvalid hclaim) with
    ⟨error, error', hcommitted, hrow, hvariant⟩ | ⟨session, hcommitted, hid, hrow⟩
  · rw [hcommitted, hrow]
    have hgives : InMemorySessionStore.givesUp error = InMemorySessionStore.givesUp error' := by
      rw [← givesUp_variant error, hvariant, givesUp_variant]
    dsimp only
    rw [hgives]
    cases InMemorySessionStore.givesUp error' with
    | true => exact ⟨congrArg Except.error hvariant, (tablesOf_erase_lease (s := s) lease.session.id).symm⟩
    | false => exact ⟨congrArg Except.error hvariant, rfl⟩
  · rw [hcommitted] at hafter
    rw [hcommitted, hrow (hafter.revision (BTreeMap.get_insert_self (k := session.id)))]
    exact .ok (tablesOf_commit (s := s) session lease.session.id).symm

end

/-! ### Outcomes -/

section
variable {σ : Type} {R : InMemorySessionStore Message (OutcomeDetails Rest) → σ → Prop}
  {s : InMemorySessionStore Message (OutcomeDetails Rest)} {t : σ}
  {store : SessionStore σ Message (OutcomeDetails Rest)}

variable {error : SessionStoreError}

variable {id : String}

theorem variant_eq_notFound :
    error.variant = .notFound id ↔ error = .notFound id := by
  cases error with
  | _ => simp [variant]

theorem variant_eq_conflict {expected actual : Nat} :
    error.variant = .conflict id expected actual ↔ error = .conflict id expected actual := by
  cases error with
  | _ => simp [variant]

/-- Loading a session does not change the store in memory. -/
theorem after_loadSession (sessionId : String) (s : InMemorySessionStore Message Details) :
    after ((InMemorySessionStore.loadSession sessionId).run s) = s := by
  unfold InMemorySessionStore.loadSession
  cases validateSessionId sessionId with
  | error error => rfl
  | ok _ =>
    show after ((check (okOr s.sessions[sessionId]? _)).run s) = s
    cases s.sessions[sessionId]? with
    | none => rfl
    | some session => rfl

variable {sessionId : String}

variable {s' : InMemorySessionStore Message Details}

/-- A session that is loaded is the one at its id. -/
theorem loadSession_eq_ok {session : Session Message Details}
    {s : InMemorySessionStore Message Details} :
    (InMemorySessionStore.loadSession sessionId).run s = .ok session s' ↔
      validateSessionId sessionId = .ok () ∧ s.sessions[sessionId]? = some session ∧ s = s' := by
  unfold InMemorySessionStore.loadSession
  simp only [run_check_bind_eq_ok, run_read_bind, run_check_eq_ok, okOr_eq_ok, id_eq]
  constructor
  · rintro ⟨_, h⟩
    exact h
  · exact fun h => ⟨(), h⟩

theorem validateSessionId_eq_error
    (h : validateSessionId sessionId = .error error) : ∃ message, error = .invalidId message := by
  rcases bind_eq_error.mp h with h | ⟨_, -, h⟩
  · exact ⟨_, (refuseIf_eq_error.mp h).2.symm⟩
  · exact ⟨_, (refuseIf_eq_error.mp h).2.symm⟩

/-- A session that is not found is not there. -/
theorem loadSession_eq_error
    {s : InMemorySessionStore Message Details}
    (h : (InMemorySessionStore.loadSession sessionId).run s = .error error s') :
    s = s' ∧ ((∃ message, error = .invalidId message) ∨
      validateSessionId sessionId = .ok () ∧ error = .notFound sessionId ∧ s.sessions[sessionId]? = none) := by
  unfold InMemorySessionStore.loadSession at h
  cases hvalid : validateSessionId sessionId with
  | error error =>
    rw [hvalid] at h
    cases h
    exact ⟨rfl, .inl (validateSessionId_eq_error hvalid)⟩
  | ok _ =>
    rw [hvalid, run_check_bind_ok, run_read_bind, id_eq] at h
    cases hsession : s.sessions[sessionId]? with
    | none =>
      rw [hsession] at h
      cases h
      exact ⟨rfl, .inr ⟨rfl, rfl, rfl⟩⟩
    | some session =>
      rw [hsession] at h
      cases h

/-- What a method that matches did. -/
theorem Matches.reported_cases {α : Type} {m : Method (InMemorySessionStore Message (OutcomeDetails Rest)) SessionStoreError α}
    {m' : Method σ SessionStoreError α} (h : Matches R ((reported m).run s) ((reported m').run t)) :
    (∃ a s' t', m.run s = .ok a s' ∧ m'.run t = .ok a t' ∧ R s' t') ∨
      ∃ error error' s' t', m.run s = .error error s' ∧ m'.run t = .error error' t' ∧
        error.variant = error'.variant ∧ R s' t' := by
  obtain ⟨hanswer, hafter⟩ := h
  rw [run_mapError, run_mapError] at hanswer hafter
  cases hm : m.run s with
  | ok a s' =>
    rw [hm] at hanswer hafter
    cases hm' : m'.run t with
    | ok b t' =>
      rw [hm'] at hanswer hafter
      obtain rfl : a = b := Except.ok.inj hanswer
      exact .inl ⟨a, s', t', rfl, rfl, hafter⟩
    | error error' t' =>
      rw [hm'] at hanswer
      cases hanswer
  | error error s' =>
    rw [hm] at hanswer hafter
    cases hm' : m'.run t with
    | ok b t' =>
      rw [hm'] at hanswer
      cases hanswer
    | error error' t' =>
      rw [hm'] at hanswer hafter
      exact .inr ⟨error, error', s', t', rfl, rfl, Except.error.inj hanswer, hafter⟩

section
variable [DecidableEq Message] [Inhabited Rest] {sessionId id : String} {t t' : σ}
  {session : Session Message (OutcomeDetails Rest)} {error : SessionStoreError}

theorem run_load : (store.load sessionId).run t = match (store.loadSession sessionId).run t with
    | .ok session t => .ok (some session.canonicalOutcome) t
    | .error (.notFound _) t => .ok none t
    | .error error t => .error error t := rfl

theorem run_load_ok (store : SessionStore σ Message (OutcomeDetails Rest))
    (h : (store.loadSession sessionId).run t = .ok session t') :
    (store.load sessionId).run t = .ok (some session.canonicalOutcome) t' := by
  rw [run_load, h]

theorem run_load_notFound (store : SessionStore σ Message (OutcomeDetails Rest))
    (h : (store.loadSession sessionId).run t = .error (.notFound id) t') :
    (store.load sessionId).run t = .ok none t' := by
  rw [run_load, h]

theorem run_load_error (store : SessionStore σ Message (OutcomeDetails Rest))
    (h : (store.loadSession sessionId).run t = .error error t')
    (hpresent : ¬ ∃ id, error = .notFound id) : (store.load sessionId).run t = .error error t' := by
  rw [run_load, h]
  cases error with
  | notFound id => exact absurd ⟨id, rfl⟩ hpresent
  | _ => rfl

end

/-- What is loaded is the same, if the sessions are. -/
theorem matches_load [DecidableEq Message] [Inhabited Rest]
    (h : Matches R ((reported (InMemorySessionStore.loadSession sessionId)).run s)
      ((reported (store.loadSession sessionId)).run t)) :
    Matches R ((reported (inMemorySessionStore.load sessionId)).run s) ((reported (store.load sessionId)).run t) := by
  rw [run_mapError, run_mapError]
  rcases Matches.reported_cases h with ⟨session, s', t', hs, ht, hafter⟩ | ⟨error, error', s', t', hs, ht, hvariant, hafter⟩
  · rw [run_load_ok inMemorySessionStore hs, run_load_ok store ht]
    exact .ok hafter
  · by_cases hmissing : ∃ id, error = .notFound id
    · obtain ⟨id, rfl⟩ := hmissing
      obtain rfl : error' = .notFound id := variant_eq_notFound.mp hvariant.symm
      rw [run_load_notFound inMemorySessionStore hs, run_load_notFound store ht]
      exact .ok hafter
    · have hpresent : ¬ ∃ id, error' = .notFound id := by
        rintro ⟨id, rfl⟩
        exact hmissing ⟨id, variant_eq_notFound.mp hvariant⟩
      rw [run_load_error inMemorySessionStore hs hmissing, run_load_error store ht hpresent]
      exact ⟨congrArg Except.error hvariant, hafter⟩

section
variable {sessionId id : String} {t t' : σ} {outcome : RunOutcome Message (OutcomeDetails Rest)}
  {current : Session Message (OutcomeDetails Rest)} {error : SessionStoreError}

theorem run_saveRound_ok (store : SessionStore σ Message (OutcomeDetails Rest))
    (h : (store.loadSession sessionId).run t = .ok current t') :
    (store.saveRound around sessionId outcome).run t = (discard (store.compareAndSwap around current.revision
      { current with messages := outcome.messages, outcome := some outcome })).run t' := by
  change store.loadSession sessionId t = _ at h
  unfold saveRound EStateM.run
  simp only [h]

theorem run_saveRound_notFound (store : SessionStore σ Message (OutcomeDetails Rest))
    (h : (store.loadSession sessionId).run t = .error (.notFound id) t') :
    (store.saveRound around sessionId outcome).run t =
      (discard (store.createSession around (.fromOutcome sessionId outcome))).run t' := by
  change store.loadSession sessionId t = _ at h
  unfold saveRound EStateM.run
  simp only [h]

theorem run_saveRound_error (store : SessionStore σ Message (OutcomeDetails Rest))
    (h : (store.loadSession sessionId).run t = .error error t')
    (hpresent : ¬ ∃ id, error = .notFound id) :
    (store.saveRound around sessionId outcome).run t = .error error t' := by
  change store.loadSession sessionId t = _ at h
  unfold saveRound EStateM.run
  simp only [h]
  cases error with
  | notFound id => exact absurd ⟨id, rfl⟩ hpresent
  | _ => rfl

theorem run_save_succ (rounds : Nat) : (store.save around (rounds + 1) sessionId outcome).run t =
    match (store.saveRound around sessionId outcome).run t with
    | .error (.conflict ..) t => (store.save around rounds sessionId outcome).run t
    | result => result := rfl

/-- A round that does not end with a conflict is the last. -/
theorem run_save_of_no_conflict (rounds : Nat)
    (h : ∀ id expected actual t', (store.saveRound around sessionId outcome).run t ≠ .error (.conflict id expected actual) t') :
    (store.save around rounds sessionId outcome).run t = (store.saveRound around sessionId outcome).run t := by
  cases rounds with
  | zero => rfl
  | succ rounds =>
    rw [run_save_succ]
    cases hround : (store.saveRound around sessionId outcome).run t with
    | ok a t' => rfl
    | error error t' =>
      cases error with
      | conflict id expected actual => exact absurd hround (h id expected actual t')
      | _ => rfl

end

/-- The session that is saved over one that is there. -/
def Session.saved (current : Session Message Details) (outcome : RunOutcome Message Details) : Session Message Details :=
  { current with messages := outcome.messages, outcome := some outcome }

variable {outcome : RunOutcome Message (OutcomeDetails Rest)}

/-- A round does the same, if loading, creating and swapping do. -/
theorem matches_saveRound
    (hload : Matches R ((reported (InMemorySessionStore.loadSession sessionId)).run s)
      ((reported (store.loadSession sessionId)).run t))
    (hcreate : s.sessions[sessionId]? = none → ∀ t', R s t' →
      Matches R ((reported (InMemorySessionStore.createSession around (.fromOutcome sessionId outcome))).run s)
        ((reported (store.createSession around (.fromOutcome sessionId outcome))).run t'))
    (hswap : ∀ current, (InMemorySessionStore.loadSession sessionId).run s = .ok current s → ∀ t', R s t' →
      Matches R
        ((reported (InMemorySessionStore.compareAndSwap around current.revision (current.saved outcome))).run s)
        ((reported (store.compareAndSwap around current.revision (current.saved outcome))).run t')) :
    Matches R ((reported (inMemorySessionStore.saveRound around sessionId outcome)).run s)
      ((reported (store.saveRound around sessionId outcome)).run t) := by
  rw [run_mapError, run_mapError]
  rcases Matches.reported_cases hload with ⟨current, s', t', hs, ht, hafter⟩ | ⟨error, error', s', t', hs, ht, hvariant, hafter⟩
  · rw [run_saveRound_ok inMemorySessionStore hs, run_saveRound_ok store ht]
    obtain ⟨-, -, rfl⟩ := loadSession_eq_ok.mp hs
    exact Matches.mapError_map (hswap current hs t' hafter) fun _ => PUnit.unit
  · by_cases hmissing : ∃ id, error = .notFound id
    · obtain ⟨id, rfl⟩ := hmissing
      obtain rfl : error' = .notFound id := variant_eq_notFound.mp hvariant.symm
      rw [run_saveRound_notFound inMemorySessionStore hs, run_saveRound_notFound store ht]
      obtain ⟨rfl, ⟨_, herror⟩ | ⟨-, -, hcurrent⟩⟩ := loadSession_eq_error hs
      · cases herror
      exact Matches.mapError_map (hcreate hcurrent t' hafter) fun _ => PUnit.unit
    · have hpresent : ¬ ∃ id, error' = .notFound id := by
        rintro ⟨id, rfl⟩
        exact hmissing ⟨id, variant_eq_notFound.mp hvariant⟩
      rw [run_saveRound_error inMemorySessionStore hs hmissing, run_saveRound_error store ht hpresent]
      exact ⟨congrArg Except.error hvariant, hafter⟩

/-- In memory nothing comes between the two calls of a round. -/
theorem saveRound_no_conflict (hkept : Kept s)
    (id : String) (expected actual : Nat) (s' : InMemorySessionStore Message (OutcomeDetails Rest)) :
    (inMemorySessionStore.saveRound around sessionId outcome).run s ≠ .error (.conflict id expected actual) s' := by
  intro hround
  cases hload : (InMemorySessionStore.loadSession sessionId).run s with
  | ok current t =>
    rw [run_saveRound_ok inMemorySessionStore hload] at hround
    obtain ⟨hvalid, hcurrent, rfl⟩ := loadSession_eq_ok.mp hload
    have hid := hkept.session hcurrent
    have hswap := run_map_eq_error.mp hround
    change (InMemorySessionStore.compareAndSwap around current.revision (current.saved outcome)).run s = _ at hswap
    unfold InMemorySessionStore.compareAndSwap Session.saved at hswap
    dsimp only at hswap
    rw [hid, hvalid, run_check_bind_ok, run_read_bind, id_eq, hcurrent, okOr_some, run_check_bind_ok] at hswap
    have hok : validateRevision sessionId current.revision current.revision = .ok () :=
      refuseIf_of_not (not_not.mpr rfl)
    rw [hok, run_check_bind_ok] at hswap
    cases hprepared : prepareReplacement around current
      { current with messages := outcome.messages, outcome := some outcome } with
    | ok session =>
      rw [hid] at hprepared
      rw [hprepared] at hswap
      cases hswap
    | error error =>
      rw [hid] at hprepared
      rw [hprepared] at hswap
      cases hswap
      unfold prepareReplacement at hprepared
      cases hnext : checkedAdd current.revision 1 with
      | none =>
        rw [hnext] at hprepared
        cases hprepared
      | some revision =>
        rw [hnext] at hprepared
        cases hprepared
  | error error t =>
    obtain ⟨rfl, ⟨message, rfl⟩ | ⟨hvalid, rfl, hcurrent⟩⟩ := loadSession_eq_error hload
    · have hpresent : ¬ ∃ id, invalidId message = .notFound id := by
        rintro ⟨_, herror⟩
        cases herror
      rw [run_saveRound_error inMemorySessionStore hload hpresent] at hround
      cases hround
    · rw [run_saveRound_notFound inMemorySessionStore hload] at hround
      have hcreate := run_map_eq_error.mp hround
      change (InMemorySessionStore.createSession around (.fromOutcome sessionId outcome)).run s = _ at hcreate
      unfold InMemorySessionStore.createSession Session.fromOutcome at hcreate
      dsimp only at hcreate
      rw [hvalid, run_check_bind_ok, run_read_bind, id_eq, hcurrent] at hcreate
      cases hcreate

/-- Saving does the same, if a round does. -/
theorem matches_save (hkept : Kept s)
    (hround : Matches R ((reported (inMemorySessionStore.saveRound around sessionId outcome)).run s)
      ((reported (store.saveRound around sessionId outcome)).run t)) (rounds : Nat) :
    Matches R ((reported (inMemorySessionStore.save around rounds sessionId outcome)).run s)
      ((reported (store.save around rounds sessionId outcome)).run t) := by
  have hthere : ∀ id expected actual t', (store.saveRound around sessionId outcome).run t ≠
      .error (.conflict id expected actual) t' := by
    intro id expected actual t' hconflict
    rcases Matches.reported_cases hround with ⟨_, _, _, _, ht, _⟩ | ⟨error, error', s', _, hs, ht, hvariant, -⟩
    · rw [ht] at hconflict
      cases hconflict
    · rw [ht] at hconflict
      cases hconflict
      obtain rfl := variant_eq_conflict.mp hvariant
      exact saveRound_no_conflict hkept _ _ _ _ hs
  rw [run_mapError, run_mapError, run_save_of_no_conflict rounds (saveRound_no_conflict hkept),
    run_save_of_no_conflict rounds hthere]
  exact hround

end

/-! ### Runs -/

section
variable {s : InMemorySessionStore Message Details}

/-- A call keeps what is in a store. -/
abbrev KeepsKept (s t : InMemorySessionStore Message Details) : Prop := Kept s → Kept t

instance : Std.Refl (@KeepsKept Message Details) := ⟨fun _ h => h⟩

theorem kept_createSession (session : Session Message Details) :
    Leads KeepsKept (InMemorySessionStore.createSession around session) s := by
  refine .check_bind fun _ _ => .read_bind ?_
  dsimp only [id_eq]
  cases s.sessions[session.id]? with
  | some current => exact .throw _
  | none => exact fun h => h.insert (initializeCreatedSession around session)

theorem kept_loadSession (sessionId : String) : Leads KeepsKept (InMemorySessionStore.loadSession sessionId) s := by
  intro h
  rw [after_loadSession]
  exact h

theorem kept_compareAndSwap (expectedRevision : Nat) (replacement : Session Message Details) :
    Leads KeepsKept (InMemorySessionStore.compareAndSwap around expectedRevision replacement) s :=
  .check_bind fun _ _ => .read_bind (.check_bind fun _ _ => .check_bind fun _ _ => .check_bind fun session _ h =>
    h.insert session)

theorem kept_acquireExecutionLease (base : Session Message Details) (owner : String) :
    Leads KeepsKept (InMemorySessionStore.acquireExecutionLease around base owner) s :=
  .check_bind fun _ _ => .check_bind fun _ howner => .read_bind (.check_bind fun _ _ => .check_bind fun _ _ =>
    .check_bind fun _ hrecord h => h.insert_lease base.id (new_valid howner hrecord))

theorem kept_recoverExpiredExecutionLease (base : Session Message Details) (owner : String) :
    Leads KeepsKept (InMemorySessionStore.recoverExpiredExecutionLease around base owner) s :=
  .check_bind fun _ _ => .check_bind fun _ howner => .read_bind (.check_bind fun _ _ =>
    .check_bind fun _ hrecord h => h.insert_lease base.id (new_valid howner hrecord))

theorem kept_clearExpiredExecutionLease (base : Session Message Details) :
    Leads KeepsKept (InMemorySessionStore.clearExpiredExecutionLease around base) s :=
  .check_bind fun _ _ => .read_bind (.check_bind fun _ _ h => h.erase_lease base.id)

theorem kept_commitExecutionLease (lease : SessionExecutionLease Message Details) :
    Leads KeepsKept (InMemorySessionStore.commitExecutionLease around lease) s := by
  refine .check_bind fun _ _ => .read_bind (.check_bind fun _ _ => ?_)
  dsimp only [id_eq]
  cases InMemorySessionStore.committed around lease.session s.sessions[lease.session.id]? with
  | ok session => exact fun h => (h.erase_lease lease.session.id).insert session
  | error error =>
    dsimp only
    cases InMemorySessionStore.givesUp error with
    | true => exact fun h => h.erase_lease lease.session.id
    | false => exact .throw _

theorem kept_releaseExecutionLease (lease : SessionExecutionLease Message Details) :
    Leads KeepsKept (InMemorySessionStore.releaseExecutionLease lease) s :=
  .check_bind fun _ _ => .read_bind (.check_bind fun _ _ h => h.erase_lease lease.session.id)

end

section
variable {s : InMemorySessionStore Message (OutcomeDetails Rest)}

theorem kept_saveRound (sessionId : String) (outcome : RunOutcome Message (OutcomeDetails Rest)) :
    Leads KeepsKept (inMemorySessionStore.saveRound around sessionId outcome) s := by
  intro h
  cases hload : (InMemorySessionStore.loadSession sessionId).run s with
  | ok current t =>
    obtain ⟨-, -, rfl⟩ := loadSession_eq_ok.mp hload
    rw [run_saveRound_ok inMemorySessionStore hload]
    change Kept (after (((fun _ => PUnit.unit) <$> _ : StoreCall ..).run s))
    rw [after_map]
    exact kept_compareAndSwap current.revision (current.saved outcome) h
  | error error t =>
    obtain ⟨rfl, ⟨message, rfl⟩ | ⟨-, rfl, -⟩⟩ := loadSession_eq_error hload
    · have hpresent : ¬ ∃ id, invalidId message = .notFound id := by
        rintro ⟨_, herror⟩
        cases herror
      rw [run_saveRound_error inMemorySessionStore hload hpresent]
      exact h
    · rw [run_saveRound_notFound inMemorySessionStore hload]
      change Kept (after (((fun _ => PUnit.unit) <$> _ : StoreCall ..).run s))
      rw [after_map]
      exact kept_createSession (.fromOutcome sessionId outcome) h

theorem kept_map {α β : Type} {s : InMemorySessionStore Message Details} {m : StoreCall Message Details α}
    (h : Leads KeepsKept m s) (f : α → β) (hkept : Kept s) : Kept (after ((f <$> m).run s)) := by
  rw [after_map]
  exact h hkept

theorem kept_request [DecidableEq Message] [Inhabited Rest] (hkept : Kept s)
    (request : SessionRequest Message (OutcomeDetails Rest)) :
    Kept (after ((inMemorySessionStore.request request).run s)) := by
  cases request with
  | create around session => exact kept_map (kept_createSession session) _ hkept
  | loadSession sessionId => exact kept_map (kept_loadSession sessionId) _ hkept
  | swap around expected replacement => exact kept_map (kept_compareAndSwap expected replacement) _ hkept
  | acquire around base owner => exact kept_map (kept_acquireExecutionLease base owner) _ hkept
  | recover around base owner => exact kept_map (kept_recoverExpiredExecutionLease base owner) _ hkept
  | clear around base => exact kept_map (kept_clearExpiredExecutionLease base) _ hkept
  | commit around lease => exact kept_map (kept_commitExecutionLease lease) _ hkept
  | release lease => exact kept_map (kept_releaseExecutionLease lease) _ hkept
  | load sessionId =>
    rw [request, after_map]
    cases hload : (InMemorySessionStore.loadSession sessionId).run s with
    | ok current t =>
      obtain ⟨-, -, rfl⟩ := loadSession_eq_ok.mp hload
      rw [run_load_ok inMemorySessionStore hload]
      exact hkept
    | error error t =>
      obtain ⟨rfl, ⟨message, rfl⟩ | ⟨-, rfl, -⟩⟩ := loadSession_eq_error hload
      · have hpresent : ¬ ∃ id, invalidId message = .notFound id := by
          rintro ⟨_, herror⟩
          cases herror
        rw [run_load_error inMemorySessionStore hload hpresent]
        exact hkept
      · rw [run_load_notFound inMemorySessionStore hload]
        exact hkept
  | save around rounds sessionId outcome =>
    rw [request, after_map, run_save_of_no_conflict rounds (saveRound_no_conflict hkept)]
    exact kept_saveRound sessionId outcome hkept

/-- The store in a file answers as the one in memory does. -/
theorem json_request [DecidableEq Message] [Inhabited Rest] (hkept : Kept s)
    (request : SessionRequest Message (OutcomeDetails Rest)) :
    Matches IsFile ((reported (inMemorySessionStore.request request)).run s)
      ((reported ((jsonFileSessionStore .working).request request)).run (fileOf s)) := by
  cases request with
  | create around session => exact ((json_createSession session).mapErrors _).mapError_map _
  | loadSession sessionId => exact ((json_loadSession sessionId).mapErrors _).mapError_map _
  | swap around expected replacement => exact ((json_compareAndSwap expected replacement).mapErrors _).mapError_map _
  | acquire around base owner => exact ((json_acquireExecutionLease base owner).mapErrors _).mapError_map _
  | recover around base owner => exact ((json_recoverExpiredExecutionLease base owner).mapErrors _).mapError_map _
  | clear around base => exact ((json_clearExpiredExecutionLease base).mapErrors _).mapError_map _
  | commit around lease => exact ((json_commitExecutionLease lease).mapErrors _).mapError_map _
  | release lease => exact ((json_releaseExecutionLease lease).mapErrors _).mapError_map _
  | load sessionId => exact (matches_load ((json_loadSession sessionId).mapErrors _)).mapError_map _
  | save around rounds sessionId outcome =>
    refine (matches_save hkept (matches_saveRound ((json_loadSession sessionId).mapErrors _) ?_ ?_) rounds).mapError_map _
    · rintro - _ rfl
      exact (json_createSession _).mapErrors _
    · rintro current - _ rfl
      exact (json_compareAndSwap current.revision (current.saved outcome)).mapErrors _

/-- So does SQLite, where the call writes alike. -/
theorem sqlite_request [DecidableEq Message] [Inhabited Rest] (hkept : Kept s) (hfit : CountersFit s)
    {request : SessionRequest Message (OutcomeDetails Rest)} (halike : request.WritesAlike s)
    (hafter : CountersFit (after ((inMemorySessionStore.request request).run s))) :
    Matches IsTables ((reported (inMemorySessionStore.request request)).run s)
      ((reported ((sqliteSessionStore .working).request request)).run (tablesOf s)) := by
  cases request with
  | create around session => exact (sqlite_createSession session halike).mapError_map _
  | loadSession sessionId => exact (sqlite_loadSession sessionId).mapError_map _
  | swap around expected replacement =>
    rw [request, after_map] at hafter
    exact (sqlite_compareAndSwap halike hfit hafter).mapError_map _
  | acquire around base owner =>
    rw [request, after_map] at hafter
    exact (sqlite_acquireExecutionLease hafter).mapError_map _
  | recover around base owner =>
    rw [request, after_map] at hafter
    exact (sqlite_recoverExpiredExecutionLease hkept hafter).mapError_map _
  | clear around base => exact (sqlite_clearExpiredExecutionLease hkept).mapError_map _
  | commit around lease =>
    rw [request, after_map] at hafter
    exact (sqlite_commitExecutionLease hkept halike hfit hafter).mapError_map _
  | release lease => exact (sqlite_releaseExecutionLease hkept).mapError_map _
  | load sessionId => exact (matches_load (sqlite_loadSession sessionId)).mapError_map _
  | save around rounds sessionId outcome =>
    rw [request, after_map, run_save_of_no_conflict rounds (saveRound_no_conflict hkept)] at hafter
    refine (matches_save hkept (matches_saveRound (sqlite_loadSession sessionId) ?_ ?_) rounds).mapError_map _
    · rintro - _ rfl
      refine sqlite_createSession _ fun _ _ => ?_
      rintro _ ⟨⟩
      rfl
    · rintro current hload _ rfl
      obtain ⟨hvalid, hcurrent, -⟩ := loadSession_eq_ok.mp hload
      rw [run_saveRound_ok inMemorySessionStore hload] at hafter
      change CountersFit (after (((fun _ => PUnit.unit) <$> _ : StoreCall ..).run s)) at hafter
      rw [after_map] at hafter
      refine sqlite_compareAndSwap (fun _ other hother _ => ⟨?_, ?_⟩) hfit hafter
      · rintro _ ⟨⟩
        rfl
      · change s.sessions[current.id]? = some other at hother
        rw [hkept.session hcurrent, hcurrent] at hother
        obtain rfl := Option.some.inj hother
        exact halike hvalid current hcurrent

theorem kept_afterCalls [DecidableEq Message] [Inhabited Rest] (hkept : Kept s)
    (requests : List (SessionRequest Message (OutcomeDetails Rest))) :
    Kept (afterCalls (fun request => reported (inMemorySessionStore.request request)) s requests) := by
  induction requests generalizing s with
  | nil => exact hkept
  | cons request requests ih =>
    refine ih (s := after ((reported (inMemorySessionStore.request request)).run s)) ?_
    rw [after_mapError]
    exact kept_request hkept request

/-- What a store of some kind answers to calls, errors without their texts. -/
def SessionStore.answers [DecidableEq Message] [Inhabited Rest] {σ : Type}
    (store : SessionStore σ Message (OutcomeDetails Rest)) (start : σ)
    (requests : List (SessionRequest Message (OutcomeDetails Rest))) :
    List (Except SessionStoreError (SessionReply Message (OutcomeDetails Rest))) :=
  Method.answers (fun request => reported (store.request request)) start requests

/-- The store in memory after calls. -/
def InMemorySessionStore.afterRequests [DecidableEq Message] [Inhabited Rest]
    (requests : List (SessionRequest Message (OutcomeDetails Rest))) :
    InMemorySessionStore Message (OutcomeDetails Rest) :=
  afterCalls (fun request => reported (inMemorySessionStore.request request)) .empty requests

/-- **The three stores agree** on every run whose counters fit SQLite and whose calls write alike. -/
theorem sessionStores_agree [DecidableEq Message] [Inhabited Rest]
    (requests : List (SessionRequest Message (OutcomeDetails Rest)))
    (hfit : ∀ pre post, requests = pre ++ post → CountersFit (InMemorySessionStore.afterRequests pre))
    (halike : ∀ pre request post, requests = pre ++ request :: post →
      request.WritesAlike (InMemorySessionStore.afterRequests pre)) :
    (jsonFileSessionStore .working).answers JsonFileSessionStore.empty requests =
        inMemorySessionStore.answers .empty requests ∧
      (sqliteSessionStore .working).answers SqliteSessionStore.empty requests =
        inMemorySessionStore.answers .empty requests := by
  constructor
  · have hempty : IsFile .empty (JsonFileSessionStore.empty : SessionFile Message (OutcomeDetails Rest)) := rfl
    refine (answers_eq (P := fun _ s => Kept s) ?_ requests hempty ?_).symm
    · rintro s _ request rfl hkept
      exact json_request hkept request
    · intro pre _ _ _
      exact kept_afterCalls kept_empty pre
  · have hempty : IsTables .empty (SqliteSessionStore.empty : SessionTables Message (OutcomeDetails Rest)) :=
      tablesOf_empty.symm
    refine (answers_eq (P := fun request s => Kept s ∧ CountersFit s ∧ request.WritesAlike s ∧
      CountersFit (after ((inMemorySessionStore.request request).run s))) ?_ requests hempty ?_).symm
    · rintro s _ request rfl ⟨hkept, hfit, halike, hafter⟩
      exact sqlite_request hkept hfit halike hafter
    · intro pre request post hsplit
      refine ⟨kept_afterCalls kept_empty pre, hfit pre _ hsplit, halike pre request post hsplit, ?_⟩
      have hnext := hfit (pre ++ [request]) post (by rw [hsplit, List.append_assoc, List.singleton_append])
      unfold InMemorySessionStore.afterRequests afterCalls at hnext
      rw [List.foldl_append, List.foldl_cons, List.foldl_nil, after_mapError] at hnext
      exact hnext

end

end

/-! ### Samples -/

/-- A millisecond. -/
def atTime (now : Nat) : Surroundings := ⟨now, .ok now, .ok fun _ => 0⟩

/-- A new session with an outcome of these messages. -/
def sessionWith (messages : List String) : Session String (OutcomeDetails Unit) :=
  ⟨"s", 0, ["hello"], ∅, 0, 0, some ⟨messages, ⟨none, ()⟩⟩⟩

/-- A store with one session. -/
def holding (session : Session String (OutcomeDetails Unit)) : InMemorySessionStore String (OutcomeDetails Unit) :=
  ⟨(∅ : BTreeMap _).insert "s" session, ∅⟩

theorem holding_insert (session session' : Session String (OutcomeDetails Unit)) :
    { holding session with sessions := (holding session).sessions.insert "s" session' } = holding session' := by
  refine congrArg (InMemorySessionStore.mk · _) (ExtTreeMap.ext_getElem? fun id => ?_)
  rw [BTreeMap.get_insert, BTreeMap.get_insert]
  split
  · rfl
  · next hne => exact BTreeMap.get_insert_of_ne hne

theorem countersFit_empty : CountersFit (.empty : InMemorySessionStore Message Details) where
  revision h := by simp [InMemorySessionStore.empty] at h
  expires h := by simp [InMemorySessionStore.empty] at h

theorem countersFit_holding {session : Session String (OutcomeDetails Unit)} (hfit : session.revision < 2 ^ 63) :
    CountersFit (holding session) where
  revision := by
    intro id other h
    unfold holding at h
    dsimp only at h
    rw [BTreeMap.get_insert] at h
    split at h
    · cases h
      exact hfit
    · simp at h
  expires h := by simp [holding] at h

theorem validateSessionId_s : validateSessionId "s" = .ok () :=
  bind_eq_ok.mpr ⟨(), refuseIf_of_not (by decide), refuseIf_of_not (by decide)⟩

/-- The session once it is created. -/
def created (messages : List String) : Session String (OutcomeDetails Unit) :=
  initializeCreatedSession (atTime 7) (sessionWith messages)

theorem afterRequests_create (messages : List String) :
    InMemorySessionStore.afterRequests [.create (atTime 7) (sessionWith messages)] = holding (created messages) := by
  show after ((reported (SessionReply.session <$>
    InMemorySessionStore.createSession (atTime 7) (sessionWith messages))).run .empty) = _
  have hvalid : validateSessionId (sessionWith messages).id = .ok () := validateSessionId_s
  have hnone : (InMemorySessionStore.empty : InMemorySessionStore String (OutcomeDetails Unit)).sessions[
      (sessionWith messages).id]? = none := by simp [InMemorySessionStore.empty]
  rw [after_mapError, after_map]
  unfold InMemorySessionStore.createSession
  rw [hvalid, run_check_bind_ok, run_read_bind, id_eq, hnone]
  rfl

theorem countersFit_create (messages : List String) {pre post : List (SessionRequest String (OutcomeDetails Unit))}
    (h : [.create (atTime 7) (sessionWith messages)] = pre ++ post) :
    CountersFit (InMemorySessionStore.afterRequests pre) := by
  cases pre with
  | nil => exact countersFit_empty
  | cons request pre =>
    obtain ⟨rfl, hrest⟩ := List.cons.inj h
    obtain ⟨rfl, rfl⟩ := List.nil_eq_append_iff.mp hrest
    rw [afterRequests_create]
    exact countersFit_holding (Nat.one_lt_two_pow (by decide))

/-- What replaces the session. -/
def replacement : Session String (OutcomeDetails Unit) :=
  ⟨"s", 1, ["hello", "again"], ∅, 7, 7, some ⟨["hello", "again"], ⟨none, ()⟩⟩⟩

/-- The session is created, replaced, and replaced once more from the revision that it had. The last call is
refused. -/
def threeCalls : List (SessionRequest String (OutcomeDetails Unit)) :=
  [.create (atTime 7) (sessionWith ["hello"]), .swap (atTime 8) 1 replacement,
    .swap (atTime 9) 1 (sessionWith ["stale"])]

/-- The session once it is replaced. -/
def replaced : Session String (OutcomeDetails Unit) := { replacement with revision := 2, updatedAtUnixMs := 8 }

theorem afterRequests_replaced :
    InMemorySessionStore.afterRequests (threeCalls.take 2) = holding replaced := by
  show after ((reported (SessionReply.session <$> InMemorySessionStore.compareAndSwap (atTime 8) 1 replacement)).run
    (InMemorySessionStore.afterRequests [.create (atTime 7) (sessionWith ["hello"])])) = _
  have hvalid : validateSessionId replacement.id = .ok () := validateSessionId_s
  have hsome : (holding (created ["hello"])).sessions[replacement.id]? = some (created ["hello"]) :=
    BTreeMap.get_insert_self
  rw [after_mapError, after_map, afterRequests_create]
  unfold InMemorySessionStore.compareAndSwap
  rw [hvalid, run_check_bind_ok, run_read_bind, id_eq, hsome]
  exact holding_insert _ _

theorem afterRequests_threeCalls : InMemorySessionStore.afterRequests threeCalls = holding replaced := by
  show after ((reported (SessionReply.session <$>
    InMemorySessionStore.compareAndSwap (atTime 9) 1 (sessionWith ["stale"]))).run
      (InMemorySessionStore.afterRequests (threeCalls.take 2))) = _
  have hvalid : validateSessionId (sessionWith ["stale"]).id = .ok () := validateSessionId_s
  have hsome : (holding replaced).sessions[(sessionWith ["stale"]).id]? = some replaced := BTreeMap.get_insert_self
  rw [after_mapError, after_map, afterRequests_replaced]
  unfold InMemorySessionStore.compareAndSwap
  rw [hvalid, run_check_bind_ok, run_read_bind, id_eq, hsome]
  rfl

/-- The store before each of the calls, and after the last. -/
theorem afterRequests_take (pre post : List (SessionRequest String (OutcomeDetails Unit)))
    (h : threeCalls = pre ++ post) :
    (pre = [] ∧ post = threeCalls) ∨
      (InMemorySessionStore.afterRequests pre = holding (created ["hello"]) ∧ post = threeCalls.drop 1) ∨
      (InMemorySessionStore.afterRequests pre = holding replaced ∧
        (post = threeCalls.drop 2 ∨ post = [])) := by
  have hpre : pre = threeCalls.take pre.length := by rw [h, List.take_left]
  have hpost : post = threeCalls.drop pre.length := by rw [h, List.drop_left]
  have hlength : pre.length ≤ 3 := by
    have htotal : 3 = (pre ++ post).length := congrArg List.length h
    rw [List.length_append] at htotal
    omega
  generalize pre.length = n at hpre hpost hlength
  subst hpre hpost
  rcases n with _ | _ | _ | _ | n
  · exact .inl ⟨rfl, rfl⟩
  · exact .inr (.inl ⟨afterRequests_create ["hello"], rfl⟩)
  · exact .inr (.inr ⟨afterRequests_replaced, .inl rfl⟩)
  · exact .inr (.inr ⟨afterRequests_threeCalls, .inr rfl⟩)
  · omega

/-- The three stores agree on these calls. -/
theorem sessionStores_agree_replaced :
    (jsonFileSessionStore .working).answers JsonFileSessionStore.empty threeCalls =
        inMemorySessionStore.answers .empty threeCalls ∧
      (sqliteSessionStore .working).answers SqliteSessionStore.empty threeCalls =
        inMemorySessionStore.answers .empty threeCalls := by
  refine sessionStores_agree _ (fun pre post h => ?_) fun pre request post h => ?_
  · rcases afterRequests_take pre post h with ⟨rfl, -⟩ | ⟨hafter, -⟩ | ⟨hafter, -⟩
    · exact countersFit_empty
    · rw [hafter]
      exact countersFit_holding (Nat.one_lt_two_pow (by decide))
    · rw [hafter]
      exact countersFit_holding (by decide)
  · rcases afterRequests_take pre _ h with ⟨-, hpost⟩ | ⟨hafter, hpost⟩ | ⟨hafter, hpost | hpost⟩
    · cases hpost
      rintro - - outcome ⟨⟩
      rfl
    · cases hpost
      rw [hafter]
      intro _ current hcurrent _
      cases (BTreeMap.get_insert_self (k := "s")).symm.trans hcurrent
      exact ⟨by rintro outcome ⟨⟩; rfl, by decide⟩
    · cases hpost
      rw [hafter]
      intro _ current hcurrent hrevision
      cases (BTreeMap.get_insert_self (k := "s")).symm.trans hcurrent
      exact absurd hrevision (by decide)
    · cases hpost

/-- The messages of the outcome in the first answer. -/
def firstMessages (answers : List (Except SessionStoreError (SessionReply String (OutcomeDetails Unit)))) :
    Option (List String) :=
  match answers with
  | .ok (.session session) :: _ => session.outcome.map RunOutcome.messages
  | _ => none

/-- SQLite leaves an outcome the messages that it came with. -/
theorem sessionStores_differ :
    (∀ pre post, [SessionRequest.create (atTime 7) (sessionWith ["stale"])] = pre ++ post →
        CountersFit (InMemorySessionStore.afterRequests pre)) ∧
      ¬ (sqliteSessionStore .working).answers SqliteSessionStore.empty [.create (atTime 7) (sessionWith ["stale"])] =
        inMemorySessionStore.answers .empty [.create (atTime 7) (sessionWith ["stale"])] := by
  refine ⟨fun pre post h => countersFit_create ["stale"] h, fun hanswers => ?_⟩
  exact absurd (congrArg firstMessages hanswers) (by decide +kernel)

end AikitRuntime.Sessions
