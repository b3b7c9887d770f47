import AikitRuntime.Sessions.StoreRuns

/-!
# The boundary of an invocation in a session

An outcome says where its invocation starts in the transcript. `load` reports that index only when the outcome has the
messages of its session. The stores in memory and in a file give an outcome those messages before they store it, so
what is compared is always equal; SQLite stores what it was given.
-/

namespace AikitRuntime.Sessions

open Library Durability Method SessionStore

section
variable {Message Rest Details σ : Type}

/-! ### What a call writes -/

/-- The session that a call is given to write. -/
def SessionRequest.given : SessionRequest Message Details → Option (Session Message Details)
  | .create _ session => some session
  | .swap _ _ replacement => some replacement
  | .commit _ lease => some lease.session
  | .save _ _ sessionId outcome => some (.fromOutcome sessionId outcome)
  | _ => none

/-- The sessions of a store, by their ids. -/
abbrev SessionsById (Message Details : Type) : Type := String → Option (Session Message Details)

/-- Each session is at its id, which is a good one. -/
def Sound (sessions : SessionsById Message Details) : Prop :=
  ∀ id session, sessions id = some session → session.id = id ∧ validateSessionId id = .ok ()

/-- Nothing is written, or a newer session with what was given: its messages, and its outcome as the store keeps it. -/
def Writes (kept : List Message → RunOutcome Message Details → RunOutcome Message Details) (given : Option (Session Message Details))
    (before next : SessionsById Message Details) : Prop :=
  next = before ∨ ∃ session written, given = some session ∧ next = Function.update before session.id (some written) ∧
    written.id = session.id ∧ validateSessionId session.id = .ok () ∧ written.messages = session.messages ∧
    written.outcome = session.outcome.map (kept session.messages) ∧
    ∀ current, before session.id = some current → current.revision < written.revision

variable {kept : List Message → RunOutcome Message Details → RunOutcome Message Details}
  {given : Option (Session Message Details)}
  {a b c : SessionsById Message Details}

theorem Writes.sound (h : Writes kept given a b) (ha : Sound a) : Sound b := by
  rcases h with rfl | ⟨session, written, -, rfl, hid, hvalid, -⟩
  · exact ha
  · intro id other hother
    by_cases heq : id = session.id
    · subst heq
      rw [Function.update_self] at hother
      obtain rfl := Option.some.inj hother
      exact ⟨hid, hvalid⟩
    · rw [Function.update_of_ne heq] at hother
      exact ha id other hother

theorem Writes.trans (hab : Writes kept given a b) (hbc : Writes kept given b c) : Writes kept given a c := by
  rcases hbc with rfl | ⟨session, again, rfl, rfl, hid, hvalid, hmessages, houtcome, hagain⟩
  · exact hab
  · rcases hab with rfl | ⟨_, written, hgiven, rfl, -, -, -, -, hnewer⟩
    · exact .inr ⟨session, again, rfl, rfl, hid, hvalid, hmessages, houtcome, hagain⟩
    · obtain rfl := Option.some.inj hgiven
      rw [Function.update_self] at hagain
      refine .inr ⟨_, again, rfl, Function.update_idem .., hid, hvalid, hmessages, houtcome, fun current hcurrent => ?_⟩
      exact Nat.lt_trans (hnewer current hcurrent) (hagain written rfl)

/-- What else a call is given does not matter. -/
theorem Writes.of_given {session other : Session Message Details} (h : Writes kept (some session) a b)
    (hid : session.id = other.id) (hmessages : session.messages = other.messages)
    (houtcome : session.outcome = other.outcome) : Writes kept (some other) a b := by
  rcases h with h | ⟨_, written, hgiven, h⟩
  · exact .inl h
  · obtain rfl := Option.some.inj hgiven
    rw [hid, hmessages, houtcome] at h
    exact .inr ⟨other, written, rfl, h⟩

/-- What becomes of a file or database that is written, or is not. -/
theorem Leads.write {R : σ → σ → Prop} {s next : σ} {α : Type} (access : Access) (a : α) (hsame : R s s)
    (hnext : R s next) : Leads R (access.write next >>= fun _ => pure a) s := by
  obtain ⟨opened, fate⟩ := access
  cases fate with
  | made => exact hnext
  | refused error => exact hsame
  | madeLate error => exact hnext

/-! ### The store in a file -/

/-- The sessions in a file. -/
def SessionFile.byId (file : SessionFile Message Details) : SessionsById Message Details := fun id => file.sessions[id]?

/-- What a call may write in a file. -/
abbrev WritesFile (given : Option (Session Message Details)) (s t : SessionFile Message Details) : Prop :=
  Writes (fun messages outcome => { outcome with messages }) given s.byId t.byId

instance : Std.Refl (WritesFile given) := ⟨fun _ => .inl rfl⟩

theorem byId_insert (file : SessionFile Message Details) (session : Session Message Details)
    (executionLeases : BTreeMap SessionExecutionLeaseRecord) :
    SessionFile.byId ⟨file.sessions.insert session.id session, executionLeases⟩ =
      Function.update file.byId session.id (some session) := by
  funext id
  unfold SessionFile.byId
  rw [BTreeMap.get_insert]
  by_cases heq : session.id = id
  · rw [if_pos heq, ← heq, Function.update_self]
  · rw [if_neg heq, Function.update_of_ne (Ne.symm heq)]

theorem prepareReplacement_spec {around : Surroundings} {current replacement written : Session Message Details}
    (h : prepareReplacement around current replacement = .ok written) :
    written.id = replacement.id ∧ written.messages = replacement.messages ∧
      written.outcome = (synchronizeOutcomeMessages replacement).outcome ∧ current.revision < written.revision := by
  obtain ⟨revision, hrevision, h⟩ := bind_eq_ok.mp h
  obtain ⟨heq, -⟩ := checkedAdd_eq_some.mp (okOr_eq_ok.mp hrevision)
  cases h
  exact ⟨rfl, rfl, rfl, Nat.lt_of_lt_of_eq (Nat.lt_succ_self _) heq⟩

namespace JsonFileSessionStore

variable {access : Access} {around : Surroundings} {s : SessionFile Message Details}

theorem leads_readDatabase {α : Type} {R : SessionFile Message Details → SessionFile Message Details → Prop} [Std.Refl R]
    {f : SessionFile Message Details → FileCall Message Details α} (hf : Leads R (f s) s) :
    Leads R (readDatabase access >>= f) s := by
  unfold readDatabase
  rw [bind_assoc]
  exact .check_bind fun _ _ => hf

theorem leads_createSession (session : Session Message Details) :
    Leads (WritesFile (some session)) (createSession access around session) s := by
  refine .check_bind fun _ hvalid => leads_readDatabase ?_
  cases hcurrent : s.sessions[session.id]? with
  | some current => exact .throw _
  | none =>
    refine Leads.write access _ (.inl rfl) (.inr ⟨session, initializeCreatedSession around session, rfl,
      byId_insert s (initializeCreatedSession around session) _, rfl, hvalid, rfl, rfl, fun current h => ?_⟩)
    rw [SessionFile.byId, hcurrent] at h
    cases h

theorem after_loadSession (sessionId : String) : after ((loadSession access sessionId).run s) = s :=
  Eq.symm <| show Leads Eq (loadSession access sessionId) s from
  .check_bind fun _ _ => leads_readDatabase (.check _)

theorem leads_compareAndSwap (expectedRevision : Nat) (replacement : Session Message Details) :
    Leads (WritesFile (some replacement)) (compareAndSwap access around expectedRevision replacement) s := by
  refine .check_bind fun _ hvalid => leads_readDatabase (.check_bind fun current hcurrent => .check_bind fun _ _ =>
    .check_bind fun written hwritten => Leads.write access _ (.inl rfl) ?_)
  obtain ⟨hid, hmessages, houtcome, hnewer⟩ := prepareReplacement_spec hwritten
  rw [okOr_eq_ok] at hcurrent
  refine .inr ⟨replacement, written, rfl, ?_, hid, hvalid, hmessages, houtcome, fun other h => ?_⟩
  · rw [byId_insert, hid]
  · rw [SessionFile.byId, hcurrent] at h
    obtain rfl := Option.some.inj h
    exact hnewer

theorem leads_acquireExecutionLease (base : Session Message Details) (owner : String) :
    Leads (WritesFile given) (acquireExecutionLease access around base owner) s :=
  .check_bind fun _ _ => .check_bind fun _ _ => leads_readDatabase (.check_bind fun _ _ => .check_bind fun _ _ =>
    .check_bind fun _ _ => Leads.write access _ (.inl rfl) (.inl rfl))

theorem leads_recoverExpiredExecutionLease (base : Session Message Details) (owner : String) :
    Leads (WritesFile given) (recoverExpiredExecutionLease access around base owner) s :=
  .check_bind fun _ _ => .check_bind fun _ _ => leads_readDatabase (.check_bind fun _ _ => .check_bind fun _ _ =>
    Leads.write access _ (.inl rfl) (.inl rfl))

theorem leads_clearExpiredExecutionLease (base : Session Message Details) :
    Leads (WritesFile given) (clearExpiredExecutionLease access around base) s :=
  .check_bind fun _ _ => leads_readDatabase (.check_bind fun _ _ => Leads.write access _ (.inl rfl) (.inl rfl))

theorem leads_releaseExecutionLease (lease : SessionExecutionLease Message Details) :
    Leads (WritesFile given) (releaseExecutionLease access lease) s :=
  .check_bind fun _ _ => leads_readDatabase (.check_bind fun _ _ => Leads.write access _ (.inl rfl) (.inl rfl))

theorem committed_spec {session written : Session Message Details}
    (h : committed around session (s.byId session.id) = .ok written) :
    written.id = session.id ∧ written.messages = session.messages ∧
      written.outcome = (synchronizeOutcomeMessages session).outcome ∧
      ∀ current, s.byId session.id = some current → current.revision < written.revision := by
  unfold committed at h
  split at h
  · cases hcurrent : s.byId session.id with
    | some current =>
      rw [hcurrent] at h
      cases h
    | none =>
      rw [hcurrent] at h
      cases h
      exact ⟨rfl, rfl, rfl, nofun⟩
  · obtain ⟨current, hcurrent, h⟩ := bind_eq_ok.mp h
    obtain ⟨_, -, h⟩ := bind_eq_ok.mp h
    obtain ⟨hid, hmessages, houtcome, hnewer⟩ := prepareReplacement_spec h
    refine ⟨hid, hmessages, houtcome, fun other hother => ?_⟩
    rw [okOr_eq_ok, hother] at hcurrent
    obtain rfl := Option.some.inj hcurrent
    exact hnewer

theorem leads_commitExecutionLease (lease : SessionExecutionLease Message Details) :
    Leads (WritesFile (some lease.session)) (commitExecutionLease access around lease) s := by
  refine .check_bind fun _ hvalid => leads_readDatabase (.check_bind fun _ _ => ?_)
  cases hcommitted : committed around lease.session s.sessions[lease.session.id]? with
  | ok written =>
    obtain ⟨hid, hmessages, houtcome, hnewer⟩ := committed_spec (s := s) hcommitted
    refine Leads.write access _ (.inl rfl) (.inr ⟨lease.session, written, rfl, ?_, hid, hvalid, hmessages, houtcome,
      hnewer⟩)
    rw [byId_insert, hid]
  | error error =>
    dsimp only
    cases InMemorySessionStore.givesUp error with
    | true =>
      obtain ⟨opened, fate⟩ := access
      cases fate with
      | _ => exact .inl rfl
    | false => exact .throw _

end JsonFileSessionStore

/-! ### The store in SQLite -/

/-- The sessions in the tables. -/
def SessionTables.byId (tables : SessionTables Message Details) : SessionsById Message Details :=
  fun id => tables.sessions[id]?.map SessionRow.sessionJson

/-- What a call may write in the tables. -/
abbrev WritesTables (given : Option (Session Message Details)) (s t : SessionTables Message Details) : Prop :=
  Writes (fun _ outcome => outcome) given s.byId t.byId

instance : Std.Refl (WritesTables given) := ⟨fun _ => .inl rfl⟩

theorem tables_byId_insert (tables : SessionTables Message Details) (session : Session Message Details) (revision : Int)
    (executionLeases : BTreeMap LeaseRow) :
    SessionTables.byId ⟨tables.sessions.insert session.id ⟨revision, session⟩, executionLeases⟩ =
      Function.update tables.byId session.id (some session) := by
  funext id
  unfold SessionTables.byId
  rw [BTreeMap.get_insert]
  by_cases heq : session.id = id
  · rw [if_pos heq, ← heq, Function.update_self]
    rfl
  · rw [if_neg heq, Function.update_of_ne (Ne.symm heq)]

/-- An id that SQLite takes is one that the other stores take. -/
theorem validateSessionId_of_validateId {sessionId : String} (h : SqliteSessionStore.validateId sessionId = .ok ()) :
    validateSessionId sessionId = .ok () := by
  have halike := validateId_alike sessionId
  rw [h] at halike
  exact mapError_eq_ok.mp halike

namespace SqliteSessionStore

variable {access : Access} {around : Surroundings} {s : SessionTables Message Details}

theorem leads_beginTransaction {α : Type} {R : SessionTables Message Details → SessionTables Message Details → Prop} [Std.Refl R]
    {f : SessionTables Message Details → TableCall Message Details α} (hf : Leads R (f s) s) :
    Leads R (beginTransaction access >>= f) s := by
  unfold beginTransaction
  rw [bind_assoc]
  exact .check_bind fun _ _ => hf

theorem leads_createSession (session : Session Message Details) :
    Leads (WritesTables (some session)) (createSession access around session) s := by
  refine .check_bind fun _ hvalid => .check_bind fun revision _ => leads_beginTransaction ?_
  cases hcurrent : s.sessions[session.id]? with
  | some current => exact .check_bind fun _ _ => .throw _
  | none =>
    refine Leads.write access _ (.inl rfl) (.inr ⟨session, { session with
      revision := 1, createdAtUnixMs := around.now, updatedAtUnixMs := around.now }, rfl,
      tables_byId_insert s { session with
        revision := 1, createdAtUnixMs := around.now, updatedAtUnixMs := around.now } revision _,
      rfl, validateSessionId_of_validateId hvalid, rfl, Option.map_id'.symm, fun current h => ?_⟩)
    rw [SessionTables.byId, hcurrent] at h
    cases h

theorem after_loadSession (sessionId : String) : after ((loadSession access sessionId).run s) = s :=
  Eq.symm <| show Leads Eq (loadSession access sessionId) s from
  .check_bind fun _ _ => leads_beginTransaction (.check _)

variable {session written : Session Message Details} {sessions : BTreeMap (SessionRow Message Details)}

theorem replaceRow_spec {expectedRevision : Nat}
    (h : replaceRow around session expectedRevision s = .ok (sessions, written)) :
    written.id = session.id ∧ written.messages = session.messages ∧ written.outcome = session.outcome.map (fun outcome => outcome) ∧
      (∀ executionLeases, SessionTables.byId ⟨sessions, executionLeases⟩ =
        Function.update s.byId session.id (some written)) ∧
      ∀ current, s.byId session.id = some current → current.revision < written.revision := by
  obtain ⟨current, hcurrent, h⟩ := bind_eq_ok.mp h
  obtain ⟨_, -, h⟩ := bind_eq_ok.mp h
  obtain ⟨replacement, hreplaced, h⟩ := bind_eq_ok.mp h
  obtain ⟨revision, hrevision, hreplaced⟩ := bind_eq_ok.mp hreplaced
  obtain ⟨heq, -⟩ := checkedAdd_eq_some.mp (okOr_eq_ok.mp hrevision)
  obtain ⟨update, hupdate, h⟩ := bind_eq_ok.mp h
  cases update with
  | none =>
    obtain ⟨_, -, h⟩ := bind_eq_ok.mp h
    cases h
  | some rows =>
    cases h
    cases hreplaced
    obtain ⟨revisionSql, -, hupdate⟩ := bind_eq_ok.mp hupdate
    obtain ⟨expectedSql, -, hupdate⟩ := bind_eq_ok.mp hupdate
    split at hupdate
    · cases hupdate
      refine ⟨rfl, rfl, Option.map_id'.symm, fun executionLeases => tables_byId_insert s _ revisionSql executionLeases, ?_⟩
      intro other hother
      rw [okOr_eq_ok] at hcurrent
      obtain rfl := Option.some.inj (hcurrent.symm.trans hother)
      exact Nat.lt_of_lt_of_eq (Nat.lt_succ_self _) heq
    · cases hupdate

theorem leads_compareAndSwap (expectedRevision : Nat) (replacement : Session Message Details) :
    Leads (WritesTables (some replacement)) (compareAndSwap access around expectedRevision replacement) s := by
  refine .check_bind fun _ hvalid => leads_beginTransaction (.check_bind fun ⟨sessions, written⟩ hwritten =>
    Leads.write access _ (.inl rfl) ?_)
  obtain ⟨hid, hmessages, houtcome, hupdate, hnewer⟩ := replaceRow_spec hwritten
  exact .inr ⟨replacement, written, rfl, hupdate _, hid, validateSessionId_of_validateId hvalid, hmessages, houtcome,
    hnewer⟩

theorem leads_acquireExecutionLease (base : Session Message Details) (owner : String) :
    Leads (WritesTables given) (acquireExecutionLease access around base owner) s :=
  .check_bind fun _ _ => .check_bind fun _ _ => leads_beginTransaction (.check_bind fun _ _ => .check_bind fun _ _ =>
    .check_bind fun _ _ => .check_bind fun _ _ => Leads.write access _ (.inl rfl) (.inl rfl))

theorem leads_recoverExpiredExecutionLease (base : Session Message Details) (owner : String) :
    Leads (WritesTables given) (recoverExpiredExecutionLease access around base owner) s :=
  .check_bind fun _ _ => .check_bind fun _ _ => leads_beginTransaction (.check_bind fun _ _ => .check_bind fun _ _ =>
    .check_bind fun _ _ => Leads.write access _ (.inl rfl) (.inl rfl))

theorem leads_clearExpiredExecutionLease (base : Session Message Details) :
    Leads (WritesTables given) (clearExpiredExecutionLease access around base) s :=
  .check_bind fun _ _ => leads_beginTransaction (.check_bind fun _ _ => .check_bind fun _ _ =>
    Leads.write access _ (.inl rfl) (.inl rfl))

theorem leads_releaseExecutionLease (lease : SessionExecutionLease Message Details) :
    Leads (WritesTables given) (releaseExecutionLease access lease) s :=
  .check_bind fun _ _ => leads_beginTransaction (.check_bind fun _ _ => .check_bind fun _ _ => .check_bind fun _ _ =>
    Leads.write access _ (.inl rfl) (.inl rfl))

theorem committed_spec
    (h : committed around session s = .ok (sessions, written)) :
    written.id = session.id ∧ written.messages = session.messages ∧ written.outcome = session.outcome.map (fun outcome => outcome) ∧
      (∀ executionLeases, SessionTables.byId ⟨sessions, executionLeases⟩ =
        Function.update s.byId session.id (some written)) ∧
      ∀ current, s.byId session.id = some current → current.revision < written.revision := by
  unfold committed at h
  split at h
  · obtain ⟨actual, hactual, h⟩ := bind_eq_ok.mp h
    cases actual with
    | some actual => cases h
    | none =>
      cases h
      refine ⟨rfl, rfl, Option.map_id'.symm, fun executionLeases => tables_byId_insert s _ 1 executionLeases, fun current h => ?_⟩
      unfold currentRevision at hactual
      unfold SessionTables.byId at h
      cases hrow : s.sessions[session.id]? with
      | none =>
        rw [hrow] at h
        cases h
      | some row =>
        rw [hrow] at hactual
        obtain ⟨_, -, hactual⟩ := bind_eq_ok.mp hactual
        cases hactual
  · exact replaceRow_spec h

theorem leads_commitExecutionLease (lease : SessionExecutionLease Message Details) :
    Leads (WritesTables (some lease.session)) (commitExecutionLease access around lease) s := by
  refine .check_bind fun _ hvalid => leads_beginTransaction (.check_bind fun _ _ => .check_bind fun _ _ => ?_)
  cases hcommitted : committed around lease.session s with
  | ok result =>
    obtain ⟨sessions, written⟩ := result
    obtain ⟨hid, hmessages, houtcome, hupdate, hnewer⟩ := committed_spec hcommitted
    exact Leads.write access _ (.inl rfl) (.inr ⟨lease.session, written, rfl, hupdate _, hid,
      validateSessionId_of_validateId hvalid, hmessages, houtcome, hnewer⟩)
  | error error =>
    dsimp only
    cases InMemorySessionStore.givesUp error with
    | true =>
      obtain ⟨opened, fate⟩ := access
      cases fate with
      | _ => exact .inl rfl
    | false => exact .throw _

end SqliteSessionStore

end

/-! ### Calls -/

section
variable {Message Rest σ : Type}

/-- The methods of a store write no more than they are given, and what is loaded is there. -/
structure WritesGiven (kept : List Message → RunOutcome Message (OutcomeDetails Rest) → RunOutcome Message (OutcomeDetails Rest))
    (byId : σ → SessionsById Message (OutcomeDetails Rest)) (store : SessionStore σ Message (OutcomeDetails Rest)) :
    Prop where
  create : ∀ around session s,
    Writes kept (some session) (byId s) (byId (after ((store.createSession around session).run s)))
  load : ∀ sessionId s, after ((store.loadSession sessionId).run s) = s
  swap : ∀ around expectedRevision replacement s, Writes kept (some replacement) (byId s)
    (byId (after ((store.compareAndSwap around expectedRevision replacement).run s)))
  acquire : ∀ around base owner s, Writes kept none (byId s)
    (byId (after ((store.acquireExecutionLease around base owner).run s)))
  recover : ∀ around base owner s, Writes kept none (byId s)
    (byId (after ((store.recoverExpiredExecutionLease around base owner).run s)))
  clear : ∀ around base s, Writes kept none (byId s)
    (byId (after ((store.clearExpiredExecutionLease around base).run s)))
  commit : ∀ around lease s,
    Writes kept (some lease.session) (byId s) (byId (after ((store.commitExecutionLease around lease).run s)))
  release : ∀ lease s, Writes kept none (byId s) (byId (after ((store.releaseExecutionLease lease).run s)))
  loaded : ∀ {sessionId s session t}, (store.loadSession sessionId).run s = .ok session t → byId s sessionId = some session

variable {kept : List Message → RunOutcome Message (OutcomeDetails Rest) → RunOutcome Message (OutcomeDetails Rest)}
  {byId : σ → SessionsById Message (OutcomeDetails Rest)} {store : SessionStore σ Message (OutcomeDetails Rest)} {s : σ}

theorem writes_saveRound (h : WritesGiven kept byId store) (hsound : Sound (byId s)) (around : Surroundings)
    (sessionId : String) (outcome : RunOutcome Message (OutcomeDetails Rest)) :
    Writes kept (some (.fromOutcome sessionId outcome)) (byId s)
      (byId (after ((store.saveRound around sessionId outcome).run s))) := by
  have hsame := h.load sessionId s
  cases hload : (store.loadSession sessionId).run s with
  | ok current t =>
    rw [hload] at hsame
    obtain rfl : t = s := hsame
    have hid : current.id = sessionId := (hsound sessionId current (h.loaded hload)).1
    rw [run_saveRound_ok store hload]
    change Writes _ _ _ (byId (after (((fun _ => PUnit.unit) <$> _ : Method ..).run _)))
    rw [after_map]
    exact (h.swap around current.revision (current.saved outcome) t).of_given hid rfl rfl
  | error error t =>
    rw [hload] at hsame
    obtain rfl : t = s := hsame
    by_cases hmissing : ∃ id, error = .notFound id
    · obtain ⟨id, rfl⟩ := hmissing
      rw [run_saveRound_notFound store hload]
      change Writes _ _ _ (byId (after (((fun _ => PUnit.unit) <$> _ : Method ..).run _)))
      rw [after_map]
      exact h.create around (.fromOutcome sessionId outcome) t
    · rw [run_saveRound_error store hload hmissing]
      exact .inl rfl

theorem writes_save (h : WritesGiven kept byId store) (hsound : Sound (byId s)) (around : Surroundings) (rounds : Nat)
    (sessionId : String) (outcome : RunOutcome Message (OutcomeDetails Rest)) :
    Writes kept (some (.fromOutcome sessionId outcome)) (byId s)
      (byId (after ((store.save around rounds sessionId outcome).run s))) := by
  induction rounds generalizing s with
  | zero => exact writes_saveRound h hsound around sessionId outcome
  | succ rounds ih =>
    have hround := writes_saveRound h hsound around sessionId outcome
    cases hrun : (store.saveRound around sessionId outcome).run s with
    | ok a t =>
      have hsave : (store.save around (rounds + 1) sessionId outcome).run s = .ok a t := by
        rw [run_save_succ, hrun]
      rw [hsave]
      rw [hrun] at hround
      exact hround
    | error error t =>
      rw [hrun] at hround
      by_cases hconflict : ∃ id expected actual, error = .conflict id expected actual
      · obtain ⟨id, expected, actual, rfl⟩ := hconflict
        have hsave : (store.save around (rounds + 1) sessionId outcome).run s =
            (store.save around rounds sessionId outcome).run t := by
          rw [run_save_succ, hrun]
        rw [hsave]
        exact hround.trans (ih (hround.sound hsound))
      · have hsave : (store.save around (rounds + 1) sessionId outcome).run s = .error error t := by
          rw [run_save_succ, hrun]
          cases error with
          | conflict id expected actual => exact absurd ⟨id, expected, actual, rfl⟩ hconflict
          | _ => rfl
        rw [hsave]
        exact hround

/-- A call leaves each session as it was, or writes what it was given there. -/
theorem writes_request [DecidableEq Message] [Inhabited Rest] (h : WritesGiven kept byId store) (hsound : Sound (byId s))
    (request : SessionRequest Message (OutcomeDetails Rest)) :
    Writes kept request.given (byId s) (byId (after ((store.request request).run s))) := by
  cases request with
  | create around session =>
    rw [request, after_map]
    exact h.create around session s
  | loadSession sessionId =>
    rw [request, after_map, h.load]
    exact .inl rfl
  | swap around expectedRevision replacement =>
    rw [request, after_map]
    exact h.swap around expectedRevision replacement s
  | acquire around base owner =>
    rw [request, after_map]
    exact h.acquire around base owner s
  | recover around base owner =>
    rw [request, after_map]
    exact h.recover around base owner s
  | clear around base =>
    rw [request, after_map]
    exact h.clear around base s
  | commit around lease =>
    rw [request, after_map]
    exact h.commit around lease s
  | release lease =>
    rw [request, after_map]
    exact h.release lease s
  | load sessionId =>
    rw [request, after_map]
    have hsame := h.load sessionId s
    refine .inl (congrArg byId ?_)
    cases hload : (store.loadSession sessionId).run s with
    | ok current t =>
      rw [run_load_ok store hload]
      rw [hload] at hsame
      exact hsame
    | error error t =>
      rw [hload] at hsame
      by_cases hmissing : ∃ id, error = .notFound id
      · obtain ⟨id, rfl⟩ := hmissing
        rw [run_load_notFound store hload]
        exact hsame
      · rw [run_load_error store hload hmissing]
        exact hsame
  | save around rounds sessionId outcome =>
    rw [request, after_map]
    exact writes_save h hsound around rounds sessionId outcome

/-! ### Runs -/

/-- The session that the last call to write there was given. -/
def lastGiven [DecidableEq Message] [Inhabited Rest] (byId : σ → SessionsById Message (OutcomeDetails Rest))
    (store : Access → SessionStore σ Message (OutcomeDetails Rest)) (id : String) :
    σ → List (Access × SessionRequest Message (OutcomeDetails Rest)) → Option (Session Message (OutcomeDetails Rest)) →
      Option (Session Message (OutcomeDetails Rest))
  | _, [], last => last
  | s, (access, request) :: requests, last =>
    let t := after (((store access).request request).run s)
    lastGiven byId store id t requests
      (if (byId t id).map Session.revision = (byId s id).map Session.revision then last else request.given)

/-- What is stored is what the last call was given. -/
def Remembers (kept : List Message → RunOutcome Message (OutcomeDetails Rest) → RunOutcome Message (OutcomeDetails Rest))
    (stored last : Option (Session Message (OutcomeDetails Rest))) : Prop :=
  Option.Rel (fun stored given => stored.messages = given.messages ∧
    stored.outcome = given.outcome.map (kept given.messages)) stored last

variable {id : String} {last : Option (Session Message (OutcomeDetails Rest))}

variable {given : Option (Session Message (OutcomeDetails Rest))}

theorem Remembers.step
    {a b : SessionsById Message (OutcomeDetails Rest)} (h : Remembers kept (a id) last)
    (hwrites : Writes kept given a b) :
    Remembers kept (b id) (if (b id).map Session.revision = (a id).map Session.revision then last else given) := by
  rcases hwrites with rfl | ⟨session, written, rfl, rfl, -, -, hmessages, houtcome, hnewer⟩
  · rw [if_pos rfl]
    exact h
  · by_cases heq : id = session.id
    · subst heq
      rw [Function.update_self, if_neg]
      · exact .some ⟨hmessages, houtcome⟩
      · intro hsame
        obtain ⟨current, hcurrent, hrevision⟩ := Option.map_eq_some_iff.mp hsame.symm
        exact absurd hrevision (Nat.ne_of_lt (hnewer current hcurrent))
    · rw [Function.update_of_ne heq, if_pos rfl]
      exact h

/-- A store after calls, each of which meets something at the file or the database. -/
abbrev afterRequests [DecidableEq Message] [Inhabited Rest] (store : Access → SessionStore σ Message (OutcomeDetails Rest))
    (s : σ) (requests : List (Access × SessionRequest Message (OutcomeDetails Rest))) : σ :=
  afterCalls (fun call => (store call.1).request call.2) s requests

theorem remembers_run [DecidableEq Message] [Inhabited Rest]
    {store : Access → SessionStore σ Message (OutcomeDetails Rest)} (h : ∀ access, WritesGiven kept byId (store access))
    (id : String) (requests : List (Access × SessionRequest Message (OutcomeDetails Rest))) (hsound : Sound (byId s))
    (hlast : Remembers kept (byId s id) last) :
    Sound (byId (afterRequests store s requests)) ∧
      Remembers kept (byId (afterRequests store s requests) id) (lastGiven byId store id s requests last) := by
  induction requests generalizing s last with
  | nil => exact ⟨hsound, hlast⟩
  | cons call requests ih =>
    obtain ⟨access, request⟩ := call
    have hwrites := writes_request (h access) hsound request
    exact ih (hwrites.sound hsound) (hlast.step hwrites)

/-! ### Boundaries -/

/-- What is loaded with a boundary is what the last call was given: the messages of the outcome were the session's. -/
def ReportsLast [DecidableEq Message] [Inhabited Rest] (store : Access → SessionStore σ Message (OutcomeDetails Rest))
    (s : σ) (id : String) (last : Option (Session Message (OutcomeDetails Rest))) : Prop :=
  ∀ access outcome t index, ((store access).load id).run s = .ok (some outcome) t →
    outcome.details.invocationStartMessageIndex = some index →
    ∃ given own, last = some given ∧ given.outcome = some own ∧ own.messages = given.messages ∧
      own.details.invocationStartMessageIndex = some index

/-- The session was given with a boundary in another transcript. -/
def GivenStray (last : Option (Session Message (OutcomeDetails Rest))) : Prop :=
  ∃ given own index, last = some given ∧ given.outcome = some own ∧ own.messages ≠ given.messages ∧
    own.details.invocationStartMessageIndex = some index

variable {session : Session Message (OutcomeDetails Rest)}

theorem index_canonicalOutcome [DecidableEq Message] [Inhabited Rest]
    {index : Nat} :
    session.canonicalOutcome.details.invocationStartMessageIndex = some index ↔
      ∃ own, session.outcome = some own ∧ own.messages = session.messages ∧
        own.details.invocationStartMessageIndex = some index := by
  unfold Session.canonicalOutcome
  cases houtcome : session.outcome with
  | none =>
    constructor
    · intro h
      dsimp only [Option.getD_none] at h
      split at h
      · cases h
      · cases h
    · rintro ⟨_, ⟨⟩, -⟩
  | some own =>
    dsimp only [Option.getD_some]
    split
    · next hne =>
      constructor
      · nofun
      · rintro ⟨_, ⟨⟩, heq, -⟩
        exact absurd heq hne
    · next heq =>
      constructor
      · exact fun h => ⟨own, rfl, not_not.mp heq, h⟩
      · rintro ⟨_, ⟨⟩, -, h⟩
        exact h

theorem load_eq_some [DecidableEq Message] [Inhabited Rest] (h : WritesGiven kept byId store)
    {outcome : RunOutcome Message (OutcomeDetails Rest)} {t : σ} (hload : (store.load id).run s = .ok (some outcome) t) :
    ∃ session, byId s id = some session ∧ session.canonicalOutcome = outcome := by
  cases hsession : (store.loadSession id).run s with
  | ok session u =>
    rw [run_load_ok store hsession] at hload
    cases hload
    exact ⟨session, h.loaded hsession, rfl⟩
  | error error u =>
    by_cases hmissing : ∃ id, error = .notFound id
    · obtain ⟨other, rfl⟩ := hmissing
      rw [run_load_notFound store hsession] at hload
      cases hload
    · rw [run_load_error store hsession hmissing] at hload
      cases hload

/-- A store that keeps an outcome as it is given reports a boundary of the last write only. -/
theorem reportsLast_of_kept [DecidableEq Message] [Inhabited Rest]
    {store : Access → SessionStore σ Message (OutcomeDetails Rest)}
    (h : ∀ access, WritesGiven (fun _ outcome => outcome) byId (store access)) (hlast : Remembers (fun _ outcome => outcome) (byId s id) last) :
    ReportsLast store s id last := by
  intro access outcome t index hload hindex
  obtain ⟨session, hsession, rfl⟩ := load_eq_some (h access) hload
  obtain ⟨own, hown, hmessages, hboundary⟩ := index_canonicalOutcome.mp hindex
  rw [hsession] at hlast
  obtain ⟨hsame, houtcome⟩ | _ := hlast
  rw [Option.map_id'] at houtcome
  exact ⟨_, own, rfl, houtcome.symm.trans hown, hmessages.trans hsame, hboundary⟩

/-- One that gives an outcome the messages of its session does so exactly if the last write was not stray. -/
theorem reportsLast_iff_of_synchronized [DecidableEq Message] [Inhabited Rest]
    {store : Access → SessionStore σ Message (OutcomeDetails Rest)}
    (h : ∀ access, WritesGiven (fun messages outcome => { outcome with messages }) byId (store access))
    (hworks : ∀ id session, byId s id = some session → validateSessionId id = .ok () →
      ((store .working).loadSession id).run s = .ok session s) (hsound : Sound (byId s))
    (hlast : Remembers (fun messages outcome => { outcome with messages }) (byId s id) last) :
    ReportsLast store s id last ↔ ¬ GivenStray last := by
  constructor
  · rintro hreports ⟨given, own, index, rfl, hown, hstray, hindex⟩
    cases hstored : byId s id with
    | none =>
      rw [hstored] at hlast
      cases hlast
    | some session =>
      rw [hstored] at hlast
      obtain ⟨hsame, houtcome⟩ | _ := hlast
      rw [hown, Option.map_some] at houtcome
      have hcanonical := index_canonicalOutcome.mpr ⟨_, houtcome, hsame.symm, hindex⟩
      have hload := run_load_ok _ (hworks id session hstored (hsound id session hstored).2)
      obtain ⟨_, other, hgiven, hother, hmessages, -⟩ := hreports .working _ s index hload hcanonical
      obtain rfl := Option.some.inj hgiven
      obtain rfl := Option.some.inj (hown.symm.trans hother)
      exact hstray hmessages
  · intro hstray access outcome t index hload hindex
    obtain ⟨session, hsession, rfl⟩ := load_eq_some (h access) hload
    obtain ⟨own, hown, hmessages, hboundary⟩ := index_canonicalOutcome.mp hindex
    rw [hsession] at hlast
    cases last with
    | none => cases hlast
    | some given =>
      obtain ⟨hsame, houtcome⟩ | _ := hlast
      rw [houtcome] at hown
      obtain ⟨own, hgiven, rfl⟩ := Option.map_eq_some_iff.mp hown
      refine ⟨given, own, rfl, hgiven, ?_, hboundary⟩
      by_contra hne
      exact hstray ⟨given, own, index, rfl, hgiven, hne, hboundary⟩

/-! ### The three stores -/

open JsonFileSessionStore in
theorem writesGiven_json (access : Access) :
    WritesGiven (fun messages outcome => { outcome with messages }) SessionFile.byId
      (jsonFileSessionStore access : SessionStore _ Message (OutcomeDetails Rest)) where
  create _ session _ := leads_createSession session
  load sessionId _ := JsonFileSessionStore.after_loadSession sessionId
  swap _ expectedRevision replacement _ := leads_compareAndSwap expectedRevision replacement
  acquire _ base owner _ := leads_acquireExecutionLease base owner
  recover _ base owner _ := leads_recoverExpiredExecutionLease base owner
  clear _ base _ := leads_clearExpiredExecutionLease base
  commit _ lease _ := leads_commitExecutionLease lease
  release lease _ := leads_releaseExecutionLease lease
  loaded := by
    intro sessionId s session t h
    obtain ⟨_, -, h⟩ := run_check_bind_eq_ok.mp h
    obtain ⟨_, u, hread, h⟩ := run_bind_eq_ok.mp h
    obtain ⟨_, -, hread⟩ := run_check_bind_eq_ok.mp hread
    cases hread
    exact okOr_eq_ok.mp (run_check_eq_ok.mp h).1

/-- A session in a file that can be read is loaded. -/
theorem json_loadSession_of_stored {file : SessionFile Message (OutcomeDetails Rest)} (hsession : file.byId id = some session)
    (hvalid : validateSessionId id = .ok ()) :
    ((jsonFileSessionStore .working).loadSession id).run file = .ok session file := by
  show (JsonFileSessionStore.loadSession .working id).run file = _
  unfold JsonFileSessionStore.loadSession
  rw [hvalid]
  show (check (okOr (file.byId id) _)).run file = _
  rw [hsession]
  rfl

open SqliteSessionStore in
theorem writesGiven_sqlite (access : Access) :
    WritesGiven (fun _ outcome => outcome) SessionTables.byId
      (sqliteSessionStore access : SessionStore _ Message (OutcomeDetails Rest)) where
  create _ session _ := leads_createSession session
  load sessionId _ := SqliteSessionStore.after_loadSession sessionId
  swap _ expectedRevision replacement _ := leads_compareAndSwap expectedRevision replacement
  acquire _ base owner _ := leads_acquireExecutionLease base owner
  recover _ base owner _ := leads_recoverExpiredExecutionLease base owner
  clear _ base _ := leads_clearExpiredExecutionLease base
  commit _ lease _ := leads_commitExecutionLease lease
  release lease _ := leads_releaseExecutionLease lease
  loaded := by
    intro sessionId s session t h
    obtain ⟨_, -, h⟩ := run_check_bind_eq_ok.mp h
    obtain ⟨_, u, hread, h⟩ := run_bind_eq_ok.mp h
    obtain ⟨_, -, hread⟩ := run_check_bind_eq_ok.mp hread
    cases hread
    exact okOr_eq_ok.mp (run_check_eq_ok.mp h).1

/-- What the store in memory does is what the one in a file does. -/
theorem writes_of_isFile {α : Type} {s : InMemorySessionStore Message (OutcomeDetails Rest)}
    {m : StoreCall Message (OutcomeDetails Rest) α} {m' : FileCall Message (OutcomeDetails Rest) α} (h : Matches IsFile (m.run s) (m'.run (fileOf s)))
    (hwrites : Leads (WritesFile given) m' (fileOf s)) :
    WritesFile given (fileOf s) (fileOf (after (m.run s))) := by
  obtain ⟨-, hafter⟩ := h
  unfold Leads at hwrites
  rw [IsFile] at hafter
  rwa [hafter] at hwrites

/-- The calls on the store in memory meet no file. -/
abbrev inMemory : Access → SessionStore (InMemorySessionStore Message (OutcomeDetails Rest)) Message (OutcomeDetails Rest) :=
  fun _ => inMemorySessionStore

open JsonFileSessionStore in
theorem writesGiven_inMemory (access : Access) :
    WritesGiven (fun messages outcome => { outcome with messages }) (fun s => (fileOf s).byId)
      (inMemory access : SessionStore _ Message (OutcomeDetails Rest)) where
  create _ session _ := writes_of_isFile (json_createSession session) (leads_createSession session)
  load sessionId s := AikitRuntime.Sessions.after_loadSession sessionId s
  swap _ expectedRevision replacement _ :=
    writes_of_isFile (json_compareAndSwap expectedRevision replacement) (leads_compareAndSwap expectedRevision replacement)
  acquire _ base owner _ :=
    writes_of_isFile (json_acquireExecutionLease base owner) (leads_acquireExecutionLease base owner)
  recover _ base owner _ :=
    writes_of_isFile (json_recoverExpiredExecutionLease base owner) (leads_recoverExpiredExecutionLease base owner)
  clear _ base _ := writes_of_isFile (json_clearExpiredExecutionLease base) (leads_clearExpiredExecutionLease base)
  commit _ lease _ := writes_of_isFile (json_commitExecutionLease lease) (leads_commitExecutionLease lease)
  release lease _ := writes_of_isFile (json_releaseExecutionLease lease) (leads_releaseExecutionLease lease)
  loaded h := (loadSession_eq_ok.mp h).2.1

/-- The session that was last written in the store in memory. -/
abbrev lastInMemory [DecidableEq Message] [Inhabited Rest]
    (requests : List (Access × SessionRequest Message (OutcomeDetails Rest))) (id : String) :
    Option (Session Message (OutcomeDetails Rest)) :=
  lastGiven (fun s => (fileOf s).byId) inMemory id .empty requests none

/-- The session that was last written in the file. -/
abbrev lastInFile [DecidableEq Message] [Inhabited Rest]
    (requests : List (Access × SessionRequest Message (OutcomeDetails Rest))) (id : String) :
    Option (Session Message (OutcomeDetails Rest)) :=
  lastGiven SessionFile.byId jsonFileSessionStore id JsonFileSessionStore.empty requests none

/-- The session that was last written in the tables. -/
abbrev lastInTables [DecidableEq Message] [Inhabited Rest]
    (requests : List (Access × SessionRequest Message (OutcomeDetails Rest))) (id : String) :
    Option (Session Message (OutcomeDetails Rest)) :=
  lastGiven SessionTables.byId sqliteSessionStore id SqliteSessionStore.empty requests none

/-- **A boundary that is reported is one of the last write**: always in SQLite, and in the other stores exactly if that
write was not given a boundary in another transcript. -/
theorem boundary_reported_iff [DecidableEq Message] [Inhabited Rest]
    (requests : List (Access × SessionRequest Message (OutcomeDetails Rest))) (id : String) :
    (ReportsLast inMemory (afterRequests inMemory .empty requests) id (lastInMemory requests id) ↔
        ¬ GivenStray (lastInMemory requests id)) ∧
      (ReportsLast jsonFileSessionStore (afterRequests jsonFileSessionStore JsonFileSessionStore.empty requests) id
          (lastInFile requests id) ↔ ¬ GivenStray (lastInFile requests id)) ∧
      ReportsLast sqliteSessionStore (afterRequests sqliteSessionStore SqliteSessionStore.empty requests) id
        (lastInTables requests id) := by
  have hnone (sessions : SessionsById Message (OutcomeDetails Rest)) (h : sessions = fun _ => none) :
      Sound sessions := by
    subst h
    intro other session hsession
    cases hsession
  have hstart {kept} (sessions : SessionsById Message (OutcomeDetails Rest)) (h : sessions = fun _ => none) :
      Remembers kept (sessions id) none := by
    rw [h]
    exact .none
  refine ⟨?_, ?_, ?_⟩
  · have hempty : (fileOf (.empty : InMemorySessionStore Message (OutcomeDetails Rest))).byId = fun _ => none := by
      funext other
      simp [SessionFile.byId, fileOf, InMemorySessionStore.empty]
    obtain ⟨hsound, hlast⟩ := remembers_run writesGiven_inMemory id requests (hnone _ hempty) (hstart _ hempty)
    refine reportsLast_iff_of_synchronized writesGiven_inMemory ?_ hsound hlast
    intro other session hsession hvalid
    exact loadSession_eq_ok.mpr ⟨hvalid, hsession, rfl⟩
  · have hempty : SessionFile.byId (JsonFileSessionStore.empty : SessionFile Message (OutcomeDetails Rest)) =
        fun _ => none := by
      funext other
      simp [SessionFile.byId, JsonFileSessionStore.empty]
    obtain ⟨hsound, hlast⟩ := remembers_run writesGiven_json id requests (hnone _ hempty) (hstart _ hempty)
    refine reportsLast_iff_of_synchronized writesGiven_json ?_ hsound hlast
    intro other session hsession hvalid
    exact json_loadSession_of_stored hsession hvalid
  · have hempty : SessionTables.byId (SqliteSessionStore.empty : SessionTables Message (OutcomeDetails Rest)) =
        fun _ => none := by
      funext other
      simp [SessionTables.byId, SqliteSessionStore.empty]
    obtain ⟨-, hlast⟩ := remembers_run writesGiven_sqlite id requests (hnone _ hempty) (hstart _ hempty)
    exact reportsLast_of_kept writesGiven_sqlite hlast

end

/-- A session whose outcome starts its invocation at the first of its messages, in this transcript. -/
def greeting (messages : List String) : Session String (OutcomeDetails Unit) :=
  ⟨"s", 0, messages, ∅, 0, 0, some ⟨["hello"], ⟨some 0, ()⟩⟩⟩

/-- The transcript is replaced, and the outcome is not. -/
def replacing : List (Access × SessionRequest String (OutcomeDetails Unit)) :=
  [(.working, .create (atTime 7) (greeting ["hello"])), (.working, .swap (atTime 7) 1 (greeting ["hello", "bye"]))]

theorem lastInMemory_replacing : lastInMemory replacing "s" = some (greeting ["hello", "bye"]) := by
  unfold lastInMemory replacing lastGiven lastGiven lastGiven
  exact if_neg (by decide +kernel)

/-- The store in memory reports a boundary in a transcript that was replaced. -/
theorem boundary_reported_stray :
    ¬ ReportsLast inMemory (afterRequests inMemory .empty replacing) "s" (lastInMemory replacing "s") := by
  intro hreports
  refine (boundary_reported_iff replacing "s").1.mp hreports ?_
  rw [lastInMemory_replacing]
  exact ⟨_, ⟨["hello"], ⟨some 0, ()⟩⟩, 0, rfl, rfl, by decide, rfl⟩

end AikitRuntime.Sessions
