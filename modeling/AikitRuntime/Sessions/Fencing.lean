import AikitRuntime.Library.Paths
import AikitRuntime.Sessions.SessionStore

/-!
# Fencing

Any number of workers call one store. A run is a path of calls with their answers, and the tokens
that are issued in it are those of the claims that its calls returned.

A claim is live while the store has its token, and a claim that is not live is fenced off: it never
becomes live again, since tokens do not repeat, and a call with it is refused and changes nothing.
-/

namespace AikitRuntime.Sessions

open Library Durability Method InMemorySessionStore

section
variable {Message Details : Type}

/-- A call on the store. -/
inductive SessionCall (Message Details : Type) where
  | create (around : Surroundings) (session : Session Message Details)
  | swap (around : Surroundings) (expectedRevision : Nat) (replacement : Session Message Details)
  | acquire (around : Surroundings) (base : Session Message Details) (owner : String)
  | recover (around : Surroundings) (base : Session Message Details) (recoveryOwner : String)
  | clear (around : Surroundings) (base : Session Message Details)
  | commit (around : Surroundings) (lease : SessionExecutionLease Message Details)
  | release (lease : SessionExecutionLease Message Details)

/-- What a call returns. -/
inductive Answer (Message Details : Type) where
  | session (session : Session Message Details)
  | lease (lease : SessionExecutionLease Message Details)

open InMemorySessionStore in
/-- The method of a call. -/
def SessionCall.method :
    SessionCall Message Details → StoreCall Message Details (Answer Message Details)
  | .create around session => .session <$> createSession around session
  | .swap around expectedRevision replacement =>
    .session <$> compareAndSwap around expectedRevision replacement
  | .acquire around base owner => .lease <$> acquireExecutionLease around base owner
  | .recover around base recoveryOwner =>
    .lease <$> recoverExpiredExecutionLease around base recoveryOwner
  | .clear around base => .session <$> clearExpiredExecutionLease around base
  | .commit around lease => .session <$> commitExecutionLease around lease
  | .release lease => .session <$> releaseExecutionLease lease

/-- A call and its answer. -/
structure Called (Message Details : Type) where
  call : SessionCall Message Details
  answer : Except SessionStoreError (Answer Message Details)

/-- A call with this answer takes one store to another. -/
def Calls (s : InMemorySessionStore Message Details) (called : Called Message Details)
    (t : InMemorySessionStore Message Details) : Prop :=
  called.call.method.run s = match called.answer with
    | .ok a => .ok a t
    | .error e => .error e t

/-- The token of the claim that a call returned. -/
def Called.issued (called : Called Message Details) : Option String :=
  match called.answer with
  | .ok (.lease lease) => some lease.token
  | _ => none

/-- The tokens that are issued in a run. -/
def issued (calls : List (Called Message Details)) : List String := calls.filterMap Called.issued

namespace InMemorySessionStore

/-- The claim with this token on this session is live. -/
def Live (s : InMemorySessionStore Message Details) (id token : String) : Prop :=
  ∃ record, s.executionLeases[id]? = some record ∧ record.token = token

/-- The revision of a session; one that does not exist has revision zero. -/
def revisionOf (s : InMemorySessionStore Message Details) (id : String) : Nat :=
  match s.sessions[id]? with
  | some session => session.revision
  | none => 0

end InMemorySessionStore

/-- What a call can do to the store. -/
inductive Wrote (s : InMemorySessionStore Message Details) :
    Called Message Details → InMemorySessionStore Message Details → Prop where
  /-- It was refused. -/
  | nothing {call : SessionCall Message Details} {error : SessionStoreError} :
      Wrote s ⟨call, .error error⟩ s
  | created {around : Surroundings} {base session : Session Message Details} (hid : session.id = base.id)
      (hnew : s.sessions[base.id]? = none) (hrevision : session.revision = 1) :
      Wrote s ⟨.create around base, .ok (.session session)⟩
        { s with sessions := s.sessions.insert base.id session }
  | swapped {around : Surroundings} {expected : Nat} {base session current : Session Message Details}
      (hid : session.id = base.id) (hold : s.sessions[base.id]? = some current)
      (hexpected : expected = current.revision) (hrevision : session.revision = current.revision + 1) :
      Wrote s ⟨.swap around expected base, .ok (.session session)⟩
        { s with sessions := s.sessions.insert base.id session }
  | acquired {around : Surroundings} {base : Session Message Details} {owner : String}
      {record : SessionExecutionLeaseRecord} (hfree : s.executionLeases[base.id]? = none)
      (hbase : base.revision = s.revisionOf base.id) :
      Wrote s ⟨.acquire around base owner, .ok (.lease (.fromRecord base record))⟩
        { s with executionLeases := s.executionLeases.insert base.id record }
  | recovered {around : Surroundings} {base : Session Message Details} {owner : String}
      {record : SessionExecutionLeaseRecord} (hbase : base.revision = s.revisionOf base.id) :
      Wrote s ⟨.recover around base owner, .ok (.lease (.fromRecord base record))⟩
        { s with executionLeases := s.executionLeases.insert base.id record }
  | cleared {around : Surroundings} {base : Session Message Details} :
      Wrote s ⟨.clear around base, .ok (.session base)⟩
        { s with executionLeases := s.executionLeases.erase base.id }
  | committed {around : Surroundings} {lease : SessionExecutionLease Message Details}
      {session : Session Message Details} (hlive : s.Live lease.session.id lease.token)
      (hid : session.id = lease.session.id)
      (hcurrent : lease.session.revision = s.revisionOf lease.session.id)
      (hrevision : session.revision = s.revisionOf lease.session.id + 1) :
      Wrote s ⟨.commit around lease, .ok (.session session)⟩
        { sessions := s.sessions.insert lease.session.id session
          executionLeases := s.executionLeases.erase lease.session.id }
  /-- A commit by the live claim that comes too late. -/
  | gaveUp {around : Surroundings} {lease : SessionExecutionLease Message Details}
      {error : SessionStoreError} (hlive : s.Live lease.session.id lease.token) :
      Wrote s ⟨.commit around lease, .error error⟩
        { s with executionLeases := s.executionLeases.erase lease.session.id }
  | released {lease : SessionExecutionLease Message Details}
      (hlive : s.Live lease.session.id lease.token) :
      Wrote s ⟨.release lease, .ok (.session lease.session)⟩
        { s with executionLeases := s.executionLeases.erase lease.session.id }

/-! ### What a call does -/

variable {s t : InMemorySessionStore Message Details} {around : Surroundings}
  {base session : Session Message Details} {lease : SessionExecutionLease Message Details}
  {owner : String} {expected : Nat} {error : SessionStoreError}

theorem validateLeaseBase_ok (h : validateLeaseBase s.sessions[base.id]? base = .ok ()) :
    base.revision = s.revisionOf base.id := by
  unfold validateLeaseBase at h
  unfold revisionOf
  cases hcurrent : s.sessions[base.id]? with
  | none =>
    rw [hcurrent] at h
    split at h
    · next hzero => exact hzero
    · cases h
  | some current =>
    rw [hcurrent] at h
    split at h
    · cases h
    · rw [okOr_some, ok_bind, validateRevision, refuseIf_eq_ok] at h
      exact not_not.mp h

theorem validateExecutionLeaseClaim_ok
    (h : validateExecutionLeaseClaim s.executionLeases[lease.session.id]? lease = .ok ()) :
    s.Live lease.session.id lease.token := by
  cases hactual : s.executionLeases[lease.session.id]? with
  | none =>
    rw [hactual] at h
    cases h
  | some record =>
    rw [hactual, validateExecutionLeaseClaim, refuseIf_eq_ok] at h
    exact ⟨record, hactual, (not_not.mp h).2.1⟩

theorem prepareReplacement_ok {current replacement : Session Message Details}
    (h : prepareReplacement around current replacement = .ok session) :
    session.id = replacement.id ∧ session.revision = current.revision + 1 := by
  unfold prepareReplacement at h
  obtain ⟨revision, hrevision, h⟩ := bind_eq_ok.mp h
  cases h
  exact ⟨rfl, (checkedAdd_eq_some.mp (okOr_eq_ok.mp hrevision)).1.symm⟩

theorem committed_ok
    (h : committed around base s.sessions[base.id]? = .ok session) :
    session.id = base.id ∧ base.revision = s.revisionOf base.id ∧
      session.revision = s.revisionOf base.id + 1 := by
  unfold committed at h
  unfold revisionOf
  cases hcurrent : s.sessions[base.id]? with
  | none =>
    rw [hcurrent] at h
    split at h
    · next hzero =>
      cases h
      exact ⟨rfl, hzero, rfl⟩
    · cases h
  | some current =>
    rw [hcurrent] at h
    split at h
    · cases h
    · rw [okOr_some, ok_bind] at h
      obtain ⟨_, hrevision, h⟩ := bind_eq_ok.mp h
      obtain ⟨hid, hnext⟩ := prepareReplacement_ok h
      exact ⟨hid, not_not.mp (refuseIf_eq_ok.mp hrevision), hnext⟩

open InMemorySessionStore

theorem createSession_ok (h : (createSession around base).run s = .ok session t) :
    Wrote s ⟨.create around base, .ok (.session session)⟩ t := by
  unfold createSession at h
  obtain ⟨_, _, h⟩ := run_check_bind_eq_ok.mp h
  rw [run_read_bind, id_eq] at h
  cases hcurrent : s.sessions[base.id]? with
  | some current =>
    rw [hcurrent] at h
    cases h
  | none =>
    rw [hcurrent] at h
    cases h
    exact .created rfl hcurrent rfl

theorem compareAndSwap_ok (h : (compareAndSwap around expected base).run s = .ok session t) :
    Wrote s ⟨.swap around expected base, .ok (.session session)⟩ t := by
  unfold compareAndSwap at h
  obtain ⟨_, _, h⟩ := run_check_bind_eq_ok.mp h
  rw [run_read_bind, id_eq] at h
  obtain ⟨current, hcurrent, h⟩ := run_check_bind_eq_ok.mp h
  obtain ⟨_, hexpected, h⟩ := run_check_bind_eq_ok.mp h
  obtain ⟨replacement, hreplacement, h⟩ := run_check_bind_eq_ok.mp h
  obtain ⟨hid, hrevision⟩ := prepareReplacement_ok hreplacement
  cases h
  rw [hid]
  exact .swapped hid (okOr_eq_ok.mp hcurrent) (not_not.mp (refuseIf_eq_ok.mp hexpected)) hrevision

theorem acquireExecutionLease_ok (h : (acquireExecutionLease around base owner).run s = .ok lease t) :
    Wrote s ⟨.acquire around base owner, .ok (.lease lease)⟩ t := by
  unfold acquireExecutionLease at h
  obtain ⟨_, _, h⟩ := run_check_bind_eq_ok.mp h
  obtain ⟨_, _, h⟩ := run_check_bind_eq_ok.mp h
  rw [run_read_bind, id_eq] at h
  obtain ⟨_, hfree, h⟩ := run_check_bind_eq_ok.mp h
  obtain ⟨_, hbase, h⟩ := run_check_bind_eq_ok.mp h
  obtain ⟨record, _, h⟩ := run_check_bind_eq_ok.mp h
  cases h
  refine .acquired ?_ (validateLeaseBase_ok hbase)
  exact BTreeMap.contains_eq_false.mp (Bool.eq_false_iff.mpr (refuseIf_eq_ok.mp hfree))

theorem checkExpired_ok (h : checkExpired around base s = .ok ()) :
    base.revision = s.revisionOf base.id := by
  unfold checkExpired at h
  obtain ⟨_, _, h⟩ := bind_eq_ok.mp h
  obtain ⟨_, _, h⟩ := bind_eq_ok.mp h
  obtain ⟨_, _, h⟩ := bind_eq_ok.mp h
  obtain ⟨_, _, h⟩ := bind_eq_ok.mp h
  exact validateLeaseBase_ok h

theorem recoverExpiredExecutionLease_ok
    (h : (recoverExpiredExecutionLease around base owner).run s = .ok lease t) :
    Wrote s ⟨.recover around base owner, .ok (.lease lease)⟩ t := by
  unfold recoverExpiredExecutionLease at h
  obtain ⟨_, _, h⟩ := run_check_bind_eq_ok.mp h
  obtain ⟨_, _, h⟩ := run_check_bind_eq_ok.mp h
  rw [run_read_bind, id_eq] at h
  obtain ⟨_, hexpired, h⟩ := run_check_bind_eq_ok.mp h
  obtain ⟨record, _, h⟩ := run_check_bind_eq_ok.mp h
  cases h
  exact .recovered (checkExpired_ok hexpired)

theorem clearExpiredExecutionLease_ok
    (h : (clearExpiredExecutionLease around base).run s = .ok session t) :
    Wrote s ⟨.clear around base, .ok (.session session)⟩ t := by
  unfold clearExpiredExecutionLease at h
  obtain ⟨_, _, h⟩ := run_check_bind_eq_ok.mp h
  rw [run_read_bind, id_eq] at h
  obtain ⟨_, _, h⟩ := run_check_bind_eq_ok.mp h
  cases h
  exact .cleared

theorem releaseExecutionLease_ok (h : (releaseExecutionLease lease).run s = .ok session t) :
    Wrote s ⟨.release lease, .ok (.session session)⟩ t := by
  unfold releaseExecutionLease at h
  obtain ⟨_, _, h⟩ := run_check_bind_eq_ok.mp h
  rw [run_read_bind, id_eq] at h
  obtain ⟨_, hclaim, h⟩ := run_check_bind_eq_ok.mp h
  cases h
  exact .released (validateExecutionLeaseClaim_ok hclaim)

/-- A commit that is refused keeps the lease, or gives it up if it was the live claim's. -/
theorem commitExecutionLease_spec (around : Surroundings)
    (lease : SessionExecutionLease Message Details) (s : InMemorySessionStore Message Details) :
    match (commitExecutionLease around lease).run s with
    | .ok session t => Wrote s ⟨.commit around lease, .ok (.session session)⟩ t
    | .error error t => Wrote s ⟨.commit around lease, .error error⟩ t := by
  unfold commitExecutionLease
  cases hvalid : validateSessionId lease.session.id with
  | error error => exact .nothing
  | ok =>
    rw [run_check_bind_ok, run_read_bind, id_eq]
    cases hclaim : validateExecutionLeaseClaim s.executionLeases[lease.session.id]? lease with
    | error error => exact .nothing
    | ok =>
      rw [run_check_bind_ok]
      have hlive := validateExecutionLeaseClaim_ok hclaim
      cases hresult : committed around lease.session s.sessions[lease.session.id]? with
      | ok session =>
        obtain ⟨hid, hcurrent, hrevision⟩ := committed_ok hresult
        show Wrote s ⟨.commit around lease, .ok (.session session)⟩
          ⟨s.sessions.insert session.id session, s.executionLeases.erase lease.session.id⟩
        rw [hid]
        exact .committed hlive hid hcurrent hrevision
      | error error =>
        by_cases hgives : givesUp error = true
        · dsimp only
          rw [if_pos hgives]
          exact .gaveUp hlive
        · dsimp only
          rw [if_neg hgives]
          exact .nothing

theorem createSession_failsClean : FailsClean (createSession around base) s := by
  refine FailsClean.check_bind fun _ _ => FailsClean.read_bind ?_
  show FailsClean (match s.sessions[base.id]? with | some current => _ | none => _) s
  cases s.sessions[base.id]? with
  | some current => exact FailsClean.throw _
  | none => exact FailsClean.modify _ _

theorem compareAndSwap_failsClean : FailsClean (compareAndSwap around expected base) s := by
  refine FailsClean.check_bind fun _ _ => FailsClean.read_bind ?_
  refine FailsClean.check_bind fun _ _ => FailsClean.check_bind fun _ _ => ?_
  exact FailsClean.check_bind fun _ _ => FailsClean.modify _ _

theorem acquireExecutionLease_failsClean :
    FailsClean (acquireExecutionLease around base owner) s := by
  refine FailsClean.check_bind fun _ _ => FailsClean.check_bind fun _ _ => FailsClean.read_bind ?_
  refine FailsClean.check_bind fun _ _ => FailsClean.check_bind fun _ _ => ?_
  exact FailsClean.check_bind fun _ _ => FailsClean.modify _ _

theorem recoverExpiredExecutionLease_failsClean :
    FailsClean (recoverExpiredExecutionLease around base owner) s := by
  refine FailsClean.check_bind fun _ _ => FailsClean.check_bind fun _ _ => FailsClean.read_bind ?_
  exact FailsClean.check_bind fun _ _ => FailsClean.check_bind fun _ _ => FailsClean.modify _ _

theorem clearExpiredExecutionLease_failsClean :
    FailsClean (clearExpiredExecutionLease around base) s := by
  refine FailsClean.check_bind fun _ _ => FailsClean.read_bind ?_
  exact FailsClean.check_bind fun _ _ => FailsClean.modify _ _

theorem releaseExecutionLease_failsClean : FailsClean (releaseExecutionLease lease) s := by
  refine FailsClean.check_bind fun _ _ => FailsClean.read_bind ?_
  exact FailsClean.check_bind fun _ _ => FailsClean.modify _ _

/-- A method that writes what its call does, and fails without a trace. -/
theorem wrote_of_method {α : Type} {m : StoreCall Message Details α}
    {wrap : α → Answer Message Details} {call : SessionCall Message Details}
    {answer : Except SessionStoreError (Answer Message Details)}
    (hok : ∀ a u, m.run s = .ok a u → Wrote s ⟨call, .ok (wrap a)⟩ u) (hclean : FailsClean m s)
    (h : (wrap <$> m).run s = match answer with
      | .ok a => .ok a t
      | .error e => .error e t) : Wrote s ⟨call, answer⟩ t := by
  cases answer with
  | ok a =>
    obtain ⟨b, hrun, rfl⟩ := run_map_eq_ok.mp h
    exact hok b t hrun
  | error e =>
    cases hclean e t (run_map_eq_error.mp h)
    exact .nothing

/-- **What one call does to the two maps.** -/
theorem Calls.wrote {called : Called Message Details} (h : Calls s called t) : Wrote s called t := by
  obtain ⟨call, answer⟩ := called
  cases call with
  | create => exact wrote_of_method (fun _ _ => createSession_ok) createSession_failsClean h
  | swap => exact wrote_of_method (fun _ _ => compareAndSwap_ok) compareAndSwap_failsClean h
  | acquire =>
    exact wrote_of_method (fun _ _ => acquireExecutionLease_ok) acquireExecutionLease_failsClean h
  | recover =>
    exact wrote_of_method (fun _ _ => recoverExpiredExecutionLease_ok)
      recoverExpiredExecutionLease_failsClean h
  | clear =>
    exact wrote_of_method (fun _ _ => clearExpiredExecutionLease_ok)
      clearExpiredExecutionLease_failsClean h
  | release =>
    exact wrote_of_method (fun _ _ => releaseExecutionLease_ok) releaseExecutionLease_failsClean h
  | commit around lease =>
    have hspec := commitExecutionLease_spec around lease s
    cases answer with
    | ok a =>
      obtain ⟨session, hrun, rfl⟩ := run_map_eq_ok.mp h
      rwa [hrun] at hspec
    | error e => rwa [run_map_eq_error.mp h] at hspec

/-! ### Live claims -/

/-- **A session has one live claim at most.** -/
theorem live_unique {id token token' : String} (h : s.Live id token) (h' : s.Live id token') :
    token = token' := by
  obtain ⟨record, hrecord, rfl⟩ := h
  obtain ⟨record', hrecord', rfl⟩ := h'
  rw [hrecord] at hrecord'
  cases hrecord'
  rfl

variable {called : Called Message Details} {id token : String}

variable {key : String}

theorem live_insert {record : SessionExecutionLeaseRecord} :
    ({ s with executionLeases := s.executionLeases.insert key record }).Live id token ↔
      if key = id then record.token = token else s.Live id token := by
  unfold Live
  rw [BTreeMap.get_insert]
  split <;> simp

theorem live_of_erase {sessions : BTreeMap (Session Message Details)}
    (h : ({ sessions, executionLeases := s.executionLeases.erase key } :
      InMemorySessionStore Message Details).Live id token) : s.Live id token := by
  obtain ⟨record, hrecord, htoken⟩ := h
  rw [BTreeMap.get_erase] at hrecord
  split at hrecord
  · cases hrecord
  · exact ⟨record, hrecord, htoken⟩

/-- Only a call that issues a token makes it live, and on one session. -/
theorem Wrote.live (h : Wrote s called t) (hlive : t.Live id token) :
    s.Live id token ∨
      ∃ lease, called.answer = .ok (.lease lease) ∧ lease.token = token ∧ lease.session.id = id := by
  cases h with
  | nothing | created | swapped => exact .inl hlive
  | acquired | recovered =>
    rw [live_insert] at hlive
    split at hlive
    · next heq => exact .inr ⟨_, rfl, hlive, heq⟩
    · exact .inl hlive
  | cleared | gaveUp | released | committed => exact .inl (live_of_erase hlive)

theorem Called.issued_of_answer
    (h : called.answer = .ok (.lease lease)) : called.issued = some lease.token := by
  unfold Called.issued
  rw [h]

/-- The claim that a call returns is live after it. -/
theorem Wrote.issues (h : Wrote s called t)
    (hanswer : called.answer = .ok (.lease lease)) :
    t.Live lease.session.id lease.token ∧ lease.session.revision = s.revisionOf lease.session.id := by
  cases h with
  | acquired _ hbase | recovered hbase =>
    cases hanswer
    exact ⟨⟨_, BTreeMap.get_insert_self, rfl⟩, hbase⟩
  | nothing | created | swapped | cleared | committed | gaveUp | released => cases hanswer

/-- The claim that a call comes with. -/
def SessionCall.claim : SessionCall Message Details → Option (SessionExecutionLease Message Details)
  | .commit _ lease | .release lease => some lease
  | _ => none

/-- **A call with a claim that is not live is refused, and changes nothing.** -/
theorem Wrote.of_dead (h : Wrote s called t) (hclaim : called.call.claim = some lease)
    (hdead : ¬ s.Live lease.session.id lease.token) :
    (∃ error, called.answer = .error error) ∧ t = s := by
  cases h with
  | nothing => exact ⟨⟨_, rfl⟩, rfl⟩
  | committed hlive | gaveUp hlive | released hlive =>
    cases hclaim
    exact absurd hlive hdead
  | created | swapped | acquired | recovered | cleared => cases hclaim

/-- The session whose claim a call ends: a recovery, a clearing, a commit or a release. -/
def Called.ends (called : Called Message Details) : Option String :=
  match called.call, called.answer with
  | .recover _ base _, .ok _ | .clear _ base, .ok _ => some base.id
  | .commit _ lease, .ok _ | .release lease, .ok _ => some lease.session.id
  | _, _ => none

theorem not_live_erase {sessions : BTreeMap (Session Message Details)} :
    ¬ ({ sessions, executionLeases := s.executionLeases.erase id } :
      InMemorySessionStore Message Details).Live id token := by
  rintro ⟨record, hrecord, -⟩
  rw [BTreeMap.get_erase, if_pos rfl] at hrecord
  cases hrecord

/-- A claim that a call ends is not live after it, unless the call issues its token again. -/
theorem Wrote.ends (h : Wrote s called t) (hends : called.ends = some id)
    (hother : called.issued ≠ some token) : ¬ t.Live id token := by
  cases h with
  | recovered =>
    cases hends
    rw [live_insert, if_pos rfl]
    rintro rfl
    exact hother rfl
  | cleared | committed | released =>
    cases hends
    exact not_live_erase
  | @nothing call _ => cases call <;> cases hends
  | created | swapped | acquired | gaveUp => cases hends

/-- A call that is refused changes nothing, unless it is a commit by the live claim. -/
theorem Wrote.of_error (h : Wrote s called t) (herror : called.answer = .error error) :
    t = s ∨ ∃ around lease, called.call = .commit around lease ∧
      s.Live lease.session.id lease.token := by
  cases h with
  | nothing => exact .inl rfl
  | gaveUp hlive => exact .inr ⟨_, _, rfl, hlive⟩
  | created | swapped | acquired | recovered | cleared | committed | released => cases herror

/-- The session that a call wrote. -/
def Called.written (called : Called Message Details) : Option (Session Message Details) :=
  match called.call, called.answer with
  | .create .., .ok (.session session) | .swap .., .ok (.session session)
  | .commit .., .ok (.session session) => some session
  | _, _ => none

/-- One insertion. -/
theorem wrote_insert (hid : session.id = key)
    (hrevision : session.revision = s.revisionOf key + 1) :
    (∀ written, some session = some written → written.id = id →
      (s.sessions.insert key session)[id]? = some written ∧
        written.revision = s.revisionOf id + 1) ∧
    ((∀ written, some session = some written → written.id ≠ id) →
      (s.sessions.insert key session)[id]? = s.sessions[id]?) := by
  subst hid
  constructor
  · rintro _ ⟨⟩ rfl
    exact ⟨BTreeMap.get_insert_self, hrevision⟩
  · intro hother
    exact BTreeMap.get_insert_of_ne (hother session rfl)

/-- **A session that is written has the next revision**, and the others stay as they are. -/
theorem Wrote.sessions (h : Wrote s called t) (id : String) :
    (∀ session, called.written = some session → session.id = id →
      t.sessions[id]? = some session ∧ session.revision = s.revisionOf id + 1) ∧
    ((∀ session, called.written = some session → session.id ≠ id) →
      t.sessions[id]? = s.sessions[id]?) := by
  cases h with
  | nothing =>
    rename_i call error
    refine ⟨fun session hwritten => ?_, fun _ => rfl⟩
    cases call <;> cases hwritten
  | acquired | recovered | cleared | released => exact ⟨nofun, fun _ => rfl⟩
  | gaveUp => exact ⟨nofun, fun _ => rfl⟩
  | @created around base session hid hnew hrevision =>
    have hzero : s.revisionOf base.id = 0 := by rw [revisionOf, hnew]
    exact wrote_insert hid (by rw [hrevision, hzero])
  | @swapped around expected base session current hid hold hexpected hrevision =>
    have hcurrent : s.revisionOf base.id = current.revision := by rw [revisionOf, hold]
    exact wrote_insert hid (by rw [hrevision, hcurrent])
  | committed hlive hid hcurrent hrevision => exact wrote_insert hid hrevision

/-! ### Whole runs -/

/-- A run of calls on a new store. -/
abbrev StoreRun (calls : List (Called Message Details)) (s : InMemorySessionStore Message Details) :
    Prop :=
  Path Calls .empty calls s

variable {calls pre mid post : List (Called Message Details)}
  {u v : InMemorySessionStore Message Details}

/-- The call that returned the claim of a token on a session. -/
def IssuedIn (calls : List (Called Message Details)) (id token : String) : Prop :=
  ∃ called ∈ calls, ∃ lease, called.answer = .ok (.lease lease) ∧ lease.token = token ∧
    lease.session.id = id

theorem IssuedIn.mem_issued (h : IssuedIn calls id token) : token ∈ issued calls := by
  obtain ⟨called, hmem, lease, hanswer, rfl, -⟩ := h
  exact List.mem_filterMap.mpr ⟨called, hmem, Called.issued_of_answer hanswer⟩

theorem IssuedIn.mono {more : List (Called Message Details)} (h : IssuedIn calls id token)
    (hsub : ∀ called ∈ calls, called ∈ more) : IssuedIn more id token := by
  obtain ⟨called, hmem, hlease⟩ := h
  exact ⟨called, hsub called hmem, hlease⟩

/-- Tokens that do not repeat tell the calls that issued them apart. -/
theorem called_unique {called' : Called Message Details} (hfresh : (issued calls).Nodup)
    (hmem : called ∈ calls) (hmem' : called' ∈ calls) (h : called.issued = some token)
    (h' : called'.issued = some token) : called = called' := by
  induction calls with
  | nil => cases hmem
  | cons first rest ih =>
    have hrest : (issued rest).Nodup := (List.Sublist.filterMap _ (List.sublist_cons_self ..)).nodup hfresh
    have hnot (other : Called Message Details) (hother : other ∈ rest)
        (hissued : other.issued = some token) : first.issued ≠ some token := by
      intro hfirst
      rw [issued, List.filterMap_cons, hfirst] at hfresh
      exact (List.nodup_cons.mp hfresh).1 (List.mem_filterMap.mpr ⟨other, hother, hissued⟩)
    rcases List.mem_cons.mp hmem with rfl | hin
    · rcases List.mem_cons.mp hmem' with rfl | hin'
      · rfl
      · exact absurd h (hnot called' hin' h')
    · rcases List.mem_cons.mp hmem' with rfl | hin'
      · exact absurd h' (hnot called hin h)
      · exact ih hrest hin hin'

/-- A token is issued for one session. -/
theorem IssuedIn.unique {id' : String} (hfresh : (issued calls).Nodup) (h : IssuedIn calls id token)
    (h' : IssuedIn calls id' token) : id = id' := by
  obtain ⟨called, hmem, lease, hanswer, htoken, rfl⟩ := h
  obtain ⟨called', hmem', lease', hanswer', htoken', rfl⟩ := h'
  have hsame := called_unique hfresh hmem hmem' ((Called.issued_of_answer hanswer).trans (by rw [htoken]))
    ((Called.issued_of_answer hanswer').trans (by rw [htoken']))
  subst hsame
  rw [hanswer] at hanswer'
  cases hanswer'
  rfl

/-- A live claim was issued. -/
theorem StoreRun.issued (h : StoreRun calls s) (hlive : s.Live id token) : IssuedIn calls id token := by
  have hall : ∀ id token, s.Live id token → IssuedIn calls id token := by
    refine h.invariant (P := fun s => ∀ id token, s.Live id token → IssuedIn calls id token) ?_ ?_
    · intro a called b hmem hstep ha id token hlive
      rcases hstep.wrote.live hlive with hold | ⟨lease, hanswer, htoken, hid⟩
      · exact ha id token hold
      · exact ⟨called, hmem, lease, hanswer, htoken, hid⟩
    · rintro id token ⟨record, hrecord, -⟩
      rw [empty, BTreeMap.get_empty] at hrecord
      cases hrecord
  exact hall id token hlive

/-- **A claim that is no longer live stays so.** -/
theorem stays_dead (hfresh : (Sessions.issued (pre ++ mid ++ post)).Nodup) (hpre : StoreRun pre t)
    (hmid : Path Calls t mid u) (hpost : Path Calls u post v) (hlive : t.Live id token)
    (hdead : ¬ u.Live id token) (id' : String) : ¬ v.Live id' token := by
  have hissued := hpre.issued hlive
  have hu : ∀ id', ¬ u.Live id' token := by
    intro id' hlive'
    have hissued' := StoreRun.issued (hpre.append hmid) hlive'
    have hfresh' : (Sessions.issued (pre ++ mid)).Nodup :=
      (List.Sublist.filterMap _ (List.sublist_append_left ..)).nodup hfresh
    have hsame := IssuedIn.unique hfresh' (hissued.mono fun _ => List.mem_append_left _) hissued'
    exact hdead (hsame ▸ hlive')
  have hlater : token ∉ Sessions.issued post := by
    intro hin
    rw [List.append_assoc, Sessions.issued, List.filterMap_append, List.filterMap_append] at hfresh
    exact (List.nodup_append.mp hfresh).2.2 token hissued.mem_issued token
      (List.mem_append_right _ hin) rfl
  refine hpost.invariant (P := fun s => ∀ id', ¬ s.Live id' token) ?_ hu id'
  intro a called b hmem hstep ha id' hlive'
  rcases hstep.wrote.live hlive' with hold | ⟨lease, hanswer, htoken, -⟩
  · exact ha id' hold
  · refine hlater (List.mem_filterMap.mpr ⟨called, hmem, ?_⟩)
    rw [Called.issued_of_answer hanswer, htoken]

/-- What a call of a run does, with the calls before it and those after it. -/
structure Fenced (pre : List (Called Message Details)) (t : InMemorySessionStore Message Details)
    (called : Called Message Details) (u : InMemorySessionStore Message Details)
    (post : List (Called Message Details)) : Prop where
  /-- A session has one live claim at most. -/
  one : ∀ id token token', t.Live id token → t.Live id token' → token = token'
  /-- A claim that is returned is live, and is on the current revision. -/
  issues : ∀ lease, called.answer = .ok (.lease lease) →
    u.Live lease.session.id lease.token ∧ lease.session.revision = t.revisionOf lease.session.id
  /-- The claim that a call ends never changes the store again. -/
  ended : ∀ id token, called.ends = some id → t.Live id token →
    ∀ mid later rest v w lease, post = mid ++ later :: rest → Path Calls u mid v → Calls v later w →
      later.call.claim = some lease → lease.token = token →
      (∃ error, later.answer = .error error) ∧ w = v
  /-- A commit is by the live claim, on the session it was issued for, and replaces the revision
  that the session in the claim has. -/
  commits : ∀ around lease session, called = ⟨.commit around lease, .ok (.session session)⟩ →
    t.Live lease.session.id lease.token ∧ IssuedIn pre lease.session.id lease.token ∧
      lease.session.revision = t.revisionOf lease.session.id ∧
      session.revision = lease.session.revision + 1 ∧ u.sessions[lease.session.id]? = some session
  /-- A session that is written has the next revision. -/
  writes : ∀ id session, called.written = some session → session.id = id →
    u.sessions[id]? = some session ∧ session.revision = t.revisionOf id + 1
  /-- The others stay as they are. -/
  keeps : ∀ id, (∀ session, called.written = some session → session.id ≠ id) →
    u.sessions[id]? = t.sessions[id]?
  /-- A call that is refused changes nothing, unless it is a commit by the live claim. -/
  refused : ∀ error, called.answer = .error error →
    u = t ∨ ∃ around lease, called.call = .commit around lease ∧
      t.Live lease.session.id lease.token

theorem Wrote.commits {session : Session Message Details}
    (h : Wrote s ⟨.commit around lease, .ok (.session session)⟩ t) :
    s.Live lease.session.id lease.token ∧ lease.session.revision = s.revisionOf lease.session.id ∧
      session.revision = lease.session.revision + 1 ∧
      t.sessions[lease.session.id]? = some session := by
  cases h with
  | committed hlive hid hcurrent hrevision =>
    exact ⟨hlive, hcurrent, by rw [hrevision, hcurrent], BTreeMap.get_insert_self⟩

/-- **Claims that are over are fenced off.** In every run, whatever its calls are and in whatever
order they take effect. -/
theorem StoreRun.fenced (hpre : StoreRun pre t) (hcall : Calls t called u)
    (hfresh : (Sessions.issued (pre ++ called :: post)).Nodup) : Fenced pre t called u post := by
  have hwrote := hcall.wrote
  refine ⟨fun _ _ _ => live_unique, fun _ => hwrote.issues, ?_, ?_, fun id => (hwrote.sessions id).1,
    fun id => (hwrote.sessions id).2, fun _ => hwrote.of_error⟩
  · intro id token hends hlive mid later rest v w lease hpost hmid hlater hclaim htoken
    subst hpost
    have hrun : (Sessions.issued (pre ++ [called] ++ mid)).Nodup := by
      refine (List.Sublist.filterMap _ ?_).nodup hfresh
      simp
    have hother : called.issued ≠ some token := by
      intro hissued
      have hin : token ∈ Sessions.issued (called :: (mid ++ later :: rest)) :=
        List.mem_filterMap.mpr ⟨called, List.mem_cons_self, hissued⟩
      rw [Sessions.issued, List.filterMap_append] at hfresh
      exact (List.nodup_append.mp hfresh).2.2 token (hpre.issued hlive).mem_issued token hin rfl
    have hdead : ¬ v.Live lease.session.id lease.token := by
      rw [htoken]
      exact stays_dead hrun hpre (.single hcall) hmid hlive (hwrote.ends hends hother) _
    exact hlater.wrote.of_dead hclaim hdead
  · rintro around lease session rfl
    obtain ⟨hlive, hcurrent, hnext, hat⟩ := hwrote.commits
    exact ⟨hlive, hpre.issued hlive, hcurrent, hnext, hat⟩

end

/-! ### A claim whose holder follows the store -/

/-- Surroundings in which everything works. -/
def quiet : Surroundings := ⟨7, .ok 7, .ok fun _ => 0⟩

/-- A new session. -/
def blankSession : Session Unit Unit := ⟨"s", 0, [], ∅, 0, 0, none⟩

/-- The claim after its holder has set the revision in it. -/
def atRevision (lease : SessionExecutionLease Unit Unit) (revision : Nat) :
    SessionExecutionLease Unit Unit :=
  { lease with session := { lease.session with revision } }

open InMemorySessionStore in
/-- Another worker swaps the session, and the holder of the claim follows it. -/
theorem follow_commits :
    ∃ created s₁, (createSession quiet blankSession).run .empty = .ok created s₁ ∧
      ∃ lease s₂, (acquireExecutionLease quiet created "worker").run s₁ = .ok lease s₂ ∧
      ∃ swapped s₃, (compareAndSwap quiet 1 created).run s₂ = .ok swapped s₃ ∧
      ∃ saved s₄, (commitExecutionLease quiet (atRevision lease swapped.revision)).run s₃ = .ok saved s₄ ∧
        lease.session.revision = 1 ∧ saved.revision = 3 := by
  decide +kernel

theorem calls_of_ok {α : Type} {m : StoreCall Unit Unit α} {wrap : α → Answer Unit Unit}
    {call : SessionCall Unit Unit} (hmethod : call.method = wrap <$> m)
    {s t : InMemorySessionStore Unit Unit} {a : α} (h : m.run s = .ok a t) :
    Calls s ⟨call, .ok (wrap a)⟩ t := by
  show call.method.run s = .ok (wrap a) t
  rw [hmethod]
  exact run_map_eq_ok.mpr ⟨a, h, rfl⟩

/-- The calls before the commit. -/
def followed (created swapped : Session Unit Unit) (lease : SessionExecutionLease Unit Unit) :
    List (Called Unit Unit) :=
  [⟨.create quiet blankSession, .ok (.session created)⟩,
    ⟨.acquire quiet created "worker", .ok (.lease lease)⟩,
    ⟨.swap quiet 1 created, .ok (.session swapped)⟩]

theorem exists_follow :
    ∃ created lease swapped saved, ∃ t u : InMemorySessionStore Unit Unit,
      StoreRun (followed created swapped lease) t ∧
      Calls t ⟨.commit quiet (atRevision lease swapped.revision), .ok (.session saved)⟩ u ∧
      lease.session.revision = 1 ∧ saved.revision = 3 := by
  obtain ⟨created, s₁, hcreate, lease, s₂, hacquire, swapped, s₃, hswap, saved, u, hcommit, hone, hthree⟩ :=
    follow_commits
  refine ⟨created, lease, swapped, saved, s₃, u, ?_, calls_of_ok rfl hcommit, hone, hthree⟩
  exact .cons (calls_of_ok rfl hcreate) (.cons (calls_of_ok rfl hacquire)
    (.single (calls_of_ok rfl hswap)))

theorem fenced_follow :
    ∃ created lease swapped saved, ∃ t u : InMemorySessionStore Unit Unit,
      Fenced (followed created swapped lease) t
        ⟨.commit quiet (atRevision lease swapped.revision), .ok (.session saved)⟩ u [] := by
  obtain ⟨created, lease, swapped, saved, t, u, hpre, hcall, -, -⟩ := exists_follow
  exact ⟨created, lease, swapped, saved, t, u, hpre.fenced hcall (List.pairwise_singleton _ lease.token)⟩

/-- A commit replaces the revision that its claim was acquired at. -/
def ReplacesAcquired : Prop :=
  ∀ (calls : List (Called Unit Unit)) (t u : InMemorySessionStore Unit Unit) around lease session,
    StoreRun calls t → Calls t ⟨.commit around lease, .ok (.session session)⟩ u →
    (issued calls).Nodup → ∀ called ∈ calls, ∀ acquired : SessionExecutionLease Unit Unit,
      called.answer = .ok (.lease acquired) → acquired.token = lease.token →
      session.revision = acquired.session.revision + 1

/-- **The holder of a claim can follow the session**: the claim is acquired at revision one, and
the commit replaces revision two. -/
theorem not_replacesAcquired : ¬ ReplacesAcquired := by
  intro h
  obtain ⟨created, lease, swapped, saved, t, u, hpre, hcall, hone, hthree⟩ := exists_follow
  have hnext := h _ t u _ _ _ hpre hcall (List.pairwise_singleton _ lease.token)
    ⟨.acquire quiet created "worker", .ok (.lease lease)⟩ (by simp [followed]) lease rfl rfl
  rw [hone, hthree] at hnext
  cases hnext

end AikitRuntime.Sessions
