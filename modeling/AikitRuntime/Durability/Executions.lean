import AikitRuntime.Durability.Reach
import AikitRuntime.Durability.QuickDigest

/-!
# When an activity is executed again

An attempt follows another when the one before it failed, may be retried, and left no
effect that an operator has still to look at. Two laws are read off that rule. An activity
that is not safe to repeat is started again only after its attempt was released, by a
failure without an effect or by an operator. And a completed activity is not started again
on its branch, as long as a completion that an operator enters is one of the latest attempt:
the event that enters it names any attempt that awaits reconciliation, be it superseded.
-/

namespace AikitRuntime.Durability

open Library ActivityRecord

/-- The attempt failed, may be retried, and left no effect. -/
def ActivityAttempt.Retryable (attempt : ActivityAttempt) : Prop :=
  attempt.status = .failed ∧ attempt.retryable = true ∧ attempt.effectAmbiguous = false

/-- The event lets the activity be attempted again: the attempt failed without an effect, or an
operator found it safe to retry. -/
def RunEventKind.Releases (kind : RunEventKind) (id : String) (attempt : Nat) : Prop :=
  (∃ error, kind = .activityAttemptFailed id attempt error true false) ∨
    kind = .activityReconciled id attempt .safeToRetry

namespace ActivityRecord

variable {r r' : ActivityRecord} {a : ActivityAttempt} {id : String} {version sequence : Nat}
  {kind : RunEventKind}

/-- The attempts that have completed. -/
def completedAttempts (r : ActivityRecord) : List ActivityAttempt :=
  r.attempts.filter fun attempt => attempt.status = .completed

/-- Only the last attempt bears the number. -/
def LatestIs (r : ActivityRecord) (attempt : Nat) : Prop :=
  ∀ (i : Nat) (a : ActivityAttempt), r.attempts[i]? = some a → a.attempt = attempt →
    i + 1 = r.attempts.length

/-- Only the last attempt can have completed. -/
def CompletesLast (r : ActivityRecord) : Prop := r.Superseded fun a => a.status ≠ .completed

/-- A reconciliation that the event makes as a completion is of the last attempt. -/
def Due (r : ActivityRecord) (id : String) (kind : RunEventKind) : Prop :=
  ∀ attempt output, kind = .activityReconciled id attempt (.completed output) → r.LatestIs attempt

/-- The record has one completed attempt, and `r'` has it as well and no other. -/
def StaysCompleted (r r' : ActivityRecord) : Prop :=
  r'.completedAttempts = r.completedAttempts ∧ r.completedAttempts.length = 1 ∧
    r'.completedOutput = r.completedOutput

theorem completedOutput_eq : r.completedOutput = r.completedAttempts.getLast?.bind (·.output) := by
  unfold completedOutput completedAttempts
  rw [← List.head?_filter, List.filter_reverse, List.head?_reverse]

theorem mem_completedAttempts : a ∈ r.completedAttempts ↔ a ∈ r.attempts ∧ a.status = .completed := by
  simp [completedAttempts]

/-- The completed attempt of a record is its last one. -/
theorem CompletesLast.latestAttempt (hr : r.CompletesLast) (hcompleted : r.completedAttempts ≠ []) :
    ∃ a, r.latestAttempt = some a ∧ a.status = .completed := by
  obtain ⟨a, ha⟩ := List.exists_mem_of_ne_nil _ hcompleted
  obtain ⟨hmem, hstatus⟩ := mem_completedAttempts.mp ha
  obtain ⟨i, hi⟩ := List.getElem?_of_mem hmem
  have hlength := (List.getElem?_eq_some_iff.mp hi).1
  have hlast : i = r.attempts.length - 1 := by
    by_contra hne
    exact hr i a hi (by omega) hstatus
  subst hlast
  exact ⟨a, latestAttempt_eq_some.mpr ⟨by omega, hi⟩, hstatus⟩

/-- It is the only completed one. -/
theorem CompletesLast.completedAttempts_eq (hr : r.CompletesLast) (hlatest : r.latestAttempt = some a)
    (hstatus : a.status = .completed) : r.completedAttempts = [a] := by
  obtain ⟨front, hfront⟩ := List.getLast?_eq_some_iff.mp hlatest
  have hold : ∀ b ∈ front, b.status ≠ .completed := by
    intro b hb
    obtain ⟨i, hi⟩ := List.getElem?_of_mem hb
    have hlength := (List.getElem?_eq_some_iff.mp hi).1
    refine hr i b ?_ ?_
    · rw [hfront, List.getElem?_append_left hlength, hi]
    · rw [hfront, List.length_append, List.length_singleton]
      omega
  unfold completedAttempts
  rw [hfront, List.filter_append, List.filter_eq_nil_iff.mpr (by simpa using hold)]
  simp [hstatus]

section
variable [Digest]

/-! ### What an event does to the last attempt -/

/-- What an event other than a start does to the last attempt: nothing, or it releases the
attempt, or leaves one that may not be repeated. -/
theorem RecordStep.latest (h : RecordStep version sequence id r kind r') (hkind : ¬ kind.Starts id)
    (hlatest : r.latestAttempt = some a) :
    ∃ a', r'.latestAttempt = some a' ∧
      (a' = a ∨ (a'.attempt = a.attempt ∧ (a'.Retryable → kind.Releases id a.attempt))) := by
  have replaced : ∀ {attempt : Nat} {found new : ActivityAttempt},
      r.findAttempt attempt = some found → new.attempt = found.attempt →
      (new.Retryable → kind.Releases id attempt) →
      ∃ a', (r.setAttempt attempt new).latestAttempt = some a' ∧
        (a' = a ∨ (a'.attempt = a.attempt ∧ (a'.Retryable → kind.Releases id a.attempt))) := by
    intro attempt found new hfind hnumber hreleases
    have hcases : (found = a ∧ (r.setAttempt attempt new).latestAttempt = some new) ∨
        (r.setAttempt attempt new).latestAttempt = some a := latestAttempt_setAttempt hfind hlatest
    rcases hcases with ⟨rfl, hnew⟩ | hold
    · rw [← attempt_of_find hfind] at hreleases hnew ⊢
      exact ⟨new, hnew, .inr ⟨hnumber, hreleases⟩⟩
    · exact ⟨a, hold, .inl rfl⟩
  cases h with
  | started => exact absurd ⟨_, rfl⟩ hkind
  | completed hfind _ =>
    exact replaced hfind rfl fun hretry => by simp [ActivityAttempt.Retryable, completedAttempt] at hretry
  | failed _ hfind _ =>
    refine replaced hfind rfl fun hretry => .inl ?_
    obtain ⟨-, rfl, rfl⟩ := hretry
    exact ⟨_, rfl⟩
  | cancelled _ hfind _ =>
    exact replaced hfind rfl fun hretry => by simp [ActivityAttempt.Retryable, cancelledAttempt] at hretry
  | orphaned hempty =>
    rw [latestAttempt, hempty] at hlatest
    cases hlatest
  | quarantined hfind _ =>
    exact replaced hfind rfl fun hretry => by
      simp [ActivityAttempt.Retryable, quarantinedAttempt] at hretry
  | @reconciled _ resolution _ hfind _ =>
    cases resolution with
    | safeToRetry => exact replaced hfind rfl fun _ => .inr rfl
    | completed output =>
      exact replaced hfind rfl fun hretry => by
        simp [ActivityAttempt.Retryable, RunState.resolveAttempt] at hretry
    | cancelled =>
      exact replaced hfind rfl fun hretry => by
        simp [ActivityAttempt.Retryable, RunState.resolveAttempt] at hretry

/-- A last attempt that has completed is left alone. -/
theorem RecordStep.latest_completed (h : RecordStep version sequence id r kind r')
    (hlatest : r.latestAttempt = some a) (hstatus : a.status = .completed) :
    ¬ kind.Starts id ∧ r'.latestAttempt = some a := by
  have kept : ∀ {attempt : Nat} {found new : ActivityAttempt},
      r.findAttempt attempt = some found → found ≠ a →
        (r.setAttempt attempt new).latestAttempt = some a := by
    intro attempt found new hfind hne
    exact (latestAttempt_setAttempt hfind hlatest).resolve_left fun ⟨heq, _⟩ => hne heq
  have differs : ∀ {found : ActivityAttempt}, found.status ≠ .completed → found ≠ a := by
    rintro found hne rfl
    exact hne hstatus
  cases h with
  | started hretry =>
    rw [(hretry a hlatest).1] at hstatus
    cases hstatus
  | orphaned hempty =>
    rw [latestAttempt, hempty] at hlatest
    cases hlatest
  | completed hfind hrunning => exact ⟨by rintro ⟨_, ⟨⟩⟩, kept hfind (differs (by simp [hrunning]))⟩
  | failed _ hfind hrunning => exact ⟨by rintro ⟨_, ⟨⟩⟩, kept hfind (differs (by simp [hrunning]))⟩
  | cancelled _ hfind hrunning =>
    exact ⟨by rintro ⟨_, ⟨⟩⟩, kept hfind (differs (by simp [hrunning]))⟩
  | quarantined hfind hunsettled =>
    refine ⟨by rintro ⟨_, ⟨⟩⟩, kept hfind (differs ?_)⟩
    rcases hunsettled with hunsettled | hunsettled <;> simp [hunsettled]
  | reconciled hfind hawaits =>
    refine ⟨by rintro ⟨_, ⟨⟩⟩, ?_⟩
    rcases hawaits with hawaits | ⟨_, latest, -, hlatest', hne⟩
    · exact kept hfind (differs (by simp [hawaits]))
    · -- an attestation is made of a record whose last attempt has not completed
      rw [hlatest] at hlatest'
      cases hlatest'
      exact absurd hstatus hne

theorem RecordStep.completesLast (h : RecordStep version sequence id r kind r') (hs : r.Sensible id)
    (hdue : r.Due id kind) (hr : r.CompletesLast) : r'.CompletesLast := by
  cases h with
  | started hretry =>
    refine hr.push fun latest hlatest => ?_
    rw [(hretry latest hlatest).1]
    decide
  | completed hfind hrunning =>
    exact hr.set hfind fun i hi hlast _ => absurd hrunning (hs.superseded i _ hi hlast)
  | failed _ hfind _ => exact hr.set hfind fun _ _ _ _ => by simp [failedAttempt]
  | cancelled _ hfind _ => exact hr.set hfind fun _ _ _ _ => by simp [cancelledAttempt]
  | orphaned hempty =>
    refine hr.push fun latest hlatest => ?_
    rw [latestAttempt, hempty] at hlatest
    cases hlatest
  | quarantined hfind _ => exact hr.set hfind fun _ _ _ _ => by simp [quarantinedAttempt]
  | @reconciled attempt resolution found hfind _ =>
    refine hr.set hfind fun i hi hlast _ => ?_
    cases resolution with
    | completed output =>
      have hlatest := hdue attempt output rfl i found hi (attempt_of_find hfind)
      omega
    | safeToRetry => simp [RunState.resolveAttempt]
    | cancelled => simp [RunState.resolveAttempt]

/-- A record that an imported checkpoint may bring completes last. -/
theorem completesLast_of_validateActivityEntry (h : validateActivityEntry (id, r) = .ok ()) :
    r.CompletesLast := by
  simp only [validateActivityEntry, bind_eq_ok, exists_unit, firstRefusal_eq_ok, Prod.forall] at h
  intro i a ha hlast
  have hentry := h.2.2.2.2.2.2 a i (List.mem_zipIdx_iff_getElem?.mpr ha)
  simp only [validateAttemptEntry, bind_eq_ok, exists_unit, refuseIf_eq_ok, not_and, not_or,
    not_not] at hentry
  rw [(hentry.2.2.2.2 hlast).1]
  decide

end

end ActivityRecord

namespace RunState

variable {s t m : RunState} {e e₁ e₂ : RunEvent} {pre mid post : List RunEvent} {id : String}
  {r : ActivityRecord} {a : ActivityAttempt}

section
variable [Digest]

/-! ### Between two attempts -/

/-- An attempt that was just started is the last one. -/
theorem Accepts.starts {attempt : Nat} (hs : Logged s) (h : Accepts s e t)
    (hkind : e.kind = .activityAttemptStarted id attempt) :
    ∃ r a, s.projection.activities[id]? = some r ∧ r.MayRetry ∧
      t.projection.activities[id]? = some (r.pushAttempt a) ∧ a.attempt = attempt ∧
        a.status = .running := by
  obtain ⟨u, htransition, rfl⟩ := hs.transition h
  rw [hkind] at htransition
  cases htransition with
  | activityAttemptStarted _ _ hget hretry =>
    exact ⟨_, _, hget, hretry, BTreeMap.get_insert_self, rfl, rfl⟩

/-- What holds of the activity from a start of its attempt on: it has been released, or its last
attempt is still that one and cannot be repeated. -/
structure Unreleased (log : List RunEvent) (id : String) (attempt : Nat)
    (definition : ActivityDefinition) (s : RunState) : Prop where
  logged : Logged s
  record : ∃ r a, s.projection.activities[id]? = some r ∧ r.definition = definition ∧
    r.latestAttempt = some a ∧
      ((∃ e ∈ log, e.kind.Releases id attempt) ∨ (a.attempt = attempt ∧ ¬ a.Retryable))

omit [Digest] in
theorem retryable_of_mayRetry (hretry : r.MayRetry) (hlatest : r.latestAttempt = some a)
    (hclass : r.definition.sideEffectClass = .reconcileRequired) : a.Retryable := by
  obtain ⟨hstatus, hretryable, hsafe⟩ := hretry a hlatest
  refine ⟨hstatus, hretryable, ?_⟩
  simpa [retryIsSafe, hclass] using hsafe

variable {log : List RunEvent}

theorem Unreleased.step {attempt : Nat} {definition : ActivityDefinition}
    (hclass : definition.sideEffectClass = .reconcileRequired) (he : e ∈ log)
    (hrewind : ¬ e.kind.IsRewind) (h : Replays s e t) (hs : Unreleased log id attempt definition s) :
    Unreleased log id attempt definition t := by
  obtain ⟨hlogged, r, a, hget, hdefinition, hlatest, hstate⟩ := hs
  obtain ⟨u, htransition, rfl⟩ := hlogged.transition h.2
  refine ⟨.extended hlogged h, ?_⟩
  obtain ⟨r', hget', hstep⟩ := htransition.record hrewind hget
  rcases hstep with rfl | hstep
  · exact ⟨r', a, hget', hdefinition, hlatest, hstate⟩
  have hdefinition' := hstep.definition.trans hdefinition
  by_cases hstarts : e.kind.Starts id
  · -- the activity could only be started again if it was released
    generalize hkind : e.kind = kind at hstep hstarts
    cases hstep with
    | started hretry =>
      refine ⟨_, _, hget', hdefinition', latestAttempt_pushAttempt, .inl (hstate.resolve_right ?_)⟩
      rintro ⟨-, hnot⟩
      exact hnot (retryable_of_mayRetry hretry hlatest (by rw [hdefinition, hclass]))
    | _ => obtain ⟨_, ⟨⟩⟩ := hstarts
  · obtain ⟨a', hlatest', hkept⟩ := hstep.latest hstarts hlatest
    refine ⟨r', a', hget', hdefinition', hlatest', ?_⟩
    rcases hkept with rfl | ⟨hnumber, hreleases⟩
    · exact hstate
    · rcases hstate with hreleased | ⟨rfl, -⟩
      · exact .inl hreleased
      · by_cases hretry : a'.Retryable
        · exact .inl ⟨e, he, hreleases hretry⟩
        · exact .inr ⟨hnumber, hretry⟩

/-- **An unsafe activity is released before it is started again.** Between two starts of it on
one branch the log holds a release of the first attempt, and what the second start follows is a
failure that may be retried and left no effect. -/
theorem Reachable.released_before_restart {attempt next : Nat} (hs : Reachable s)
    (hlog : s.events = pre ++ e₁ :: (mid ++ e₂ :: post))
    (hstart : e₁.kind = .activityAttemptStarted id attempt)
    (hnext : e₂.kind = .activityAttemptStarted id next) (hrewind : ∀ e ∈ mid, ¬ e.kind.IsRewind)
    (hm : RunState.fromEvents pre = .ok m) (hget : m.projection.activities[id]? = some r)
    (hclass : r.definition.sideEffectClass = .reconcileRequired) :
    (∃ e ∈ mid, e.kind.Releases id attempt) ∧
      ∃ u r' a, RunState.fromEvents (pre ++ e₁ :: mid) = .ok u ∧ u.projection.activities[id]? = some r' ∧
        r'.latestAttempt = some a ∧ a.Retryable := by
  obtain ⟨hlogged, -, hpath⟩ := hs.logged.path hlog hm
  have hcut : Path Replays m ([e₁] ++ (mid ++ e₂ :: post)) s := hpath
  obtain ⟨v, hfirst, hpath⟩ := hcut.exists_mid
  obtain ⟨u, hmid, hpath⟩ := hpath.exists_mid
  cases hpath with
  | cons h₂ _ =>
  cases hfirst with
  | cons h₁ hnil =>
  cases hnil
  obtain ⟨r₁, a₁, hget₁, -, hget₂, hnumber, hstatus⟩ := h₁.2.starts hlogged hstart
  rw [hget] at hget₁
  cases hget₁
  have hunreleased : Unreleased mid id attempt r.definition v :=
    ⟨.extended hlogged h₁, _, a₁, hget₂, rfl, latestAttempt_pushAttempt,
      .inr ⟨hnumber, by simp [ActivityAttempt.Retryable, hstatus]⟩⟩
  obtain ⟨hu, r', a, hget', hdefinition, hlatest, hstate⟩ :=
    hmid.invariant (fun _ e _ he h hx => hx.step hclass he (hrewind e he) h) hunreleased
  obtain ⟨r₂, _, hget₂, hretry, -⟩ := h₂.2.starts hu hnext
  rw [hget'] at hget₂
  cases hget₂
  have hretryable := retryable_of_mayRetry hretry hlatest (by rw [hdefinition, hclass])
  exact ⟨hstate.resolve_right fun h => h.2 hretryable, u, r', a,
    fromEvents_append_path hm (.cons h₁ hmid), hget', hlatest, hretryable⟩

/-- The attempt of an unsafe activity is quarantined, released by an operator, and repeated. -/
def releasedLog : List RunEvent :=
  logOf "r" [("1", .runStarted "s" .sync "b"),
    ("2", .activityScheduled
      ⟨"a", "step", "key", .null, stableInputHash .null, .reconcileRequired, none⟩),
    ("3", .activityAttemptStarted "a" 1),
    ("4", .activityReconciliationRequired "a" 1 "worker lost"),
    ("5", .activityReconciled "a" 1 .safeToRetry),
    ("6", .runResumed),
    ("7", .activityAttemptStarted "a" 2)]

omit [Digest] in
/-- The log is accepted, and the activity is scheduled as an unsafe one. -/
theorem accepts_releasedLog :
    ∃ s, @fromEvents sha256 (@releasedLog sha256) = .ok s ∧ s.events = @releasedLog sha256 ∧
      ∃ m, @fromEvents sha256 ((@releasedLog sha256).take 2) = .ok m ∧
        ∃ r, m.projection.activities["a"]? = some r ∧ r.definition.sideEffectClass = .reconcileRequired := by
  rw [sha256_eq_quick]
  decide +kernel

omit [Digest] in
/-- Between the two attempts of that log lies the operator's release. -/
theorem released_before_restart_releasedLog :
    ∃ e ∈ (@releasedLog sha256).extract 3 6, e.kind.Releases "a" 1 := by
  obtain ⟨s, hs, hevents, m, hm, r, hr, hclass⟩ := accepts_releasedLog
  have hlog : s.events = (@releasedLog sha256).take 2 ++
      ⟨durabilitySchemaVersion, "r", 3, "3", .activityAttemptStarted "a" 1⟩ ::
        ((@releasedLog sha256).extract 3 6 ++
          ⟨durabilitySchemaVersion, "r", 7, "7", .activityAttemptStarted "a" 2⟩ :: []) := by
    rw [hevents]
    rfl
  have hrewind : ∀ e ∈ (@releasedLog sha256).extract 3 6, ¬ e.kind.IsRewind := by
    simp [releasedLog, logOf, RunEventKind.IsRewind]
  let inst : Digest := sha256
  exact (Reachable.released_before_restart (.fromEvents hs) hlog rfl rfl hrewind hm hr hclass).1

/-! ### After a completion -/

/-- Every completion that the log reconciles is of the activity's last attempt at the time. -/
def DulyReconciled (log : List RunEvent) : Prop :=
  ∀ (front back : List RunEvent) (e : RunEvent) (m : RunState) (id : String) (r : ActivityRecord),
    log = front ++ e :: back → fromEvents front = .ok m →
      m.projection.activities[id]? = some r → r.Due id e.kind

theorem DulyReconciled.front {more : List RunEvent} (h : DulyReconciled (log ++ more)) :
    DulyReconciled log := by
  intro front back e m id r hlog
  exact h front (back ++ more) e m id r (by rw [hlog, List.append_assoc, List.cons_append])

theorem Logged.completesLast (hs : Logged s) (hdue : DulyReconciled s.events) :
    s.Satisfies fun _ => CompletesLast := by
  induction hs with
  | opened ho h =>
    exact (ho.opened h.2).satisfies fun _ _ hvalid _ => completesLast_of_validateActivityEntry hvalid
  | @extended s t e hs h ih =>
    rw [h.2.events] at hdue
    obtain ⟨u, htransition, rfl⟩ := hs.transition h.2
    refine (htransition.satisfies (fun _ _ _ _ _ => fun i a ha => by cases ha) ?_
      (ih hdue.front)).pushEvent
    intro id r r' hget hr hstep
    exact hstep.completesLast (hs.sensible.current id r hget)
      (hdue s.events [] e s id r rfl hs.fromEvents hget) hr

/-- On its branch, a completed last attempt stays the last one. -/
theorem latest_completed_of_path (h : Path Replays s log t) (hs : Logged s)
    (hrewind : ∀ e ∈ log, ¬ e.kind.IsRewind) (hget : s.projection.activities[id]? = some r)
    (hlatest : r.latestAttempt = some a) (hstatus : a.status = .completed) :
    (∀ e ∈ log, ¬ e.kind.Starts id) ∧
      ∃ r', t.projection.activities[id]? = some r' ∧ r'.latestAttempt = some a := by
  induction h generalizing r with
  | nil => exact ⟨fun e he => (List.not_mem_nil he).elim, r, hget, hlatest⟩
  | @cons s m t e log h _ ih =>
    obtain ⟨u, htransition, rfl⟩ := hs.transition h.2
    have htail := fun e' he' => hrewind e' (List.mem_cons_of_mem _ he')
    have hkind := hrewind e List.mem_cons_self
    obtain ⟨r', hget', hstep⟩ := htransition.record hkind hget
    have hkept : ¬ e.kind.Starts id ∧ r'.latestAttempt = some a := by
      rcases hstep with rfl | hstep
      · refine ⟨?_, hlatest⟩
        rintro ⟨attempt, hstarts⟩
        obtain ⟨r₁, _, hget₁, hretry, -⟩ := h.2.starts hs hstarts
        rw [hget] at hget₁
        cases hget₁
        rw [(hretry a hlatest).1] at hstatus
        cases hstatus
      · exact hstep.latest_completed hlatest hstatus
    obtain ⟨hrest, hend⟩ := ih (.extended hs h) htail hget' hkept.2
    refine ⟨fun e' he' => ?_, hend⟩
    rcases List.mem_cons.mp he' with rfl | he'
    · exact hkept.1
    · exact hrest e' he'

/-- **A completed activity stays completed on its branch**, in a log whose reconciled
completions are all due: it is not started again, it keeps its completed attempt and gets no
other, and its output is the same. -/
theorem Reachable.stays_completed (ht : Reachable t) (hlog : t.events = pre ++ post)
    (hdue : DulyReconciled t.events) (hrewind : ∀ e ∈ post, ¬ e.kind.IsRewind)
    (hs : RunState.fromEvents pre = .ok s) (hget : s.projection.activities[id]? = some r)
    (hcompleted : r.completedAttempts ≠ []) :
    (∀ e ∈ post, ¬ e.kind.Starts id) ∧
      ∃ r', t.projection.activities[id]? = some r' ∧ r.StaysCompleted r' := by
  obtain ⟨hlogged, hpre, hpath⟩ := ht.logged.path hlog hs
  have hfront : DulyReconciled s.events := by
    rw [hlog] at hdue
    exact hpre ▸ hdue.front
  have hr := (hlogged.completesLast hfront).current id r hget
  obtain ⟨a, hlatest, hstatus⟩ := hr.latestAttempt hcompleted
  obtain ⟨hstarts, r', hget', hlatest'⟩ :=
    latest_completed_of_path hpath hlogged hrewind hget hlatest hstatus
  have hr' := (ht.logged.completesLast hdue).current id r' hget'
  refine ⟨hstarts, r', hget', ?_⟩
  have hone := hr.completedAttempts_eq hlatest hstatus
  have hone' := hr'.completedAttempts_eq hlatest' hstatus
  exact ⟨hone'.trans hone.symm, by rw [hone, List.length_singleton],
    by rw [completedOutput_eq, completedOutput_eq, hone, hone']⟩

/-- A log without a reconciled completion is duly reconciled. -/
theorem dulyReconciled_of_forall
    (h : ∀ e ∈ log, ∀ id attempt output, e.kind ≠ .activityReconciled id attempt (.completed output)) :
    DulyReconciled log := by
  rintro front back e m id r rfl - - attempt output hkind
  exact absurd hkind (h e (by simp) id attempt output)

/-- An activity completes, and the run is paused. -/
def completedLog : List RunEvent :=
  logOf "r" [("1", .runStarted "s" .sync "b"),
    ("2", .activityScheduled ⟨"a", "step", "key", .null, stableInputHash .null, .pure, none⟩),
    ("3", .activityAttemptStarted "a" 1),
    ("4", .activityAttemptCompleted "a" 1 .null (stableInputHash .null)),
    ("5", .runPaused "for the night")]

omit [Digest] in
/-- The log is accepted, and the activity has completed before the run is paused. -/
theorem accepts_completedLog :
    ∃ t, @fromEvents sha256 (@completedLog sha256) = .ok t ∧ t.events = @completedLog sha256 ∧
      ∃ s, @fromEvents sha256 ((@completedLog sha256).take 4) = .ok s ∧
        ∃ r, s.projection.activities["a"]? = some r ∧ r.completedAttempts ≠ [] := by
  rw [sha256_eq_quick]
  decide +kernel

omit [Digest] in
/-- A completed activity is not started while its run is paused. -/
theorem stays_completed_completedLog :
    ∃ t, @Reachable sha256 t ∧ ∀ e ∈ (@completedLog sha256).drop 4, ¬ e.kind.Starts "a" := by
  obtain ⟨t, ht, hevents, s, hs, r, hr, hcompleted⟩ := accepts_completedLog
  let inst : Digest := sha256
  have hlog : t.events = completedLog.take 4 ++ completedLog.drop 4 := by
    rw [List.take_append_drop, hevents]
  have ht : Reachable t := .fromEvents ht
  have hdue : DulyReconciled t.events := by
    rw [hevents]
    exact dulyReconciled_of_forall (by simp [completedLog, logOf])
  have hrewind : ∀ e ∈ completedLog.drop 4, ¬ e.kind.IsRewind := by
    simp [completedLog, logOf, RunEventKind.IsRewind]
  exact ⟨t, ht, (Reachable.stays_completed ht hlog hdue hrewind hs hr hcompleted).1⟩

/-- What would hold of a completed activity if every reconciled completion were due. -/
def CompletesOnce : Prop :=
  ∀ (s t : RunState) (pre post : List RunEvent) (id : String) (r : ActivityRecord),
    Reachable t → t.events = pre ++ post → (∀ e ∈ post, ¬ e.kind.IsRewind) →
      fromEvents pre = .ok s → s.projection.activities[id]? = some r → r.completedAttempts ≠ [] →
        (∀ e ∈ post, ¬ e.kind.Starts id) ∧
          ∃ r', t.projection.activities[id]? = some r' ∧ r.StaysCompleted r'

/-- While the second attempt runs, an operator enters that the first one had completed. -/
def supersededLog : List RunEvent :=
  logOf "r" [("1", .runStarted "s" .sync "b"),
    ("2", .activityScheduled ⟨"a", "step", "key", .null, stableInputHash .null, .pure, none⟩),
    ("3", .activityAttemptStarted "a" 1),
    ("4", .activityAttemptFailed "a" 1 "boom" true false),
    ("5", .activityAttemptStarted "a" 2),
    ("6", .activityReconciliationRequired "a" 1 "did the first attempt do it?"),
    ("7", .activityReconciled "a" 1 (.completed (.bool true)))]

/-- The second attempt completes as well. -/
def supersededEnd : List RunEvent :=
  [⟨durabilitySchemaVersion, "r", 8, "8",
    .activityAttemptCompleted "a" 2 .null (stableInputHash .null)⟩]

omit [Digest] in
/-- The activity has completed in the first log, and again in the whole one. -/
theorem accepts_supersededLog :
    ∃ t, @fromEvents sha256 (@supersededLog sha256 ++ @supersededEnd sha256) = .ok t ∧
      t.events = @supersededLog sha256 ++ @supersededEnd sha256 ∧
      ∃ s, @fromEvents sha256 (@supersededLog sha256) = .ok s ∧
        (∃ r, s.projection.activities["a"]? = some r ∧ r.completedAttempts.length = 1) ∧
        ∃ r, t.projection.activities["a"]? = some r ∧ r.completedAttempts.length = 2 := by
  rw [sha256_eq_quick]
  decide +kernel

omit [Digest] in
/-- An activity whose first attempt is reconciled late completes twice. -/
theorem not_completesOnce : ¬ @CompletesOnce sha256 := by
  intro hclaim
  obtain ⟨t, ht, hevents, s, hs, ⟨r, hr, hone⟩, r', hr', htwo⟩ := accepts_supersededLog
  let inst : Digest := sha256
  have hrewind : ∀ e ∈ supersededEnd, ¬ e.kind.IsRewind := by
    intro e he
    rw [supersededEnd, List.mem_singleton] at he
    subst he
    rintro ⟨_, _, _, ⟨⟩⟩
  obtain ⟨-, r₁, hr₁, hsame, -⟩ := hclaim s t _ _ "a" r (.fromEvents ht) hevents hrewind hs hr
    (List.ne_nil_of_length_pos (by omega))
  rw [hr'] at hr₁
  cases hr₁
  rw [hsame] at htwo
  omega

end

end RunState

end AikitRuntime.Durability
