import AikitRuntime.Durability.Acknowledgements
import AikitRuntime.Durability.Scheduling

/-!
# Which calls fail without a trace

Most operations emit one event at most, or work on a clone, and then a failure leaves the
run as it was. Three emit two events on the run itself: `prepare_activity` schedules and
starts, or interrupts and starts again; `fail_activity` records a failure and quarantines,
or records it and starts again; `cancel_activity` may end as a failure. When the second
event is refused the first one stays: the call strands the run half way. `Strands` says
when, from the run before the call.
-/

namespace AikitRuntime.Durability

open Library Method ActivityRecord

section
variable [Digest]

namespace RunState

variable {s t m : RunState} {id : String} {attempt : Nat} {α : Type}

/-! ### When a second event is refused -/

/-- The event is accepted next under that identity. -/
def Admits (s : RunState) (eventId : String) (kind : RunEventKind) : Prop :=
  ∃ t, Accepts s (s.nextEvent eventId kind) t

/-- Starting the activity's next attempt is refused, right after the event `lastId`: the
counter is full, or the start is not in the log already and the run does not execute, work
has ended, or the identity of the start is taken. -/
def StartBlocked (s : RunState) (id : String) (lastId : String) : Prop :=
  2 ^ 32 ≤ s.preparedAttempt id ∨
    (¬ s.RecordsStart id (s.preparedAttempt id) ∧
      (s.projection.status ≠ .running ∨ s.HasTerminalMarker ∨
        s.HasEvent (attemptEventId id (s.preparedAttempt id) "started") ∨
        attemptEventId id (s.preparedAttempt id) "started" = lastId))

variable {eventId : String} {kind : RunEventKind}

theorem not_admits_and {P : Prop} :
    ¬ (s.Admits eventId kind ∧ P) ↔ ∀ m, Accepts s (s.nextEvent eventId kind) m → ¬ P := by
  unfold Admits
  rw [not_and, forall_exists_index]

/-- The message of an interruption. -/
def interruption : String := "worker interrupted before completion was committed"

/-- Deciding on the activity interrupts its running attempt, and cannot start the next. -/
def DecideStrands (s : RunState) (id : String) : Prop :=
  ∃ r latest, s.projection.activities[id]? = some r ∧ r.completedOutput = none ∧
    r.latestAttempt = some latest ∧ latest.status = .running ∧
    retryIsSafe r.definition true = true ∧
    s.Admits (attemptEventId id latest.attempt "interrupted")
      (.activityAttemptFailed id latest.attempt interruption true true) ∧
    s.StartBlocked id (attemptEventId id latest.attempt "interrupted")

/-- Preparing schedules a new activity whose first start is refused, or decides on one that was
scheduled before and is stranded there. -/
def PrepareStrands (s : RunState) (stableStepId logicalKey : String) (input : Value)
    (sideEffectClass : SideEffectClass) (idempotencyKey : Option String) : Prop :=
  let definition := s.newDefinition stableStepId logicalKey input sideEffectClass idempotencyKey
  let startedId := attemptEventId definition.activityId 1 "started"
  let scheduledId := stableIdentifier "event" [definition.activityId, "scheduled"]
  ValidIdentifier stableStepId ∧ ValidIdentifier logicalKey ∧ s.projection.status = .running ∧
    match s.findActivity stableStepId logicalKey with
    | none => definition.lacksIdempotencyKey = false ∧
        ((s.Admits scheduledId (.activityScheduled definition) ∧
            ¬ s.RecordsStart definition.activityId 1 ∧
              (s.HasEvent startedId ∨ startedId = scheduledId)) ∨
          (s.Records scheduledId (.activityScheduled definition) ∧
            s.DecideStrands definition.activityId))
    | some record => checkSameContract record.definition (stableInputHash input) sideEffectClass
        idempotencyKey = .ok () ∧ s.DecideStrands record.definition.activityId

/-- A failure is recorded, and the quarantine or the restart after it is refused. A failure
that was recorded before goes on to the decision, and may be stranded there. -/
def FailStrands (s : RunState) (id : String) (attempt : Nat) (error : String)
    (retryable effectAmbiguous : Bool) : Prop :=
  let failedId := attemptEventId id attempt "failed"
  let quarantineId := attemptEventId id attempt "reconcile_required"
  let failed := RunEventKind.activityAttemptFailed id attempt error retryable effectAmbiguous
  s.projection.status.isTerminal = false ∧
    ∃ r, s.projection.activities[id]? = some r ∧ isReservedAuditActivity r = false ∧
      if effectAmbiguous = true ∧ retryIsSafe r.definition true = false then
        s.Admits failedId failed ∧ ¬ s.Records quarantineId
            (.activityReconciliationRequired id attempt s!"activity failed ambiguously: {error}") ∧
          (s.HasEvent quarantineId ∨ quarantineId = failedId)
      else retryable = true ∧
        ((s.Admits failedId failed ∧ r.completedOutput = none ∧ s.StartBlocked id failedId) ∨
          (s.Records failedId failed ∧ s.DecideStrands id))

/-- The calls that fail half way, from the run before them. -/
def Strands (s : RunState) : Call → Prop
  | .typed (.prepareActivity stableStepId logicalKey input sideEffectClass idempotencyKey) =>
    s.PrepareStrands stableStepId logicalKey input sideEffectClass idempotencyKey
  | .typed (.failActivity id attempt error retryable effectAmbiguous) =>
    s.FailStrands id attempt error retryable effectAmbiguous
  | .typed (.cancelActivity id attempt reason effectAmbiguous) =>
    effectAmbiguous = true ∧ s.FailStrands id attempt reason false true
  | _ => False

/-! ### Failing at an event -/

/-- The call fails. -/
def Fails (call : RunMethod α) (s : RunState) : Prop := ∃ error t, call.run s = .error error t

variable {call : RunMethod α}

omit [Digest] in
theorem fails_iff : Fails call s ↔ ∀ a t, call.run s ≠ .ok a t := by
  unfold Fails
  cases call.run s with
  | ok a t => simp
  | error error t => simp

variable {e : RunEvent}

theorem Accepts.hasEvent_iff (h : Accepts s e t) :
    t.HasEvent eventId ↔ s.HasEvent eventId ∨ eventId = e.eventId := by
  unfold HasEvent
  rw [h.events]
  constructor
  · rintro ⟨e', he', hid⟩
    rcases List.mem_append.mp he' with hold | hnew
    · exact .inl ⟨e', hold, hid⟩
    · rw [List.mem_singleton] at hnew
      exact .inr (hnew ▸ hid.symm)
  · rintro (⟨e', he', hid⟩ | rfl)
    · exact ⟨e', List.mem_append_left _ he', hid⟩
    · exact ⟨e, by simp, rfl⟩

theorem Accepts.ne (h : Accepts s e t) : t ≠ s := by
  intro hts
  have hevents := h.events
  rw [hts] at hevents
  simpa using congrArg List.length hevents

/-- An event is refused when it is not in the log and is not accepted. -/
theorem emit_fails_iff (hs : Logged s)
    (hid : ValidIdentifier eventId) :
    Fails (emit eventId kind) s ↔ ¬ s.Records eventId kind ∧ ¬ s.Admits eventId kind := by
  rw [fails_iff]
  constructor
  · intro h
    refine ⟨?_, ?_⟩
    · rintro ⟨e, he, rfl, hkind⟩
      exact h _ s (run_emit_eq_ok.mpr (.inl ⟨e, hid, hs.eventById he, hkind, rfl, rfl⟩))
    · rintro ⟨t, ht⟩
      exact h _ t (run_emit_eq_ok.mpr (.inr ⟨ht, rfl⟩))
  · rintro ⟨hrecords, hadmits⟩ outcome t hrun
    rcases of_run_emit hrun with ⟨hold, -⟩ | haccepts
    · exact hrecords hold
    · exact hadmits ⟨t, haccepts⟩

/-- Two steps fail without a trace when the second never fails behind an accepted first, and
fails without a trace behind one that was in the log. -/
theorem emit_bind_failsClean_iff {rest : RunMethod α}
    (hs : Logged s) (hid : ValidIdentifier eventId)
    (hrest : ∀ m, Accepts s (s.nextEvent eventId kind) m → FailsClean rest m) :
    FailsClean (emit eventId kind >>= fun _ => rest) s ↔
      (∀ m, Accepts s (s.nextEvent eventId kind) m → ¬ Fails rest m) ∧
        (s.Records eventId kind → FailsClean rest s) := by
  constructor
  · intro h
    refine ⟨?_, ?_⟩
    · rintro m hm ⟨error, u, hrun⟩
      have hclean := hrest m hm error u hrun
      have hbind := run_bind_ok (f := fun _ => rest) (run_emit_eq_ok.mpr (.inr ⟨hm, rfl⟩))
      rw [hrun, hclean] at hbind
      exact hm.ne (h error m hbind)
    · rintro ⟨e, he, rfl, hkind⟩ error u hrun
      have hdup := run_emit_eq_ok.mpr (.inl ⟨e, hid, hs.eventById he, hkind, rfl, rfl⟩)
      exact h error u ((run_bind_ok hdup).trans hrun)
  · rintro ⟨haccepted, hrecorded⟩
    refine .bind emit_failsClean fun outcome m hemit error u hrun => ?_
    rcases of_run_emit hemit with ⟨hrecords, rfl⟩ | haccepts
    · exact hrecorded hrecords error u hrun
    · exact absurd ⟨error, u, hrun⟩ (haccepted m haccepts)

/-- One event, and an answer. -/
theorem emit_pure_failsClean {f : AppendOutcome → α} :
    FailsClean (emit eventId kind >>= fun outcome => pure (f outcome)) s :=
  .bind emit_failsClean fun _ _ _ _ _ h => by cases h

/-! ### Starting the next attempt -/

theorem startNextAttempt_failsClean : FailsClean (startNextAttempt id) s :=
  .read_bind <| .check_bind fun _ _ => .check_bind fun _ _ => emit_pure_failsClean

variable {reason : String}

theorem quarantine_failsClean : FailsClean (quarantine id attempt reason) s :=
  emit_pure_failsClean

/-- What the acceptance of a start requires. -/
theorem Accepts.start (hs : Logged s)
    (h : Accepts s (s.nextEvent eventId (.activityAttemptStarted id attempt)) t) :
    s.projection.status = .running ∧ s.checkV2Start id = .ok () := by
  obtain ⟨u, htransition, -⟩ := hs.transition h
  cases htransition with
  | activityAttemptStarted hrunning hcheck _ _ =>
    have hversion : ¬ beforeV2 durabilitySchemaVersion = true := by decide
    exact ⟨hrunning, hcheck.resolve_left hversion⟩

variable {r : ActivityRecord}

/-- When the start of the next attempt is accepted. -/
theorem admits_start_iff (hs : Logged s)
    (hget : s.projection.activities[id]? = some r) (hretry : r.MayRetry)
    (hcounter : r.attempts.length + 1 < 2 ^ 32) :
    s.Admits (attemptEventId id (r.attempts.length + 1) "started")
        (.activityAttemptStarted id (r.attempts.length + 1)) ↔
      s.projection.status = .running ∧ s.checkV2Start id = .ok () ∧
        ¬ s.HasEvent (attemptEventId id (r.attempts.length + 1) "started") := by
  have hnext : r.nextAttempt = r.attempts.length + 1 := by
    unfold nextAttempt
    omega
  constructor
  · rintro ⟨t, ht⟩
    exact ⟨(ht.start hs).1, (ht.start hs).2, ht.fresh⟩
  · rw [← hnext]
    rintro ⟨hrunning, hcheck, hfresh⟩
    exact ⟨_, .of_transition hs.events_ne_nil attemptEventId_valid rfl hfresh rfl
      (.activityAttemptStarted hrunning (.inr hcheck) hget hretry)⟩

theorem startNextAttempt_fails_iff (hs : Logged s)
    (hget : s.projection.activities[id]? = some r) (hretry : r.MayRetry) :
    Fails (startNextAttempt id) s ↔
      2 ^ 32 ≤ s.preparedAttempt id ∨
        (¬ s.RecordsStart id (s.preparedAttempt id) ∧
          (s.projection.status ≠ .running ∨ s.checkV2Start id ≠ .ok () ∨
            s.HasEvent (attemptEventId id (s.preparedAttempt id) "started"))) := by
  rw [preparedAttempt_of_get hget, fails_iff]
  by_cases hcounter : 2 ^ 32 ≤ r.attempts.length + 1
  · simp only [hcounter, true_or, iff_true]
    intro decision t hrun
    unfold startNextAttempt at hrun
    simp only [run_read_bind, run_check_bind_eq_ok, id_eq, activity_eq_ok, refuseIf_eq_ok] at hrun
    obtain ⟨r', hget', -, hless, -⟩ := hrun
    rw [hget] at hget'
    cases hget'
    exact hless hcounter
  · have hrun : (∀ decision t, (startNextAttempt id).run s ≠ .ok decision t) ↔
        Fails (emit (attemptEventId id (r.attempts.length + 1) "started")
          (.activityAttemptStarted id (r.attempts.length + 1))) s := by
      rw [fails_iff]
      unfold startNextAttempt
      simp only [run_read_bind, id_eq, activity, hget, okOr_some, run_check_bind_ok,
        refuseIf_of_not hcounter, ne_eq, run_bind_eq_ok]
      exact ⟨fun h outcome t hemit => h _ t ⟨outcome, t, hemit, rfl⟩,
        fun h decision t ⟨outcome, u, hemit, _⟩ => h outcome u hemit⟩
    rw [hrun, emit_fails_iff hs attemptEventId_valid,
      admits_start_iff hs hget hretry (Nat.not_le.mp hcounter)]
    simp only [hcounter, false_or, RecordsStart, not_and_or, ne_eq, not_not]

/-! ### Starting again behind a failure -/

variable {effectAmbiguous retryable : Bool} {error : String}

/-- What the acceptance of a failure requires, and does. -/
theorem Accepts.failed (hs : Logged s)
    (h : Accepts s (s.nextEvent eventId
      (.activityAttemptFailed id attempt error retryable effectAmbiguous)) t) :
    ∃ r found u, s.projection.activities[id]? = some r ∧ r.findAttempt attempt = some found ∧
      found.status = .running ∧ isReservedAuditActivity r = false ∧
      s.projection.status.isTerminal = false ∧
      u = s.withActivity id (r.setAttempt attempt
        (failedAttempt found s.nextSequence error retryable effectAmbiguous)) ∧
      t = u.pushEvent (s.nextEvent eventId
        (.activityAttemptFailed id attempt error retryable effectAmbiguous)) := by
  obtain ⟨u, htransition, ht⟩ := hs.transition h
  cases htransition with
  | activityAttemptFailed hactive hcheck hget hfind hstatus =>
    have hversion : ¬ beforeV2 durabilitySchemaVersion = true := by decide
    exact ⟨_, _, _, hget, hfind, hstatus, hcheck.resolve_left hversion, hactive, rfl, ht⟩

omit [Digest] in
/-- Writing an attempt of a known activity adds no terminal marker. -/
theorem hasTerminalMarker_withActivity {r' : ActivityRecord}
    (hget : s.projection.activities[id]? = some r) (hdefinition : r'.definition = r.definition) :
    (s.withActivity id r').HasTerminalMarker ↔ s.HasTerminalMarker := by
  have hmarker : isTerminalMarker r' = isTerminalMarker r := by
    unfold isTerminalMarker
    rw [hdefinition, isReservedAuditActivity_congr hdefinition]
  unfold HasTerminalMarker withActivity
  rw [BTreeMap.any_values, BTreeMap.any_values]
  constructor
  · rintro ⟨a, x, hx, hm⟩
    rcases BTreeMap.get_insert_eq_some hx with ⟨rfl, rfl⟩ | ⟨-, hold⟩
    · exact ⟨id, r, hget, hmarker ▸ hm⟩
    · exact ⟨a, x, hold, hm⟩
  · rintro ⟨a, x, hx, hm⟩
    by_cases hid : id = a
    · subst hid
      rw [hget] at hx
      cases hx
      exact ⟨id, r', BTreeMap.get_insert_self, hmarker.trans hm⟩
    · exact ⟨a, x, by rw [BTreeMap.get_insert_of_ne hid]; exact hx, hm⟩

/-- An ordinary activity may start unless work has ended. -/
theorem checkV2Start_eq_ok (hget : s.projection.activities[id]? = some r)
    (hordinary : isReservedAuditActivity r = false) :
    s.checkV2Start id = .ok () ↔ ¬ s.HasTerminalMarker := by
  simp [checkV2Start, activity, hget, hordinary, validateReservedAuditAttemptStart,
    HasTerminalMarker]

/-- Behind an accepted failure that may be retried, the next start is refused as the run before
it says. -/
theorem Accepts.startNextAttempt_fails_iff (hs : Logged s)
    (h : Accepts s (s.nextEvent eventId
      (.activityAttemptFailed id attempt error true effectAmbiguous)) t)
    (hget : s.projection.activities[id]? = some r)
    (hsafe : retryIsSafe r.definition effectAmbiguous = true) :
    Fails (startNextAttempt id) t ↔ s.StartBlocked id eventId := by
  have ht := hs.emits (.of_nextEvent h)
  obtain ⟨r', found, u, hget', hfind, hstatus, hordinary, -, hu, htu⟩ := h.failed hs
  rw [hget] at hget'
  cases hget'
  have hgetT : t.projection.activities[id]? = some (r.setAttempt attempt
      (failedAttempt found s.nextSequence error true effectAmbiguous)) := by
    rw [htu, hu]
    exact BTreeMap.get_insert_self
  have hstatusT : t.projection.status = s.projection.status := by
    rw [htu, hu]
    rfl
  have hmarkerT : t.HasTerminalMarker ↔ s.HasTerminalMarker := by
    rw [htu, hu]
    exact hasTerminalMarker_withActivity hget rfl
  have hattemptT : t.preparedAttempt id = s.preparedAttempt id := by
    rw [preparedAttempt_of_get hgetT, preparedAttempt_of_get hget, length_setAttempt]
  have hretry : (r.setAttempt attempt
      (failedAttempt found s.nextSequence error true effectAmbiguous)).MayRetry := by
    intro previous hprevious
    rw [((hs.sensible.current id r hget).latestAttempt hfind hstatus).2] at hprevious
    cases hprevious
    exact ⟨rfl, rfl, hsafe⟩
  rw [RunState.startNextAttempt_fails_iff ht hgetT hretry, hattemptT, hstatusT,
    h.hasEvent_iff, ne_eq (t.checkV2Start id), checkV2Start_eq_ok hgetT hordinary, not_not,
    hmarkerT]
  unfold StartBlocked RecordsStart
  rw [h.records_iff (fun hkind => by cases hkind)]
  rfl

/-! ### The calls that emit two events -/

theorem decideStrands_iff (hget : s.projection.activities[id]? = some r) :
    s.DecideStrands id ↔ r.completedOutput = none ∧ ∃ latest, r.latestAttempt = some latest ∧
      latest.status = .running ∧ retryIsSafe r.definition true = true ∧
      s.Admits (attemptEventId id latest.attempt "interrupted")
        (.activityAttemptFailed id latest.attempt interruption true true) ∧
      s.StartBlocked id (attemptEventId id latest.attempt "interrupted") := by
  constructor
  · rintro ⟨r', latest, hget', hnone, h⟩
    rw [hget] at hget'
    cases hget'
    exact ⟨hnone, latest, h⟩
  · rintro ⟨hnone, latest, h⟩
    exact ⟨r, latest, hget, hnone, h⟩

/-- Interrupting and starting again. -/
theorem interrupt_failsClean_iff (hs : Logged s)
    (hget : s.projection.activities[id]? = some r) (hsafe : retryIsSafe r.definition true = true) :
    FailsClean (emit (attemptEventId id attempt "interrupted")
        (.activityAttemptFailed id attempt interruption true true) >>= fun _ =>
          startNextAttempt id) s ↔
      ¬ (s.Admits (attemptEventId id attempt "interrupted")
          (.activityAttemptFailed id attempt interruption true true) ∧
        s.StartBlocked id (attemptEventId id attempt "interrupted")) := by
  rw [emit_bind_failsClean_iff hs attemptEventId_valid fun _ _ => startNextAttempt_failsClean,
    not_admits_and]
  simp only [startNextAttempt_failsClean, implies_true, and_true]
  refine forall_congr' fun m => imp_congr_right fun hm => ?_
  rw [hm.startNextAttempt_fails_iff hs hget hsafe]

theorem decideActivity_failsClean_iff (hs : Logged s) :
    FailsClean (decideActivity id) s ↔ ¬ s.DecideStrands id := by
  cases hget : s.projection.activities[id]? with
  | none =>
    refine iff_of_true (.read_bind <| .check_bind fun r hr => ?_) ?_
    · rw [id_eq, activity_eq_ok, hget] at hr
      cases hr
    · rintro ⟨r, _, hget', -⟩
      rw [hget] at hget'
      cases hget'
  | some r =>
    rw [decideStrands_iff hget]
    unfold decideActivity FailsClean
    simp only [run_read_bind, id_eq, activity, hget, okOr_some, run_check_bind_ok]
    split
    · next output hcompleted =>
      exact iff_of_true (FailsClean.pure _) (by simp [hcompleted])
    · next hnone hlatest =>
      exact iff_of_true startNextAttempt_failsClean (by simp [hlatest])
    · next latest hnone hlatest =>
      simp only [hnone, hlatest, true_and, Option.some.injEq, exists_eq_left']
      split
      · next hrunning =>
        simp only [hrunning, true_and]
        split
        · next hsafe =>
          simp only [hsafe, true_and]
          exact interrupt_failsClean_iff hs hget hsafe
        · next hrisky => exact iff_of_true quarantine_failsClean (by simp [hrisky])
      · next hfailed =>
        refine iff_of_true ?_ (by simp [hfailed])
        split
        · exact FailsClean.pure _
        · split
          · exact quarantine_failsClean
          · exact startNextAttempt_failsClean
      · next hother => exact iff_of_true (FailsClean.pure _) (by simp [hother])
      · next hother => exact iff_of_true (FailsClean.pure _) (by simp [hother])
      · next hother => exact iff_of_true (FailsClean.throw _) (by simp [hother])

/-- An accepted schedule leaves an activity that may start. -/
theorem Accepts.scheduled {eventId : String} {definition : ActivityDefinition} (hs : Logged s)
    (h : Accepts s (s.nextEvent eventId (.activityScheduled definition)) t) :
    t.projection.activities[definition.activityId]? = some (unstarted definition) ∧
      t.projection.status = .running ∧ t.checkV2Start definition.activityId = .ok () := by
  obtain ⟨u, htransition, rfl⟩ := hs.transition h
  cases htransition with
  | activityScheduled hrunning _ _ hfresh hcheck =>
    exact ⟨BTreeMap.get_insert_self, hrunning, checkV2Start_of_checkV2Schedule hfresh hcheck⟩

/-- Behind an accepted schedule, the first start is refused only if its identity is taken. -/
theorem Accepts.decideActivity_fails_iff {definition : ActivityDefinition}
    (hs : Logged s) (h : Accepts s (s.nextEvent eventId (.activityScheduled definition)) t) :
    Fails (decideActivity definition.activityId) t ↔
      ¬ s.RecordsStart definition.activityId 1 ∧
        (s.HasEvent (attemptEventId definition.activityId 1 "started") ∨
          attemptEventId definition.activityId 1 "started" = eventId) := by
  have ht := hs.emits (.of_nextEvent h)
  obtain ⟨hget, hstatus, hstart⟩ := h.scheduled hs
  have hdecide : Fails (decideActivity definition.activityId) t ↔
      Fails (startNextAttempt definition.activityId) t := by
    unfold Fails decideActivity
    simp only [run_read_bind, id_eq, activity, hget, okOr_some, run_check_bind_ok]
    rfl
  rw [hdecide, RunState.startNextAttempt_fails_iff ht hget (fun _ hlatest => by cases hlatest),
    preparedAttempt_of_get hget, h.hasEvent_iff]
  unfold RecordsStart
  rw [h.records_iff fun hkind => by cases hkind]
  simp only [unstarted, List.length_nil, Nat.zero_add, hstatus, hstart, ne_eq, not_true, false_or]
  exact or_iff_right (by decide)

variable {logicalKey : String}

theorem prepareActivity_failsClean_iff {stableStepId : String} {input : Value}
    {sideEffectClass : SideEffectClass} {idempotencyKey : Option String} (hs : Logged s) :
    FailsClean (prepareActivity stableStepId logicalKey input sideEffectClass idempotencyKey) s ↔
      ¬ s.PrepareStrands stableStepId logicalKey input sideEffectClass idempotencyKey := by
  unfold prepareActivity PrepareStrands
  simp only [failsClean_check_bind_iff, failsClean_read_bind_iff, forall_unit, id_eq,
    validateIdentifier_eq_ok, ensureExecuting_eq_ok, not_and]
  refine imp_congr_right fun _ => imp_congr_right fun _ => imp_congr_right fun _ => ?_
  split
  · next record hfind =>
    simp only [hfind, failsClean_check_bind_iff, forall_unit, not_and]
    exact imp_congr_right fun _ => decideActivity_failsClean_iff hs
  · next hfind =>
    simp only [hfind, failsClean_check_bind_iff, forall_unit, refuseIf_eq_ok, Bool.not_eq_true,
      not_and]
    refine imp_congr_right fun _ => ?_
    rw [emit_bind_failsClean_iff hs (stableIdentifier_valid _ _ (by decide))]
    · refine (and_congr ?_ ?_).trans not_or.symm
      · rw [not_admits_and]
        exact forall_congr' fun m => imp_congr_right fun hm =>
          not_congr (hm.decideActivity_fails_iff hs)
      · rw [not_and]
        exact imp_congr_right fun _ => decideActivity_failsClean_iff hs
    · intro m hm
      have hget := (hm.scheduled hs).1
      rw [decideActivity_failsClean_iff (hs.emits (.of_nextEvent hm)), decideStrands_iff hget]
      rintro ⟨-, latest, hlatest, -⟩
      cases hlatest

/-- Behind an accepted failure, the decision is stranded only if it goes on to a start that is
refused. -/
theorem Accepts.decideActivity_fails_iff_of_failed (hs : Logged s)
    (h : Accepts s (s.nextEvent eventId
      (.activityAttemptFailed id attempt error true effectAmbiguous)) t)
    (hget : s.projection.activities[id]? = some r)
    (hsafe : retryIsSafe r.definition effectAmbiguous = true) :
    FailsClean (decideActivity id) t ∧
      (Fails (decideActivity id) t ↔ r.completedOutput = none ∧ s.StartBlocked id eventId) := by
  obtain ⟨r', found, u, hget', hfind, hstatus, -, -, hu, htu⟩ := h.failed hs
  rw [hget] at hget'
  cases hget'
  have hgetT : t.projection.activities[id]? = some (r.setAttempt attempt
      (failedAttempt found s.nextSequence error true effectAmbiguous)) := by
    rw [htu, hu]
    exact BTreeMap.get_insert_self
  have hlatest := ((hs.sensible.current id r hget).latestAttempt hfind hstatus).2
    (failedAttempt found s.nextSequence error true effectAmbiguous)
  have houtput : (r.setAttempt attempt (failedAttempt found s.nextSequence error true
      effectAmbiguous)).completedOutput = r.completedOutput :=
    completedOutput_setAttempt hfind (by rw [hstatus]; decide) (by simp [failedAttempt])
  refine ⟨?_, ?_⟩
  · rw [decideActivity_failsClean_iff (hs.emits (.of_nextEvent h)), decideStrands_iff hgetT]
    rintro ⟨-, latest, hlatest', hrunning, -⟩
    rw [hlatest] at hlatest'
    cases hlatest'
    cases hrunning
  · rw [← h.startNextAttempt_fails_iff hs hget hsafe]
    unfold Fails decideActivity
    simp only [run_read_bind, id_eq, activity, hgetT, okOr_some, run_check_bind_ok, houtput, hlatest]
    cases r.completedOutput with
    | some output => simp [EStateM.run_pure]
    | none => simp [failedAttempt, hsafe]

/-- Behind an accepted ambiguous failure, the quarantine is refused only if its identity is
taken. -/
theorem Accepts.quarantine_fails_iff (hs : Logged s)
    (h : Accepts s (s.failedEvent id attempt error retryable true) t) :
    Fails (quarantine id attempt reason) t ↔
      ¬ s.Records (attemptEventId id attempt "reconcile_required")
          (.activityReconciliationRequired id attempt reason) ∧
        (s.HasEvent (attemptEventId id attempt "reconcile_required") ∨
          attemptEventId id attempt "reconcile_required" = attemptEventId id attempt "failed") := by
  have hemit : Fails (quarantine id attempt reason) t ↔
      Fails (emit (attemptEventId id attempt "reconcile_required")
        (.activityReconciliationRequired id attempt reason)) t := by
    rw [fails_iff, fails_iff]
    unfold quarantine
    simp only [ne_eq, run_bind_eq_ok]
    exact ⟨fun h outcome u hrun => h _ u ⟨outcome, u, hrun, rfl⟩,
      fun h decision u ⟨outcome, v, hrun, _⟩ => h outcome v hrun⟩
  have hadmits : ¬ t.Admits (attemptEventId id attempt "reconcile_required")
      (.activityReconciliationRequired id attempt reason) ↔
        t.HasEvent (attemptEventId id attempt "reconcile_required") := by
    refine ⟨fun hnot => ?_, fun hknown ⟨u, hu⟩ => hu.fresh hknown⟩
    by_contra hfresh
    exact hnot (h.quarantines reason hfresh)
  rw [hemit, emit_fails_iff (hs.emits (.of_nextEvent h)) attemptEventId_valid, hadmits,
    h.hasEvent_iff, h.records_iff fun hkind => by cases hkind]
  rfl

theorem failActivity_failsClean_iff
    (hs : Logged s) :
    FailsClean (failActivity id attempt error retryable effectAmbiguous) s ↔
      ¬ s.FailStrands id attempt error retryable effectAmbiguous := by
  unfold failActivity FailStrands
  simp only [failsClean_check_bind_iff, failsClean_read_bind_iff, forall_unit, id_eq,
    ensureActive_eq_ok, activity_eq_ok]
  rw [not_and]
  refine imp_congr_right fun _ => ?_
  rw [not_exists]
  refine forall_congr' fun r => ?_
  rw [not_and]
  refine imp_congr_right fun hget => ?_
  cases hreserved : isReservedAuditActivity r with
  | true =>
    simp only [if_true, Bool.true_eq_false, false_and, not_false_iff, iff_true]
    exact quarantine_failsClean
  | false =>
    simp only [Bool.false_eq_true, if_false, true_and]
    by_cases hambiguous : effectAmbiguous = true ∧ retryIsSafe r.definition true = false
    · -- the failure is followed by a quarantine
      obtain ⟨rfl, hrisky⟩ := hambiguous
      simp only [hrisky, and_self, if_true]
      rw [emit_bind_failsClean_iff hs attemptEventId_valid fun _ _ => quarantine_failsClean,
        not_admits_and]
      simp only [quarantine_failsClean, implies_true, and_true]
      exact forall_congr' fun m => imp_congr_right fun hm =>
        not_congr (Accepts.quarantine_fails_iff hs hm)
    · simp only [if_neg hambiguous]
      have hsafe : retryIsSafe r.definition effectAmbiguous = true := by
        cases effectAmbiguous with
        | false => simp [retryIsSafe]
        | true => simpa using hambiguous
      cases retryable with
      | false =>
        simp only [Bool.false_eq_true, if_false, false_and, not_false_iff, iff_true]
        exact emit_pure_failsClean
      | true =>
        -- the failure is followed by a decision
        simp only [if_true, true_and]
        rw [emit_bind_failsClean_iff hs attemptEventId_valid fun m hm =>
          (hm.decideActivity_fails_iff_of_failed hs hget hsafe).1]
        refine (and_congr ?_ ?_).trans not_or.symm
        · rw [not_admits_and]
          exact forall_congr' fun m => imp_congr_right fun hm =>
            not_congr (hm.decideActivity_fails_iff_of_failed hs hget hsafe).2
        · rw [not_and]
          exact imp_congr_right fun _ => decideActivity_failsClean_iff hs

theorem cancelActivity_failsClean_iff (hs : Logged s) :
    FailsClean (cancelActivity id attempt reason effectAmbiguous) s ↔
      ¬ (effectAmbiguous = true ∧ s.FailStrands id attempt reason false true) := by
  unfold cancelActivity
  simp only [failsClean_check_bind_iff, failsClean_read_bind_iff, forall_unit, id_eq,
    ensureActive_eq_ok]
  cases effectAmbiguous with
  | true =>
    simp only [if_true, true_and]
    rw [failActivity_failsClean_iff hs]
    exact ⟨fun h hstrands => h hstrands.1 hstrands, fun h _ => h⟩
  | false =>
    simp only [Bool.false_eq_true, if_false, false_and, not_false_iff, iff_true]
    refine fun _ => .check_bind fun r hr => ?_
    split
    · next hreserved =>
      rw [failActivity_failsClean_iff hs]
      rintro ⟨-, r', hget, hordinary, -⟩
      rw [activity_eq_ok, hget] at hr
      cases hr
      rw [hreserved] at hordinary
      cases hordinary
    · exact emit_pure_failsClean

/-! ### The calls that never strand a run -/

theorem completeActivity_failsClean {output : Value} :
    FailsClean (completeActivity id attempt output) s := by
  unfold completeActivity
  refine .read_bind <| .check_bind fun _ _ => .check_bind fun record _ => ?_
  dsimp only
  split
  · split
    · exact .pure _
    · exact .throw _
  · exact emit_failsClean

theorem requestApproval_failsClean {prompt : String} {activityId : Option String}
    {payload : Value} : FailsClean (requestApproval logicalKey activityId prompt payload) s :=
  .check_bind fun _ _ => .read_bind <| .check_bind fun _ _ => .check_bind fun _ _ =>
    .check_bind fun _ _ => emit_pure_failsClean

theorem requestTypedApproval_failsClean {request : DurableApprovalRequest} :
    FailsClean (requestTypedApproval request) s :=
  .check_bind fun _ _ => .check_bind fun _ _ => .check_bind fun _ _ => .read_bind <|
    .check_bind fun _ _ => .check_bind fun _ _ => requestApproval_failsClean

variable {nowUnixMs : Nat}

/-- The clone is installed once everything has succeeded. -/
theorem expireApprovals_failsClean {expirationId : String} :
    FailsClean (expireApprovals expirationId nowUnixMs) s :=
  .check_bind fun _ _ => .read_bind <| .check_bind fun _ _ =>
    .bind (.onCandidate _) fun _ _ _ _ _ h => by cases h

variable {checkpointId : String}

variable {label : Option String}

/-- A committed checkpoint is in the map. -/
theorem Accepts.checkpoint (hs : Logged s)
    (h : Accepts s (s.nextEvent eventId (.checkpointCommitted checkpointId label)) t) :
    ∃ c, t.checkpoints[checkpointId]? = some c := by
  obtain ⟨u, htransition, rfl⟩ := hs.transition h
  cases htransition
  exact ⟨_, BTreeMap.get_insert_self⟩

theorem checkpoint_failsClean {checkpointKey : String} (hs : Logged s) :
    FailsClean (RunState.checkpoint checkpointKey label) s := by
  unfold RunState.checkpoint
  refine .check_bind fun _ _ => .read_bind <| .check_bind fun _ _ => .check_bind fun _ _ =>
    .bind emit_failsClean fun _ m hemit error u hrun => ?_
  rw [run_read_bind] at hrun
  dsimp only [id] at hrun
  rcases of_run_emit hemit with ⟨-, rfl⟩ | haccepts
  · cases hlookup : m.checkpointById (stableIdentifier "checkpoint"
        [m.runId, m.projection.branchId, checkpointKey]) with
    | ok c =>
      rw [hlookup] at hrun
      cases hrun
    | error error' =>
      rw [hlookup] at hrun
      cases hrun
      rfl
  · obtain ⟨c, hc⟩ := haccepts.checkpoint hs
    dsimp only [id] at hc
    rw [checkpointById_eq_ok.mpr hc] at hrun
    cases hrun

variable {commandId : String}

theorem resume_failsClean {approvals : List ApprovalResolution}
    {nowUnixMs : Option Nat} : FailsClean (resume commandId approvals nowUnixMs) s := by
  unfold resume
  refine .check_bind fun _ _ => .read_bind ?_
  dsimp only [id]
  split
  · split
    · exact .pure _
    · exact .throw _
  · exact .check_bind fun _ _ => .check_bind fun _ _ => .onCandidate _

variable {sideEffectsReconciled : Bool}

theorem fork_failsClean {newRunId : String} :
    FailsClean (fork commandId newRunId checkpointId sideEffectsReconciled) s := by
  unfold fork
  refine .check_bind fun _ _ => .check_bind fun _ _ => .read_bind <| .check_bind fun _ _ =>
    .check_bind fun _ _ => .check_bind fun _ _ => ?_
  dsimp only [id]
  split
  · split
    · exact .check_bind fun _ _ => .pure _
    · exact .throw _
  · exact .check_bind fun _ _ => .onCandidate _

theorem rewind_failsClean :
    FailsClean (rewind commandId checkpointId sideEffectsReconciled) s := by
  unfold rewind
  refine .check_bind fun _ _ => .read_bind <| .check_bind fun _ _ => .check_bind fun _ _ => ?_
  dsimp only [id]
  split
  · split
    · exact .pure _
    · exact .throw _
  · exact .check_bind fun _ _ => emit_pure_failsClean

theorem cancel_failsClean {reason : Option String} :
    FailsClean (cancel commandId reason) s := by
  unfold cancel
  refine .check_bind fun _ _ => .read_bind ?_
  dsimp only [id]
  split
  · split
    · exact .pure _
    · exact .throw _
  · exact .check_bind fun _ _ => .check_bind fun _ _ => emit_pure_failsClean

variable {command : RunCommand}

theorem applyCommand_failsClean : FailsClean (applyCommand command) s := by
  cases command with
  | resume => exact resume_failsClean
  | fork => exact fork_failsClean
  | rewind => exact rewind_failsClean
  | cancel => exact cancel_failsClean

theorem applyCommandAt_failsClean :
    FailsClean (applyCommandAt command nowUnixMs) s := by
  cases command with
  | resume => exact resume_failsClean
  | fork => exact fork_failsClean
  | rewind => exact rewind_failsClean
  | cancel => exact cancel_failsClean

omit [Digest] in
theorem answered_failsClean_iff :
    FailsClean (answered call) s ↔ FailsClean call s := by
  constructor
  · intro h error t hrun
    exact h error t (run_bind_error hrun)
  · exact fun h => .bind h fun _ _ _ _ _ hpure => by cases hpure

theorem typed_failsClean_iff (hs : Logged s) (call : TypedCall) :
    FailsClean call.run s ↔ ¬ s.Strands (.typed call) := by
  cases call with
  | prepareActivity => exact answered_failsClean_iff.trans (prepareActivity_failsClean_iff hs)
  | failActivity => exact answered_failsClean_iff.trans (failActivity_failsClean_iff hs)
  | cancelActivity => exact answered_failsClean_iff.trans (cancelActivity_failsClean_iff hs)
  | replaceState =>
    exact iff_of_true (answered_failsClean_iff.mpr <| .check_bind fun _ _ => .read_bind <|
      .check_bind fun _ _ => emit_failsClean) not_false
  | claimWorkerLease =>
    exact iff_of_true (answered_failsClean_iff.mpr <| .check_bind fun _ _ => .check_bind fun _ _ =>
      .check_bind fun _ _ => .read_bind emit_pure_failsClean) not_false
  | renewWorkerLease =>
    exact iff_of_true (answered_failsClean_iff.mpr <| .check_bind fun _ _ => .check_bind fun _ _ =>
      .check_bind fun _ _ => .read_bind emit_pure_failsClean) not_false
  | releaseWorkerLease =>
    exact iff_of_true (answered_failsClean_iff.mpr <| .check_bind fun _ _ => .check_bind fun _ _ =>
      .read_bind emit_pure_failsClean) not_false
  | completeActivity =>
    exact iff_of_true (answered_failsClean_iff.mpr completeActivity_failsClean) not_false
  | reconcileActivity =>
    exact iff_of_true (answered_failsClean_iff.mpr <| .check_bind fun _ _ => .read_bind <|
      .check_bind fun _ _ => .check_bind fun _ _ => .check_bind fun _ _ => emit_failsClean) not_false
  | requestApproval =>
    exact iff_of_true (answered_failsClean_iff.mpr requestApproval_failsClean) not_false
  | requestTypedApproval =>
    exact iff_of_true (answered_failsClean_iff.mpr requestTypedApproval_failsClean) not_false
  | expireApprovals =>
    exact iff_of_true (answered_failsClean_iff.mpr expireApprovals_failsClean) not_false
  | publishArtifact =>
    exact iff_of_true (answered_failsClean_iff.mpr <| .check_bind fun _ _ => .read_bind <|
      .check_bind fun _ _ => .check_bind fun _ _ => emit_pure_failsClean) not_false
  | checkpoint =>
    exact iff_of_true (answered_failsClean_iff.mpr (checkpoint_failsClean hs)) not_false
  | pause =>
    exact iff_of_true (answered_failsClean_iff.mpr <| .check_bind fun _ _ => .read_bind <|
      .check_bind fun _ _ => .check_bind fun _ _ => emit_pure_failsClean) not_false
  | completeRun =>
    exact iff_of_true (answered_failsClean_iff.mpr <| .check_bind fun _ _ => .read_bind <|
      .check_bind fun _ _ => .check_bind fun _ _ => emit_failsClean) not_false
  | failRun =>
    exact iff_of_true (answered_failsClean_iff.mpr <| .check_bind fun _ _ => .read_bind <|
      .check_bind fun _ _ => .check_bind fun _ _ => emit_failsClean) not_false
  | applyCommand =>
    exact iff_of_true (answered_failsClean_iff.mpr applyCommand_failsClean) not_false
  | applyCommandAt =>
    exact iff_of_true (answered_failsClean_iff.mpr applyCommandAt_failsClean) not_false

/-- **Which calls fail without a trace**: all but the ones that strand the run. -/
theorem Reachable.failsClean_iff (hs : Reachable s) (call : Call) :
    (∀ error t, call.run.run s = .error error t → t = s) ↔ ¬ s.Strands call := by
  cases call with
  | typed call => exact typed_failsClean_iff hs.logged call
  | appendEvent event =>
    exact iff_of_true (answered_failsClean_iff.mpr appendEvent_failsClean) not_false
  | quarantineUnstartedReservedActivity =>
    refine iff_of_true (FailsClean.read_bind ?_) not_false
    exact .check_bind fun _ _ => .check_bind fun _ _ => .check_bind fun _ _ => emit_pure_failsClean
  | quarantineTerminalLegacyRunningActivity =>
    refine iff_of_true (FailsClean.read_bind ?_) not_false
    exact .check_bind fun _ _ => .check_bind fun _ _ => .check_bind fun _ _ =>
      .check_bind fun _ _ => emit_pure_failsClean

/-! ### A failure that stays -/

/-- What a failed call would stand for if every operation worked on a clone. -/
def FailsWithoutTrace : Prop :=
  ∀ s, Reachable s → ∀ (call : Call) error t, call.run s = .error error t → t = s

/-- An attempt is running in a run that is paused. -/
def pausedLog : List RunEvent :=
  logOf "r" [("1", .runStarted "s" .sync "b"),
    ("2", .activityScheduled ⟨"a", "step", "key", .null, stableInputHash .null, .pure, none⟩),
    ("3", .activityAttemptStarted "a" 1),
    ("4", .runPaused "for the night")]

/-- The failure of the attempt is reported, to be retried. -/
def retryInPause : TypedCall := .failActivity "a" 1 "boom" true false

end RunState

end

namespace RunState

/-- The call is refused, and the failure it reported is logged. -/
theorem leavesFailure :
    ∃ s, @fromEvents sha256 (@pausedLog sha256) = .ok s ∧ ∃ error t,
      (@failActivity sha256 "a" 1 "boom" true false).run s = .error error t ∧
        t.events.length = s.events.length + 1 := by
  rw [sha256_eq_quick]
  decide +kernel

/-- It leaves its trace. -/
theorem retryInPause_leaves :
    ∃ s error t, @Reachable sha256 s ∧ (@Call.run sha256 (.typed retryInPause)).run s = .error error t ∧ t ≠ s := by
  obtain ⟨s, hs, error, t, hrun, hlonger⟩ := leavesFailure
  refine ⟨s, error, t, @Reachable.fromEvents sha256 _ _ hs, run_bind_error hrun, ?_⟩
  rintro rfl
  omega

/-- A paused run keeps the failure that a refused call reported. -/
theorem not_failsWithoutTrace : ¬ @FailsWithoutTrace sha256 := by
  intro h
  obtain ⟨s, error, t, hs, hrun, htrace⟩ := retryInPause_leaves
  exact htrace (h s hs _ _ _ hrun)

/-- That call strands the run. -/
theorem failsClean_iff_pausedLog :
    ∃ s, @Reachable sha256 s ∧ @Strands sha256 s (.typed retryInPause) := by
  obtain ⟨s, error, t, hs, hrun, htrace⟩ := retryInPause_leaves
  refine ⟨s, hs, by_contra fun hclean => htrace ?_⟩
  exact (@Reachable.failsClean_iff sha256 s hs _).mpr hclean _ _ hrun

end RunState

end AikitRuntime.Durability
