import Mathlib.Data.List.Nodup
import AikitRuntime.Library.Paths
import AikitRuntime.Durability.Steps
import AikitRuntime.Durability.Commands

/-!
# Runs and their logs

Every run is its log replayed. `Accepts s e t` says that the event is new to the log of
`s` and leads to `t`; `Replays` adds the check of versions that a replay makes, and
`Emits` that the event is of the current version, as every live one is. `Logged s` says
that the log of `s` was accepted event by event from a blank run: the rule `Logged.rec`
is how a fact is proved of every run, by looking at the first event and at one more.

`Logged.fromEvents` replays such a run, and `logged_of_fromEvents` says that replaying
yields nothing else.
-/

namespace AikitRuntime.Durability

open Library Relation

namespace RunState

variable {s t u : RunState} {e : RunEvent}

/-- A log of a run's events, of the current version and numbered from one. -/
def logOf (runId : String) (entries : List (String × RunEventKind)) : List RunEvent :=
  entries.zipIdx.map fun entry =>
    ⟨durabilitySchemaVersion, runId, entry.2 + 1, entry.1.1, entry.1.2⟩

/-! ### The log around a run -/

@[simp] theorem pushEvent_events : (s.pushEvent e).events = s.events ++ [e] := rfl
@[simp] theorem pushEvent_projection : (s.pushEvent e).projection = s.projection := rfl
@[simp] theorem pushEvent_checkpoints : (s.pushEvent e).checkpoints = s.checkpoints := rfl
@[simp] theorem pushEvent_runId : (s.pushEvent e).runId = s.runId := rfl
@[simp] theorem pushEvent_sessionId : (s.pushEvent e).sessionId = s.sessionId := rfl
@[simp] theorem pushEvent_schemaVersion : (s.pushEvent e).schemaVersion = s.schemaVersion := rfl
@[simp] theorem pushEvent_durability : (s.pushEvent e).durability = s.durability := rfl
@[simp] theorem pushEvent_parentRunId : (s.pushEvent e).parentRunId = s.parentRunId := rfl
@[simp] theorem pushEvent_policySnapshotHash :
    (s.pushEvent e).policySnapshotHash = s.policySnapshotHash := rfl
@[simp] theorem pushEvent_governanceBinding :
    (s.pushEvent e).governanceBinding = s.governanceBinding := rfl

@[simp] theorem nextSequence_pushEvent : (s.pushEvent e).nextSequence = e.sequence + 1 := by
  simp [nextSequence]

theorem nextSequence_of_nil (h : s.events = []) : s.nextSequence = 1 := by
  simp [nextSequence, h]

/-- The log holds an event of that identity. -/
def HasEvent (s : RunState) (eventId : String) : Prop := ∃ e ∈ s.events, e.eventId = eventId

/-- The log holds that event, under that identity. -/
def Records (s : RunState) (eventId : String) (kind : RunEventKind) : Prop :=
  ∃ e ∈ s.events, e.eventId = eventId ∧ e.kind = kind

variable {eventId : String}

theorem Records.hasEvent {kind : RunEventKind} (h : s.Records eventId kind) :
    s.HasEvent eventId :=
  have ⟨e, he, hid, _⟩ := h
  ⟨e, he, hid⟩

theorem eventById_eq_none : s.eventById eventId = none ↔ ¬ s.HasEvent eventId := by
  simp [eventById, HasEvent]

theorem eventById_eq_some (h : s.eventById eventId = some e) :
    e ∈ s.events ∧ e.eventId = eventId :=
  ⟨List.mem_of_find?_eq_some h, by simpa using List.find?_some h⟩

section
variable [Digest]

/-! ### Accepting an event -/

/-- The event is new to the log of `s`, is accepted at its end, and leads to `t`. -/
structure Accepts (s : RunState) (e : RunEvent) (t : RunState) : Prop where
  valid : ValidIdentifier e.eventId
  run : e.runId = s.runId
  fresh : ¬ s.HasEvent e.eventId
  next : e.sequence = s.nextSequence
  applied : ∃ u, s.applyEventInPlace e = .ok u ∧ t = u.pushEvent e

/-- The event is accepted by a replay. -/
def Replays (s : RunState) (e : RunEvent) (t : RunState) : Prop :=
  s.checkReplayedVersion e = .ok () ∧ Accepts s e t

/-- The event is accepted as a live one. -/
def Emits (s : RunState) (e : RunEvent) (t : RunState) : Prop :=
  e.schemaVersion = durabilitySchemaVersion ∧ Accepts s e t

variable {outcome : AppendOutcome}

/-- What `append_validated_event` did: nothing, for a duplicate, or accept the event. -/
theorem tryAppend_eq_ok :
    s.tryAppend e = .ok (outcome, t) ↔
      (∃ existing, ValidIdentifier e.eventId ∧ e.runId = s.runId ∧
        s.eventById e.eventId = some existing ∧ existing.kind = e.kind ∧
          outcome = .deduplicated existing.sequence ∧ t = s) ∨
      (Accepts s e t ∧ outcome = .appended e.sequence) := by
  unfold tryAppend
  simp only [bind_eq_ok, exists_unit, validateIdentifier_eq_ok, refuseIf_eq_ok, not_not]
  constructor
  · rintro ⟨hvalid, hrun, h⟩
    split at h
    · next existing hfind =>
      split at h
      · next hkind =>
        cases h
        exact .inl ⟨existing, hvalid, hrun, hfind, hkind, rfl, rfl⟩
      · cases h
    · next hnone =>
      simp only [bind_eq_ok, exists_unit, refuseIf_eq_ok, not_not, pure, Except.pure,
        Except.ok.injEq, Prod.mk.injEq] at h
      obtain ⟨hnext, u, hu, rfl, rfl⟩ := h
      exact .inr ⟨⟨hvalid, hrun, eventById_eq_none.mp hnone, hnext, u, hu, rfl⟩, rfl⟩
  · rintro (⟨existing, hvalid, hrun, hfind, hkind, rfl, rfl⟩ | ⟨h, rfl⟩)
    · refine ⟨hvalid, hrun, ?_⟩
      rw [hfind]
      simp [hkind]
    · refine ⟨h.valid, h.run, ?_⟩
      rw [eventById_eq_none.mpr h.fresh]
      simp only [bind_eq_ok, exists_unit, refuseIf_eq_ok, not_not, pure, Except.pure,
        Except.ok.injEq, Prod.mk.injEq]
      obtain ⟨u, hu, rfl⟩ := h.applied
      exact ⟨h.next, u, hu, trivial, rfl⟩

theorem run_appendValidatedEvent_eq_ok :
    (appendValidatedEvent e).run s = .ok outcome t ↔ s.tryAppend e = .ok (outcome, t) := by
  unfold appendValidatedEvent EStateM.run
  cases htry : s.tryAppend e with
  | ok p => simp only [htry, EStateM.Result.ok.injEq, Except.ok.injEq, Prod.ext_iff]
  | error error => simp only [htry, reduceCtorEq]

/-- A refused event leaves the run as it was. -/
theorem appendValidatedEvent_failsClean : Method.FailsClean (appendValidatedEvent e) s := by
  intro error t h
  unfold appendValidatedEvent EStateM.run at h
  cases htry : s.tryAppend e with
  | ok p => simp [htry] at h
  | error error' =>
    simp only [htry, EStateM.Result.error.injEq] at h
    exact h.2.symm

/-! ### How a run begins -/

/-- `o` is the blank run that the event opens. -/
structure Opens (o : RunState) (e : RunEvent) : Prop where
  opening : ∃ sessionId durability, openingOf e.kind = some (sessionId, durability) ∧
    ValidIdentifier sessionId ∧ ValidIdentifier e.runId ∧
      o = blank sessionId e.runId durability (RunProjection.root e.runId)

theorem Opens.events {o : RunState} (h : Opens o e) : o.events = [] := by
  obtain ⟨_, _, _, _, _, rfl⟩ := h.opening
  rfl

/-- The run's log was accepted event by event from a blank run. -/
inductive Logged : RunState → Prop where
  /-- The first event opens the run. -/
  | opened {o t : RunState} {e : RunEvent} (ho : Opens o e) (h : Replays o e t) : Logged t
  /-- One more event is accepted. -/
  | extended {s t : RunState} {e : RunEvent} (hs : Logged s) (h : Replays s e t) : Logged t

/-! ### What accepting an event leaves alone -/

variable {kind : RunEventKind}

/-- An event other than the first changes neither the log nor the run's identity. -/
theorem Transition.frame {version sequence : Nat}
    (h : Transition s version sequence kind t) :
    t.events = s.events ∧ t.runId = s.runId ∧ t.sessionId = s.sessionId ∧
      t.schemaVersion = s.schemaVersion ∧ t.durability = s.durability ∧
        t.parentRunId = s.parentRunId := by
  cases h with
  | activityOrphaned => split <;> exact ⟨rfl, rfl, rfl, rfl, rfl, rfl⟩
  | activityQuarantined => split <;> exact ⟨rfl, rfl, rfl, rfl, rfl, rfl⟩
  | activityReconciled => dsimp only; split <;> exact ⟨rfl, rfl, rfl, rfl, rfl, rfl⟩
  | _ => exact ⟨rfl, rfl, rfl, rfl, rfl, rfl⟩

theorem applyFirst_frame (h : s.applyFirst kind = .ok t) :
    t.events = s.events ∧ t.runId = s.runId ∧ t.sessionId = s.sessionId := by
  cases kind with
  | runStarted sessionId durability rootBranchId =>
    simp only [applyFirst, bind_eq_ok, exists_unit, refuseIf_eq_ok, pure, Except.pure,
      Except.ok.injEq] at h
    obtain ⟨-, rfl⟩ := h
    exact ⟨rfl, rfl, rfl⟩
  | forkedFrom sessionId sourceRunId durability sourceCheckpoint newBranchId =>
    simp only [applyFirst, bind_eq_ok, exists_unit, refuseIf_eq_ok, pure, Except.pure,
      Except.ok.injEq] at h
    obtain ⟨-, -, -, -, rfl⟩ := h
    exact ⟨rfl, rfl, rfl⟩
  | _ => cases h

theorem applyEventInPlace_frame (h : s.applyEventInPlace e = .ok t) :
    t.events = s.events ∧ t.runId = s.runId ∧ t.sessionId = s.sessionId := by
  unfold applyEventInPlace at h
  split at h
  · exact applyFirst_frame h
  · have hframe := (Transition.of_applyLater h).frame
    exact ⟨hframe.1, hframe.2.1, hframe.2.2.1⟩

/-- Accepting an event adds it to the log. -/
theorem Accepts.events (h : Accepts s e t) : t.events = s.events ++ [e] := by
  obtain ⟨u, hu, rfl⟩ := h.applied
  rw [pushEvent_events, (applyEventInPlace_frame hu).1]

theorem Accepts.nextSequence (h : Accepts s e t) : t.nextSequence = s.nextSequence + 1 := by
  obtain ⟨u, hu, rfl⟩ := h.applied
  rw [nextSequence_pushEvent, h.next]

/-- A transition of a run that has begun accepts its event. -/
theorem Accepts.of_transition (hs : s.events ≠ []) (hvalid : ValidIdentifier e.eventId)
    (hrun : e.runId = s.runId) (hfresh : ¬ s.HasEvent e.eventId) (hnext : e.sequence = s.nextSequence)
    (h : Transition s e.schemaVersion e.sequence e.kind u) : Accepts s e (u.pushEvent e) := by
  refine ⟨hvalid, hrun, hfresh, hnext, u, ?_, rfl⟩
  unfold applyEventInPlace
  split
  · next hnil => exact absurd hnil hs
  · exact h.applyLater

/-- After the first event, accepting one is a transition. -/
theorem Accepts.transition (h : Accepts s e t) (hs : s.events ≠ []) :
    ∃ u, Transition s e.schemaVersion e.sequence e.kind u ∧ t = u.pushEvent e := by
  obtain ⟨u, hu, rfl⟩ := h.applied
  refine ⟨u, ?_, rfl⟩
  unfold applyEventInPlace at hu
  split at hu
  · next hnil => exact absurd hnil hs
  · exact .of_applyLater hu

theorem Logged.events_ne_nil (h : Logged s) : s.events ≠ [] := by
  cases h with
  | opened _ h => simp [h.2.events]
  | extended _ h => simp [h.2.events]

theorem Logged.transition (hs : Logged s) (h : Accepts s e t) :
    ∃ u, Transition s e.schemaVersion e.sequence e.kind u ∧ t = u.pushEvent e :=
  h.transition hs.events_ne_nil

/-- What accepting an event recorded stays recorded. -/
theorem Accepts.mem_events {e' : RunEvent} (h : Accepts s e t) (he : e' ∈ s.events) :
    e' ∈ t.events := by
  rw [h.events]
  exact List.mem_append_left _ he

/-! ### Facts about every log -/

/-- Sequence numbers count the log from one. -/
theorem Logged.nextSequence (h : Logged s) : s.nextSequence = s.events.length + 1 := by
  induction h with
  | opened ho h =>
    rw [h.2.nextSequence, h.2.events, nextSequence_of_nil ho.events, ho.events]
    rfl
  | extended _ h ih => simp [h.2.nextSequence, h.2.events, ih]

/-- No two events of a log share an identity. -/
theorem Logged.nodup (h : Logged s) : (s.events.map (·.eventId)).Nodup := by
  induction h with
  | opened ho h => simp [h.2.events, ho.events]
  | @extended s t e _ h ih =>
    rw [h.2.events, List.map_append, List.map_singleton, List.nodup_append]
    refine ⟨ih, by simp, ?_⟩
    rintro id hid _ hmem rfl
    obtain ⟨e', he', hid'⟩ := List.mem_map.mp hid
    rw [List.mem_singleton] at hmem
    exact h.2.fresh ⟨e', he', hid'.trans hmem⟩

/-- An identity stands for one event. -/
theorem Logged.eventId_inj (h : Logged s) {e₁ e₂ : RunEvent} (h₁ : e₁ ∈ s.events)
    (h₂ : e₂ ∈ s.events) (hid : e₁.eventId = e₂.eventId) : e₁ = e₂ :=
  List.inj_on_of_nodup_map h.nodup h₁ h₂ hid

theorem Logged.eventById (h : Logged s) (he : e ∈ s.events) :
    s.eventById e.eventId = some e := by
  cases hfind : s.eventById e.eventId with
  | none => exact absurd ⟨e, he, rfl⟩ (eventById_eq_none.mp hfind)
  | some e' =>
    have ⟨hmem, hid⟩ := eventById_eq_some hfind
    rw [h.eventId_inj hmem he hid]

/-- Every event of a log is of a supported version. -/
theorem Logged.supported (h : Logged s) :
    ∀ e ∈ s.events, isSupportedDurabilitySchemaVersion e.schemaVersion = true := by
  have hversion : ∀ {s e t}, Replays s e t →
      isSupportedDurabilitySchemaVersion e.schemaVersion = true := by
    intro s e t h
    have hcheck := h.1
    simp only [checkReplayedVersion, bind_eq_ok, exists_unit, refuseIf_eq_ok,
      Bool.not_eq_false] at hcheck
    exact hcheck.1
  induction h with
  | opened ho h =>
    intro e' he'
    rw [h.2.events, ho.events, List.nil_append, List.mem_singleton] at he'
    exact he' ▸ hversion h
  | extended _ h ih =>
    intro e' he'
    rw [h.2.events, List.mem_append, List.mem_singleton] at he'
    rcases he' with hold | rfl
    · exact ih e' hold
    · exact hversion h

/-- A live event is accepted by a replay as well. -/
theorem Emits.replays (hs : ∀ e ∈ s.events, isSupportedDurabilitySchemaVersion e.schemaVersion = true)
    (h : Emits s e t) : Replays s e t := by
  refine ⟨?_, h.2⟩
  simp only [checkReplayedVersion, bind_eq_ok, exists_unit, refuseIf_eq_ok, h.1]
  refine ⟨by decide, ?_⟩
  simp only [Option.any_eq_true, not_exists, not_and]
  intro previous hlast hlt
  have hsupported := hs previous (List.mem_of_getLast? hlast)
  simp [isSupportedDurabilitySchemaVersion] at hsupported hlt
  omega

theorem Logged.emits (hs : Logged s) (h : Emits s e t) : Logged t :=
  .extended hs (h.replays hs.supported)

/-! ### Replaying a log -/

theorem run_replayEvent (h : Replays s e t) : (replayEvent e).run s = .ok () t := by
  unfold replayEvent appendReplayedEvent
  rw [Method.run_bind_eq_ok]
  refine ⟨.appended e.sequence, t, ?_, rfl⟩
  rw [Method.run_read_bind, id, h.1, Method.run_check_bind_ok, run_appendValidatedEvent_eq_ok,
    tryAppend_eq_ok]
  exact .inr ⟨h.2, rfl⟩

/-- What one turn of a replay did: nothing, for a duplicate, or accept the event. -/
theorem of_run_replayEvent {x : Unit} (h : (replayEvent e).run s = .ok x t) :
    (s.HasEvent e.eventId ∧ t = s) ∨ Replays s e t := by
  unfold replayEvent appendReplayedEvent at h
  obtain ⟨outcome, u, happend, hdone⟩ := Method.run_bind_eq_ok.mp h
  cases hdone
  rw [Method.run_read_bind, id] at happend
  obtain ⟨_, _, hcheck, hrun⟩ := Method.run_bind_eq_ok.mp happend
  obtain ⟨hversion, rfl⟩ := Method.run_check_eq_ok.mp hcheck
  rw [run_appendValidatedEvent_eq_ok, tryAppend_eq_ok] at hrun
  rcases hrun with ⟨existing, -, -, hfind, -, -, rfl⟩ | ⟨haccepts, -⟩
  · have ⟨hmem, hid⟩ := eventById_eq_some hfind
    exact .inl ⟨⟨existing, hmem, hid⟩, rfl⟩
  · exact .inr ⟨hversion, haccepts⟩

variable {events : List RunEvent}

theorem fromEvents_eq_ok :
    fromEvents events = .ok s ↔ ∃ first rest o, events = first :: rest ∧ Opens o first ∧
      (Method.each replayEvent events).run o = .ok () s := by
  cases events with
  | nil => simp [fromEvents]
  | cons first rest =>
    simp only [fromEvents, bind_eq_ok, exists_unit, List.head?_cons, okOr_some, ok_bind, okOr_eq_ok,
      validateIdentifier_eq_ok, Method.build_eq_ok]
    constructor
    · rintro ⟨opening, hopening, hsession, hrun, h⟩
      exact ⟨first, rest, _, rfl, ⟨_, _, hopening, hsession, hrun, rfl⟩, h⟩
    · rintro ⟨_, _, o, heq, ⟨sessionId, durability, hopening, hsession, hrun, rfl⟩, h⟩
      cases heq
      exact ⟨_, hopening, hsession, hrun, h⟩

/-- One more accepted event is one more replayed. -/
theorem fromEvents_append (h : fromEvents events = .ok s)
    (he : Replays s e t) : fromEvents (events ++ [e]) = .ok t := by
  obtain ⟨first, rest, o, rfl, ho, hrun⟩ := fromEvents_eq_ok.mp h
  refine fromEvents_eq_ok.mpr ⟨first, rest ++ [e], o, rfl, ho, ?_⟩
  rw [Method.run_each_append_eq_ok]
  refine ⟨s, hrun, ?_⟩
  rw [Method.run_each_singleton]
  exact run_replayEvent he

theorem fromEvents_append_path {more : List RunEvent} (h : fromEvents events = .ok s)
    (hpath : Path Replays s more t) : fromEvents (events ++ more) = .ok t := by
  induction hpath generalizing events with
  | nil => rwa [List.append_nil]
  | cons he _ ih =>
    rw [List.append_cons]
    exact ih (fromEvents_append h he)

/-- **A run is its log replayed.** -/
theorem Logged.fromEvents (h : Logged s) : fromEvents s.events = .ok s := by
  induction h with
  | @opened o t e ho h =>
    refine fromEvents_eq_ok.mpr ⟨e, [], o, by rw [h.2.events, ho.events]; rfl, ho, ?_⟩
    rw [h.2.events, ho.events, List.nil_append, Method.run_each_singleton]
    exact run_replayEvent h
  | extended hs h ih =>
    rw [h.2.events]
    exact fromEvents_append ih h

variable {post pre : List RunEvent}

/-- A log is cut where its events are cut: a run lies between the two parts. -/
theorem Logged.split (hs : Logged s) (hlog : s.events = pre ++ post)
    (hpre : pre ≠ []) : ∃ m, Logged m ∧ m.events = pre ∧ Path Replays m post s := by
  induction hs generalizing post with
  | @opened o t e ho h =>
    have hone : pre ++ post = [e] := by rw [← hlog, h.2.events, ho.events, List.nil_append]
    rcases List.append_eq_singleton_iff.mp hone with ⟨hnil, -⟩ | ⟨rfl, rfl⟩
    · exact absurd hnil hpre
    · exact ⟨t, .opened ho h, by rw [hlog, List.append_nil], .nil t⟩
  | @extended s t e hs h ih =>
    rcases List.eq_nil_or_concat' post with rfl | ⟨front, last, rfl⟩
    · exact ⟨t, .extended hs h, by rw [hlog, List.append_nil], .nil t⟩
    · rw [h.2.events, ← List.append_assoc] at hlog
      obtain ⟨hfront, hlast⟩ := List.append_inj' hlog rfl
      cases hlast
      obtain ⟨m, hm, hevents, hpath⟩ := ih hfront
      exact ⟨m, hm, hevents, hpath.append (.single h)⟩

/-- The run between the two parts of a log is the replay of the first. -/
theorem Logged.path {m : RunState} (hs : Logged s)
    (hlog : s.events = pre ++ post) (hm : RunState.fromEvents pre = .ok m) :
    Logged m ∧ m.events = pre ∧ Path Replays m post s := by
  have hpre : pre ≠ [] := by
    rintro rfl
    cases hm
  obtain ⟨m', hm', hevents, hpath⟩ := hs.split hlog hpre
  have hsame := hm'.fromEvents
  rw [hevents, hm] at hsame
  cases hsame
  exact ⟨hm', hevents, hpath⟩

/-- Replaying events onto a run takes it to a run of the same kind. -/
theorem Logged.each_replayEvent (hs : Logged s)
    (h : (Method.each replayEvent events).run s = .ok () t) : Logged t := by
  induction events generalizing s with
  | nil =>
    cases h
    exact hs
  | cons e rest ih =>
    obtain ⟨_, u, hhead, hrest⟩ := Method.run_bind_eq_ok.mp h
    rcases of_run_replayEvent hhead with ⟨-, rfl⟩ | hreplays
    · exact ih hs hrest
    · exact ih (.extended hs hreplays) hrest

/-- Replaying yields nothing but logged runs. -/
theorem logged_of_fromEvents (h : fromEvents events = .ok s) :
    Logged s := by
  obtain ⟨first, rest, o, rfl, ho, hrun⟩ := fromEvents_eq_ok.mp h
  obtain ⟨_, u, hfirst, hrest⟩ := Method.run_bind_eq_ok.mp hrun
  rcases of_run_replayEvent hfirst with ⟨⟨e', he', -⟩, -⟩ | hreplays
  · -- a blank log holds no duplicate of its first event
    rw [ho.events] at he'
    cases he'
  · exact (Logged.opened ho hreplays).each_replayEvent hrest

end

end RunState

end AikitRuntime.Durability
