import AikitRuntime.Durability.Approvals
import AikitRuntime.Durability.Finished

/-!
# What awaits, and what is resolved

Two views of a projection, and what each event of a run makes of them: the attempts that await
reconciliation, and the approvals that are resolved. An assertion about a log knows no more of
the run than these.
-/

namespace AikitRuntime.Durability

open Library

namespace ActivityRecord

variable {r r' : ActivityRecord} {m n : Nat} {found new : ActivityAttempt}

/-- An attempt of that number awaits reconciliation. -/
def Awaits (r : ActivityRecord) (attempt : Nat) : Prop :=
  ∃ a ∈ r.attempts, a.attempt = attempt ∧ a.status = .reconcileRequired

theorem awaits_iff : r.Awaits n ↔
    ∃ (i : Nat) (a : ActivityAttempt), r.attempts[i]? = some a ∧ a.attempt = n ∧
      a.status = .reconcileRequired := by
  unfold Awaits
  constructor
  · rintro ⟨a, ha, hnumber, hstatus⟩
    obtain ⟨i, hi⟩ := List.mem_iff_getElem?.mp ha
    exact ⟨i, a, hi, hnumber, hstatus⟩
  · rintro ⟨i, a, hi, hnumber, hstatus⟩
    exact ⟨a, List.mem_of_getElem? hi, hnumber, hstatus⟩

/-- An attempt that awaits reconciliation is the first one of its number. -/
def FirstAwaits (r : ActivityRecord) : Prop :=
  ∀ (i : Nat) (a : ActivityAttempt), r.attempts[i]? = some a → a.status = .reconcileRequired →
    ∀ (j : Nat) (b : ActivityAttempt), j < i → r.attempts[j]? = some b → b.attempt ≠ a.attempt

theorem FirstAwaits.push (hr : r.FirstAwaits)
    (hnew : new.status = .reconcileRequired → r.attempts = []) : (r.pushAttempt new).FirstAwaits := by
  intro i a ha hstatus j b hj hb
  rw [pushAttempt_attempts] at ha hb
  by_cases hi : i < r.attempts.length
  · rw [List.getElem?_append_left hi] at ha
    rw [List.getElem?_append_left (by omega)] at hb
    exact hr i a ha hstatus j b hj hb
  · have hlength := (List.getElem?_eq_some_iff.mp ha).1
    rw [List.length_append, List.length_singleton] at hlength
    obtain rfl : i = r.attempts.length := by omega
    rw [List.getElem?_concat_length] at ha
    cases ha
    rw [hnew hstatus] at hj
    cases hj

theorem FirstAwaits.set (hr : r.FirstAwaits) (hfind : r.findAttempt m = some found)
    (hnew : new.attempt = m) : (r.setAttempt m new).FirstAwaits := by
  obtain ⟨k, hk, hnumber, hbefore, hset⟩ := exists_index hfind
  intro i a ha hstatus j b hj hb
  rw [hset, List.getElem?_set] at ha hb
  by_cases hki : k = i
  · subst hki
    rw [if_pos rfl] at ha
    rw [if_neg (by omega)] at hb
    split at ha
    · cases ha
      rw [hnew]
      exact hbefore j b hj hb
    · cases ha
  · rw [if_neg hki] at ha
    by_cases hkj : k = j
    · subst hkj
      rw [if_pos rfl] at hb
      split at hb
      · cases hb
        rw [hnew, ← hnumber]
        exact hr i a ha hstatus k found hj hk
      · cases hb
    · rw [if_neg hkj] at hb
      exact hr i a ha hstatus j b hj hb

/-- The attempt that a number finds is the one that can await under it. -/
theorem awaits_of_find (hr : r.FirstAwaits) (hfind : r.findAttempt m = some found) :
    r.Awaits m ↔ found.status = .reconcileRequired := by
  obtain ⟨k, hk, hnumber, hbefore, -⟩ := exists_index hfind
  rw [awaits_iff]
  constructor
  · rintro ⟨i, a, ha, hm, hstatus⟩
    rcases Nat.lt_trichotomy i k with hlt | rfl | hgt
    · exact absurd hm (hbefore i a hlt ha)
    · rw [hk] at ha
      cases ha
      exact hstatus
    · exact absurd (hnumber.trans hm.symm) (hr i a ha hstatus k found hgt hk)
  · exact fun hstatus => ⟨k, found, hk, hnumber, hstatus⟩

theorem awaits_push :
    (r.pushAttempt new).Awaits n ↔ r.Awaits n ∨ (new.attempt = n ∧ new.status = .reconcileRequired) := by
  simp only [Awaits, pushAttempt_attempts, List.mem_append, List.mem_singleton]
  constructor
  · rintro ⟨a, ha | rfl, h⟩
    · exact .inl ⟨a, ha, h⟩
    · exact .inr h
  · rintro (⟨a, ha, h⟩ | h)
    · exact ⟨a, .inl ha, h⟩
    · exact ⟨new, .inr rfl, h⟩

/-- Writing an attempt decides about its own number alone. -/
theorem awaits_set (hr : r.FirstAwaits) (hfind : r.findAttempt m = some found)
    (hnew : new.attempt = m) : (r.setAttempt m new).Awaits n ↔
      (n = m ∧ new.status = .reconcileRequired) ∨ (n ≠ m ∧ r.Awaits n) := by
  by_cases hn : n = m
  · subst hn
    have hset := hr.set hfind hnew
    rw [awaits_of_find hset (findAttempt_setAttempt hfind hnew)]
    simp
  · obtain ⟨k, hk, hnumber, -, hset⟩ := exists_index hfind
    have hother : (r.setAttempt m new).Awaits n ↔ r.Awaits n := by
      rw [awaits_iff, awaits_iff]
      refine exists_congr fun i => exists_congr fun a => ?_
      rw [hset, List.getElem?_set]
      by_cases hki : k = i
      · subst hki
        have hlength := (List.getElem?_eq_some_iff.mp hk).1
        rw [if_pos rfl, if_pos hlength, hk]
        refine iff_of_false ?_ ?_
        · rintro ⟨ha, hi, -⟩
          cases ha
          exact hn (hi.symm.trans hnew)
        · rintro ⟨ha, hi, -⟩
          cases ha
          exact hn (hi.symm.trans hnumber)
      · rw [if_neg hki]
    simp [hn, hother]

section
variable [Digest] {version sequence : Nat} {id : String} {kind : RunEventKind}

theorem RecordStep.firstAwaits (h : RecordStep version sequence id r kind r') (hr : r.FirstAwaits) :
    r'.FirstAwaits := by
  cases h with
  | started => exact hr.push fun hstatus => nomatch hstatus
  | orphaned hempty => exact hr.push fun _ => hempty
  | completed hfind | failed _ hfind | cancelled _ hfind | quarantined hfind =>
    have hnumber := attempt_of_find hfind
    exact hr.set hfind hnumber
  | @reconciled _ resolution _ hfind =>
    have hnumber := attempt_of_find hfind
    exact hr.set hfind (by cases resolution <;> exact hnumber)

/-- The attempts of an imported checkpoint have distinct numbers. -/
theorem firstAwaits_of_validateActivityEntry (h : validateActivityEntry (id, r) = .ok ()) :
    r.FirstAwaits := by
  simp only [validateActivityEntry, bind_eq_ok, exists_unit, refuseIf_eq_ok, not_not,
    firstRefusal_eq_ok, Prod.forall] at h
  obtain ⟨-, -, -, -, -, -, hattempts⟩ := h
  have hnumber : ∀ i a, r.attempts[i]? = some a → a.attempt = i + 1 := by
    intro i a ha
    have hentry := hattempts a i (List.mem_zipIdx_iff_getElem?.mpr ha)
    simp only [validateAttemptEntry, bind_eq_ok, exists_unit, refuseIf_eq_ok, not_or, not_not] at hentry
    exact hentry.2.1.1
  intro i a ha _ j b hj hb heq
  rw [hnumber i a ha, hnumber j b hb] at heq
  omega

end

end ActivityRecord

open ActivityRecord

/-- The attempt that an event says to require reconciliation. -/
def requirementOf : RunEventKind → Option (String × Nat)
  | .activityReconciliationRequired activityId attempt _ => some (activityId, attempt)
  | _ => none

/-- The attempt that an event reconciles. -/
def reconciliationOf : RunEventKind → Option (String × Nat)
  | .activityReconciled activityId attempt _ => some (activityId, attempt)
  | _ => none

/-- An attempt, named by its activity and its number, awaits reconciliation. -/
def RunProjection.Awaits (projection : RunProjection) (key : String × Nat) : Prop :=
  ∃ r, projection.activities[key.1]? = some r ∧ r.Awaits key.2

/-- The approval that an event requests. -/
def requestOf : RunEventKind → Option String
  | .approvalRequested approvalId _ _ _ _ => some approvalId
  | _ => none

/-- The approval that an event resolves, and how. -/
def resolutionOf : RunEventKind → Option (String × Bool)
  | .approvalResolved approvalId approved _ => some (approvalId, approved)
  | _ => none

/-- The projection has the approval. -/
def RunProjection.Knows (projection : RunProjection) (approvalId : String) : Prop :=
  projection.approvals[approvalId]? ≠ none

/-- The projection has the approval, and it is resolved that way. -/
def RunProjection.Resolves (projection : RunProjection) (approvalId : String) (approved : Bool) :
    Prop :=
  ∃ p, projection.approvals[approvalId]? = some p ∧
    p.status = if approved then .approved else .rejected

section
variable [Digest]

namespace RunState

variable {s t : RunState} {version sequence : Nat} {kind : RunEventKind} {id : String} {n : Nat}

/-- **An attempt that awaits reconciliation is the first one of its number**, in every run. -/
theorem Logged.firstAwaits (hs : Logged s) : s.Satisfies fun _ r => r.FirstAwaits := by
  refine hs.satisfies (fun id r h _ => firstAwaits_of_validateActivityEntry h) ?_
    fun _ _ _ _ _ _ _ hr hstep => hstep.firstAwaits hr
  intro s version definition _ _ _ i a ha
  cases ha

omit [Digest] in
/-- Writing the record of one activity decides about that activity alone. -/
theorem awaits_insert {r r' : ActivityRecord} {projection projection' : RunProjection}
    (hget : projection.activities[id]? = some r)
    (h : projection'.activities = projection.activities.insert id r')
    {needs settles : Option (String × Nat)}
    (hneeds : ∀ key, needs = some key → key.1 = id) (hsettles : ∀ key, settles = some key → key.1 = id)
    (hrecord : ∀ n, r'.Awaits n ↔ (r.Awaits n ∧ settles ≠ some (id, n)) ∨ needs = some (id, n))
    (key : String × Nat) :
    projection'.Awaits key ↔ (projection.Awaits key ∧ settles ≠ some key) ∨ needs = some key := by
  obtain ⟨a, n⟩ := key
  unfold RunProjection.Awaits
  rw [h]
  by_cases ha : id = a
  · subst ha
    simp only [BTreeMap.get_insert_self, hget, Option.some.injEq, exists_eq_left', hrecord]
  · have hsettled : settles ≠ some (a, n) := fun heq => ha (hsettles _ heq).symm
    have hneeded : needs ≠ some (a, n) := fun heq => ha (hneeds _ heq).symm
    simp only [BTreeMap.get_insert_of_ne ha, ne_eq, hsettled, hneeded, not_false_eq_true, and_true,
      or_false]

/-- An event of now reconciles an attempt that awaits it. -/
theorem Transition.reconciles {attempt : Nat} {resolution : ActivityReconciliation}
    (h : Transition s version sequence (.activityReconciled id attempt resolution) t)
    (hlegacy : ∀ (id : String) (r : ActivityRecord), s.projection.activities[id]? = some r →
      r.definition.stableStepId ≠ legacyRunStoppedAuditStepId) :
    ∃ r found, s.projection.activities[id]? = some r ∧ r.findAttempt attempt = some found ∧
      found.status = .reconcileRequired ∧
      t.projection.activities = s.projection.activities.insert id
        (r.setAttempt attempt (resolveAttempt sequence found resolution)) := by
  cases h with
  | @activityReconciled _ _ _ record found hget _ _ hfind hstatus =>
    refine ⟨record, found, hget, hfind, ?_, by dsimp only; split <;> rfl⟩
    refine hstatus.resolve_right fun hattest => ?_
    exact hlegacy id record hget (isTerminalLegacyAttestation_eq_true hattest).2.1

/-- A record that is neither required to be reconciled nor reconciled awaits as before. -/
theorem awaits_of_recordStep {r r' : ActivityRecord} (hr : r.FirstAwaits)
    (h : RecordStep version sequence id r kind r') (hneeds : requirementOf kind = none)
    (hsettles : reconciliationOf kind = none) : r'.Awaits n ↔ r.Awaits n := by
  cases h with
  | started => simp [awaits_push, startedAttempt]
  | orphaned | quarantined => cases hneeds
  | reconciled => cases hsettles
  | completed hfind hstatus | failed _ hfind hstatus | cancelled _ hfind hstatus =>
    have hnumber := attempt_of_find hfind
    rw [awaits_set hr hfind (by exact hnumber)]
    simp only [completedAttempt, failedAttempt, cancelledAttempt, reduceCtorEq, and_false, false_or,
      and_iff_right_iff_imp]
    rintro hawaits rfl
    rw [awaits_of_find hr hfind, hstatus] at hawaits
    cases hawaits

/-- An event of another kind leaves the attempts that await alone. -/
theorem Transition.awaits_other (h : Transition s version sequence kind t)
    (hfirst : ∀ (id : String) (r : ActivityRecord), s.projection.activities[id]? = some r →
      r.FirstAwaits)
    (hneeds : requirementOf kind = none) (hsettles : reconciliationOf kind = none)
    (hkind : ¬ kind.IsRewind) (key : String × Nat) :
    t.projection.Awaits key ↔ s.projection.Awaits key := by
  have hnone (id : String) (o : Option (String × Nat)) (ho : o = none) :
      ∀ key, o = some key → key.1 = id := by
    rintro key heq
    rw [ho] at heq
    cases heq
  cases h.reshapes with
  | kept hkept => unfold RunProjection.Awaits; rw [hkept]
  | @scheduled definition _ hfresh _ _ _ hinsert =>
    unfold RunProjection.Awaits
    rw [hinsert]
    by_cases hid : definition.activityId = key.1
    · rw [← hid, BTreeMap.get_insert_self, hfresh]
      refine iff_of_false ?_ ?_
      · rintro ⟨r, heq, a, ha, -⟩
        cases heq
        cases ha
      · rintro ⟨r, heq, -⟩
        cases heq
    · rw [BTreeMap.get_insert_of_ne hid]
  | @stepped id r r' hget hstep hinsert =>
    have hrecord := fun n => awaits_of_recordStep (n := n) (hfirst id r hget) hstep hneeds hsettles
    rw [awaits_insert hget hinsert (hnone id none rfl) (hnone id none rfl) (fun n => ?_) key]
    · simp
    · simp [hrecord n]
  | rewound hrewind => exact absurd ⟨_, _, _, hrewind⟩ hkind

/-- An event that requires reconciliation is about an attempt that did not await it. -/
theorem Transition.requires {attempt : Nat} {reason : String}
    (h : Transition s version sequence (.activityReconciliationRequired id attempt reason) t)
    (hfirst : ∀ (id : String) (r : ActivityRecord), s.projection.activities[id]? = some r →
      r.FirstAwaits) :
    ∃ r r', s.projection.activities[id]? = some r ∧ ¬ r.Awaits attempt ∧
      (∀ n, r'.Awaits n ↔ r.Awaits n ∨ n = attempt) ∧
      t.projection.activities = s.projection.activities.insert id r' := by
  cases h with
  | @activityOrphaned _ _ r _ _ _ hget hempty =>
    refine ⟨r, _, hget, ?_, fun n => ?_, by dsimp only; split <;> rfl⟩
    · rintro ⟨a, ha, -⟩
      rw [hempty] at ha
      cases ha
    · rw [awaits_push]
      simp [orphanAttempt, eq_comm]
  | @activityQuarantined _ _ _ r found _ _ _ hget hfind hstatus =>
    have hr := hfirst id r hget
    have hnumber := attempt_of_find hfind
    refine ⟨r, _, hget, ?_, fun n => ?_, by dsimp only; split <;> rfl⟩
    · rw [awaits_of_find hr hfind]
      rcases hstatus with hstatus | hstatus <;> simp [hstatus]
    · rw [awaits_set hr hfind (by exact hnumber)]
      by_cases hn : n = attempt <;> simp [hn, quarantinedAttempt]

/-- **What an event other than a rewind does to the attempts that await**: one that requires
reconciliation adds an attempt that did not await, and one that reconciles takes one away. -/
theorem Transition.awaits (h : Transition s version sequence kind t)
    (hfirst : ∀ (id : String) (r : ActivityRecord), s.projection.activities[id]? = some r →
      r.FirstAwaits)
    (hlegacy : ∀ (id : String) (r : ActivityRecord), s.projection.activities[id]? = some r →
      r.definition.stableStepId ≠ legacyRunStoppedAuditStepId)
    (hkind : ¬ kind.IsRewind) :
    (∀ key, t.projection.Awaits key ↔
      (s.projection.Awaits key ∧ reconciliationOf kind ≠ some key) ∨ requirementOf kind = some key) ∧
    (∀ key, requirementOf kind = some key → ¬ s.projection.Awaits key) ∧
    ∀ key, reconciliationOf kind = some key → s.projection.Awaits key := by
  cases kind with
  | activityReconciled id attempt resolution =>
    obtain ⟨r, found, hget, hfind, hstatus, hinsert⟩ := h.reconciles hlegacy
    have hr := hfirst id r hget
    have hnumber := attempt_of_find hfind
    refine ⟨fun key => ?_, ?_, ?_⟩
    · refine awaits_insert hget hinsert ?_ ?_ (fun n => ?_) key
      · rintro _ ⟨⟩
      · rintro _ ⟨⟩
        rfl
      · have hnew : (resolveAttempt sequence found resolution).attempt = attempt := by
          cases resolution <;> exact hnumber
        have hsettled : (resolveAttempt sequence found resolution).status ≠ .reconcileRequired := by
          cases resolution <;> simp [resolveAttempt]
        rw [awaits_set hr hfind hnew]
        simp [hsettled, reconciliationOf, requirementOf, and_comm, eq_comm]
    · rintro _ ⟨⟩
    · rintro _ ⟨⟩
      exact ⟨r, hget, (awaits_of_find hr hfind).mpr hstatus⟩
  | activityReconciliationRequired id attempt reason =>
    obtain ⟨r, r', hget, hnot, hrecord, hinsert⟩ := h.requires hfirst
    refine ⟨fun key => ?_, ?_, ?_⟩
    · refine awaits_insert hget hinsert ?_ ?_ (fun n => ?_) key
      · rintro _ ⟨⟩
        rfl
      · rintro _ ⟨⟩
      · rw [hrecord n]
        simp [reconciliationOf, requirementOf, eq_comm]
    · rintro _ ⟨⟩ ⟨r₀, hget₀, hawaits⟩
      rw [hget] at hget₀
      cases hget₀
      exact hnot hawaits
    · rintro _ ⟨⟩
  | _ =>
    refine ⟨fun key => ?_, ?_, ?_⟩
    · rw [h.awaits_other hfirst rfl rfl hkind]
      simp [reconciliationOf, requirementOf]
    · rintro _ ⟨⟩
    · rintro _ ⟨⟩

/-! ### Approvals -/

/-- An event that neither requests nor resolves an approval leaves the approvals alone. -/
theorem Transition.approvals_other (h : Transition s version sequence kind t)
    (hrequest : requestOf kind = none) (hresolution : resolutionOf kind = none)
    (hkind : ¬ kind.IsRewind) : t.projection.approvals = s.projection.approvals := by
  cases h with
  | approvalRequested => cases hrequest
  | approvalResolved => cases hresolution
  | runRewound => exact absurd ⟨_, _, _, rfl⟩ hkind
  | activityOrphaned => split <;> rfl
  | activityQuarantined => dsimp only; split <;> rfl
  | activityReconciled => dsimp only; split <;> rfl
  | _ => rfl

/-- **What an event other than a rewind does to the approvals that are there**: a request adds
one that was not there. -/
theorem Transition.knows (h : Transition s version sequence kind t) (hkind : ¬ kind.IsRewind) :
    (∀ a, t.projection.Knows a ↔ s.projection.Knows a ∨ requestOf kind = some a) ∧
      ∀ a, requestOf kind = some a → ¬ s.projection.Knows a := by
  cases kind with
  | approvalRequested approvalId =>
    cases h with
    | approvalRequested _ _ hfresh =>
      refine ⟨fun a => ?_, ?_⟩
      · show (s.projection.approvals.insert _ _)[a]? ≠ none ↔ s.projection.approvals[a]? ≠ none ∨ _
        rw [BTreeMap.get_insert]
        by_cases ha : approvalId = a <;> simp [ha, requestOf]
      · rintro _ ⟨⟩ hknows
        exact hknows hfresh
  | approvalResolved approvalId =>
    cases h with
    | approvalResolved hget =>
      refine ⟨fun a => ?_, ?_⟩
      · show (s.projection.approvals.insert _ _)[a]? ≠ none ↔ s.projection.approvals[a]? ≠ none ∨ _
        rw [BTreeMap.get_insert]
        by_cases ha : approvalId = a
        · subst ha
          simp [hget]
        · simp [ha, requestOf]
      · rintro _ ⟨⟩
  | _ =>
    refine ⟨fun a => ?_, ?_⟩
    · unfold RunProjection.Knows
      rw [h.approvals_other rfl rfl hkind]
      simp [requestOf]
    · rintro _ ⟨⟩

/-- **What an event other than a rewind does to the approvals that are resolved**: a resolution
adds one that was there and was not resolved. -/
theorem Transition.resolves (h : Transition s version sequence kind t) (hkind : ¬ kind.IsRewind) :
    (∀ a b, t.projection.Resolves a b ↔ s.projection.Resolves a b ∨ resolutionOf kind = some (a, b)) ∧
      ∀ a b, resolutionOf kind = some (a, b) →
        s.projection.Knows a ∧ ∀ b', ¬ s.projection.Resolves a b' := by
  cases kind with
  | approvalRequested approvalId =>
    cases h with
    | approvalRequested _ _ hfresh =>
      refine ⟨fun a b => ?_, ?_⟩
      · show (∃ p, (s.projection.approvals.insert _ _)[a]? = some p ∧ _) ↔
          (∃ p, s.projection.approvals[a]? = some p ∧ _) ∨ _
        rw [BTreeMap.get_insert]
        by_cases ha : approvalId = a
        · subst ha
          cases b <;> simp [hfresh, resolutionOf, requestedApproval]
        · simp [ha, resolutionOf]
      · rintro _ _ ⟨⟩
  | approvalResolved approvalId approved =>
    cases h with
    | @approvalResolved _ _ _ approval _ hget hpending =>
      refine ⟨fun a b => ?_, ?_⟩
      · show (∃ p, (s.projection.approvals.insert _ _)[a]? = some p ∧ _) ↔
          (∃ p, s.projection.approvals[a]? = some p ∧ _) ∨ _
        rw [BTreeMap.get_insert]
        by_cases ha : approvalId = a
        · subst ha
          cases b <;> cases approved <;> simp [hget, hpending, resolutionOf]
        · simp [ha, resolutionOf]
      · rintro _ _ ⟨⟩
        refine ⟨by simp [RunProjection.Knows, hget], ?_⟩
        rintro b' ⟨p, hp, hstatus⟩
        rw [hget] at hp
        cases hp
        rw [hpending] at hstatus
        cases b' <;> cases hstatus
  | _ =>
    refine ⟨fun a b => ?_, ?_⟩
    · unfold RunProjection.Resolves
      rw [h.approvals_other rfl rfl hkind]
      simp [resolutionOf]
    · rintro _ _ ⟨⟩

end RunState

end

end AikitRuntime.Durability
