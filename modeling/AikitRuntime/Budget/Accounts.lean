import AikitRuntime.Library.Paths
import AikitRuntime.Budget.Reservations

/-!
# What a run leaves in the ledger

Capacity is in one of three places: in the map of reservations, in the committed counters, or in
no place any more. The invariant is `Accounts`: the map holds what is outstanding, and as many
model calls are committed as there are reservations that were started and are settled.
-/

namespace AikitRuntime.Budget

open Library Durability Method BudgetSystem

/-! ### Sums over the slots -/

section
variable {α : Type} {xs : List α} {n : Nat} {x y : α}

/-- A list with another item at one place. -/
theorem exists_split_set (h : xs[n]? = some x) :
    ∃ pre post, xs = pre ++ x :: post ∧ xs.set n y = pre ++ y :: post ∧ pre.length = n := by
  obtain ⟨hlt, hget⟩ := List.getElem?_eq_some_iff.mp h
  refine ⟨xs.take n, xs.drop (n + 1), ?_, ?_, List.length_take_of_le (Nat.le_of_lt hlt)⟩
  · rw [← hget, List.getElem_cons_drop, List.take_append_drop]
  · exact List.set_eq_take_cons_drop y hlt

theorem countP_set (p : α → Bool) (h : xs[n]? = some x) :
    (xs.set n y).countP p + (p x).toNat = xs.countP p + (p y).toNat := by
  obtain ⟨pre, post, hxs, hset, -⟩ := exists_split_set (y := y) h
  rw [hset, hxs, List.countP_append, List.countP_append, List.countP_cons, List.countP_cons]
  cases p x <;> cases p y <;> simp <;> omega

theorem sum_filter_set (p : α → Bool) (f : α → Nat) (h : xs[n]? = some x) :
    (((xs.set n y).filter p).map f).sum + (if p x then f x else 0) =
      ((xs.filter p).map f).sum + (if p y then f y else 0) := by
  obtain ⟨pre, post, hxs, hset, -⟩ := exists_split_set (y := y) h
  rw [hset, hxs, List.filter_append, List.filter_append, List.filter_cons, List.filter_cons]
  cases p x <;> cases p y <;> simp <;> omega

end

section
variable {Pricing : Type} {ledger : BudgetLedger}
  {costMicroUsd : Pricing → Usage → Except BudgetLedgerError Nat} {s t : BudgetSystem Pricing}
  {act : Act Pricing} {n : Nat} {slot : Slot Pricing}

/-! ### Totals -/

/-- The saturating totals are the totals, as far as these fit. -/
theorem reservationTotals_eq (state : LedgerState Pricing) :
    reservationTotals state =
      ⟨min (NumberMap.total (fun _ => 1) state.reservations) u64Max,
        min (NumberMap.total (·.values.inputTokens) state.reservations) u64Max,
        min (NumberMap.total (·.values.outputTokens) state.reservations) u64Max,
        min (NumberMap.total (·.values.costMicroUsd) state.reservations) u64Max⟩ := by
  have hfold (entries : List (ReservationEntry Pricing)) (totals : Totals) :
      entries.foldl (fun totals reservation =>
        { calls := saturatingAdd totals.calls 1
          inputTokens := saturatingAdd totals.inputTokens reservation.values.inputTokens
          outputTokens := saturatingAdd totals.outputTokens reservation.values.outputTokens
          costMicroUsd := saturatingAdd totals.costMicroUsd reservation.values.costMicroUsd }) totals =
        ⟨(entries.map fun _ => 1).foldl saturatingAdd totals.calls,
          (entries.map (·.values.inputTokens)).foldl saturatingAdd totals.inputTokens,
          (entries.map (·.values.outputTokens)).foldl saturatingAdd totals.outputTokens,
          (entries.map (·.values.costMicroUsd)).foldl saturatingAdd totals.costMicroUsd⟩ := by
    induction entries generalizing totals with
    | nil => rfl
    | cons entry entries ih => rw [List.foldl_cons, ih]; rfl
  unfold reservationTotals NumberMap.total
  rw [hfold]
  simp only [foldl_saturatingAdd _ 0 (Nat.zero_le _), Nat.zero_add]

/-- Totals that are below the largest value are the sums over what is outstanding. -/
theorem BudgetSystem.Below.totals (hb : s.Below) :
    reservationTotals s.ledger =
      ⟨NumberMap.total (fun _ => 1) s.ledger.reservations,
        NumberMap.total (·.values.inputTokens) s.ledger.reservations,
        NumberMap.total (·.values.outputTokens) s.ledger.reservations,
        NumberMap.total (·.values.costMicroUsd) s.ledger.reservations⟩ := by
  obtain ⟨-, hcalls, hinput, houtput, hcost⟩ := hb
  rw [used, reservationTotals_eq] at hcalls hinput houtput hcost
  rw [reservationTotals_eq]
  simp only [Totals.mk.injEq]
  dsimp only at hcalls hinput houtput hcost
  omega

/-! ### The account is kept -/

variable {held : Held Pricing} {stage : Stage}

/-- A change to one slot, with the entry that goes with it. -/
theorem Accounts.put (ha : Accounts ledger s) (hslot : s.slots[n]? = some slot)
    (hid : held.reservation.id = slot.reservation.id)
    (hinner : held.reservation.inner = slot.reservation.inner)
    (hnext : held.ledger.nextId = s.ledger.nextId)
    (hgone : ({ slot with reservation := held.reservation, stage } : Slot Pricing).Outstanding →
      slot.Outstanding)
    (hmap : held.ledger.reservations =
      if ({ slot with reservation := held.reservation, stage } : Slot Pricing).Outstanding then
        s.ledger.reservations.insert (n + 1) ⟨slot.values, held.reservation.state⟩
      else s.ledger.reservations.erase (n + 1))
    (hcalls : held.ledger.committedCalls + (decide slot.Settled).toNat =
      s.ledger.committedCalls + (decide
        ({ slot with reservation := held.reservation, stage } : Slot Pricing).Settled).toNat) :
    Accounts ledger (s.put n slot held stage) := by
  obtain ⟨hid', hinner'⟩ := ha.handles n slot hslot
  have hlt : n < s.slots.length := (List.getElem?_eq_some_iff.mp hslot).1
  have hentry := ha.entries n slot hslot
  generalize hslot' : ({ slot with reservation := held.reservation, stage } : Slot Pricing) = slot'
    at hgone hmap hcalls
  have hput : s.put n slot held stage = ⟨held.ledger, s.slots.set n slot'⟩ := by
    rw [← hslot']
    rfl
  have hother {k : Nat} (hk : k ≠ n + 1) :
      held.ledger.reservations[k]? = s.ledger.reservations[k]? := by
    rw [hmap]
    split
    · exact NumberMap.get_insert_of_ne (Ne.symm hk)
    · rw [NumberMap.get_erase, if_neg (Ne.symm hk)]
  have hslots {k : Nat} {other : Slot Pricing} (hk : (s.slots.set n slot')[k]? = some other) :
      k = n ∧ other = slot' ∨ k ≠ n ∧ s.slots[k]? = some other := by
    rw [List.getElem?_set] at hk
    split at hk
    · next heq =>
      exact .inl ⟨heq.symm, (Option.some.inj hk).symm⟩
    · next hne => exact .inr ⟨Ne.symm hne, hk⟩
  rw [hput]
  refine ⟨?_, fun k other hk => ?_, fun k other hk => ?_, fun id hid => ?_, ?_, fun f => ?_⟩
  · rw [hnext, List.length_set]
    exact ha.nextId
  · rcases hslots hk with ⟨rfl, rfl⟩ | ⟨-, hold⟩
    · rw [← hslot']
      exact ⟨hid.trans hid', hinner.trans hinner'⟩
    · exact ha.handles k other hold
  · rcases hslots hk with ⟨rfl, rfl⟩ | ⟨hne, hold⟩
    · show held.ledger.reservations[k + 1]? = _
      rw [hmap]
      split
      · rw [NumberMap.get_insert, if_pos rfl, ← hslot']
      · rw [NumberMap.get_erase, if_pos rfl]
    · show held.ledger.reservations[k + 1]? = _
      rw [hother (by omega)]
      exact ha.entries k other hold
  · rw [List.length_set] at hid
    show held.ledger.reservations[id]? = none
    rw [hother (by omega)]
    exact ha.noOthers id hid
  · have hcount := countP_set (fun slot : Slot Pricing => decide slot.Settled) (y := slot') hslot
    have hold := ha.calls
    show held.ledger.committedCalls = (s.slots.set n slot').countP _
    omega
  · have hsum := sum_filter_set (fun slot : Slot Pricing => decide slot.Outstanding)
      (fun slot => f slot.values) (y := slot') hslot
    have hvalues : slot'.values = slot.values := by rw [← hslot']
    have hold := ha.totals f
    show NumberMap.total _ held.ledger.reservations = (((s.slots.set n slot').filter _).map _).sum
    rw [hmap]
    by_cases hout : slot.Outstanding
    · rw [if_pos hout] at hentry
      by_cases hout' : slot'.Outstanding
      · have htotal := NumberMap.total_replace (fun entry => f entry.values)
          (w := ⟨slot.values, held.reservation.state⟩) hentry
        dsimp only at htotal
        simp only [hout, hout', decide_true, if_true, hvalues] at hsum ⊢
        omega
      · have htotal := NumberMap.total_erase (fun entry => f entry.values) hentry
        dsimp only at htotal
        simp only [hout, hout', decide_true, decide_false, if_true, if_false, Bool.false_eq_true] at hsum ⊢
        omega
    · have hout' : ¬ slot'.Outstanding := mt hgone hout
      rw [if_neg hout] at hentry
      rw [if_neg hout', NumberMap.erase_of_none hentry]
      simp only [hout, hout', decide_false, if_false, Bool.false_eq_true] at hsum
      omega

theorem BudgetSystem.Below.committed (hb : s.Below) :
    s.ledger.committedCalls < u64Max ∧ s.ledger.committedInput < u64Max ∧
      s.ledger.committedOutput < u64Max ∧ s.ledger.committedCost < u64Max :=
  ⟨Nat.lt_of_le_of_lt (Nat.le_add_right _ _) hb.calls,
    Nat.lt_of_le_of_lt (Nat.le_add_right _ _) hb.input,
    Nat.lt_of_le_of_lt (Nat.le_add_right _ _) hb.output,
    Nat.lt_of_le_of_lt (Nat.le_add_right _ _) hb.cost⟩

/-- A handle that goes on with the reservation as it was. -/
theorem Accounts.same (ha : Accounts ledger s) (hslot : s.slots[n]? = some slot)
    (hout : ({ slot with stage } : Slot Pricing).Outstanding ↔ slot.Outstanding) :
    Accounts ledger (s.put n slot ⟨s.ledger, slot.reservation⟩ stage) := by
  have hsettled : ({ slot with stage } : Slot Pricing).Settled ↔ slot.Settled :=
    and_congr_right fun _ => not_congr hout
  refine ha.put hslot rfl rfl rfl hout.mp ?_ ?_
  · have hentry := ha.entries n slot hslot
    by_cases h : slot.Outstanding
    · rw [if_pos h] at hentry
      exact ((if_pos (hout.mpr h)).trans (NumberMap.insert_same hentry)).symm
    · rw [if_neg h] at hentry
      exact ((if_neg (mt hout.mp h)).trans (NumberMap.erase_of_none hentry)).symm
  · exact congrArg (s.ledger.committedCalls + ·.toNat) (decide_eq_decide.mpr hsettled.symm)

/-- A reservation is appended. -/
theorem Accounts.append (ha : Accounts ledger s) {values : ReservationValues Pricing}
    (hnext : saturatingAdd s.ledger.nextId 1 < u64Max) :
    Accounts ledger
      ⟨{ s.ledger with
          nextId := saturatingAdd s.ledger.nextId 1
          reservations := s.ledger.reservations.insert (saturatingAdd s.ledger.nextId 1)
            ⟨values, .reserved⟩ },
        s.slots ++ [⟨values, ⟨saturatingAdd s.ledger.nextId 1, ledger.identity, .reserved⟩,
          .held⟩]⟩ := by
  have hid : saturatingAdd s.ledger.nextId 1 = s.slots.length + 1 := by
    rw [saturatingAdd_of_lt hnext, ha.nextId]
  rw [hid]
  have hfresh : s.ledger.reservations[s.slots.length + 1]? = none :=
    ha.noOthers _ (Nat.lt_succ_self _)
  have hslots {k : Nat} {slot new : Slot Pricing} (hk : (s.slots ++ [new])[k]? = some slot) :
      s.slots[k]? = some slot ∧ k < s.slots.length ∨ k = s.slots.length ∧ slot = new := by
    by_cases hlt : k < s.slots.length
    · rw [List.getElem?_append_left hlt] at hk
      exact .inl ⟨hk, hlt⟩
    · have hlt' := (List.getElem?_eq_some_iff.mp hk).1
      rw [List.length_append, List.length_singleton] at hlt'
      have heq : k = s.slots.length := by omega
      subst heq
      rw [List.getElem?_concat_length] at hk
      exact .inr ⟨rfl, (Option.some.inj hk).symm⟩
  refine ⟨by simp, fun k slot hk => ?_, fun k slot hk => ?_, fun id hid => ?_, ?_, fun f => ?_⟩
  · rcases hslots hk with ⟨hold, -⟩ | ⟨rfl, rfl⟩
    · exact ha.handles k slot hold
    · exact ⟨rfl, rfl⟩
  · rcases hslots hk with ⟨hold, hlt⟩ | ⟨rfl, rfl⟩
    · rw [← ha.entries k slot hold]
      exact NumberMap.get_insert_of_ne (by omega)
    · exact NumberMap.get_insert.trans (if_pos rfl)
  · rw [List.length_append, List.length_singleton] at hid
    rw [← ha.noOthers id (by omega)]
    exact NumberMap.get_insert_of_ne (by omega)
  · have hcalls := ha.calls
    simpa [List.countP_append, Slot.Settled, Slot.Started] using hcalls
  · have htotal := NumberMap.total_insert (fun entry : ReservationEntry Pricing => f entry.values)
      (v := ⟨values, .reserved⟩) hfresh
    have hold := ha.totals f
    dsimp only at htotal ⊢
    rw [htotal, List.filter_append, List.map_append, List.sum_append, hold, Nat.add_comm]
    simp [Slot.Outstanding]

/-- **A call keeps the account.** -/
theorem Does.accounts (h : Does ledger costMicroUsd s act t) (ha : Accounts ledger s)
    (hb : t.Below) : Accounts ledger t := by
  obtain ⟨hcalls, -⟩ := hb.committed
  cases h with
  | refuses | ignores => exact ha
  | reserves => exact ha.append hb.nextId
  | starts hslot hheld hstate =>
    refine ha.put hslot rfl rfl rfl (fun _ => ?_) (if_pos ?_).symm ?_
    · simp [Slot.Outstanding, hheld, hstate]
    · simp [Slot.Outstanding]
    · simp [Slot.Settled, Slot.Outstanding, Slot.Started, hstate]
  | keeps hslot hheld =>
    refine ha.same hslot ?_
    simp [Slot.Outstanding, hheld]
  | reconciles hslot hheld hstate =>
    refine ha.put hslot rfl rfl rfl (fun h => absurd rfl h.2) (if_neg fun h => h.2 rfl).symm ?_
    show saturatingAdd s.ledger.committedCalls 1 + _ = _
    rw [saturatingAdd_of_lt hcalls]
    simp [Slot.Settled, Slot.Outstanding, Slot.Started, hheld, hstate]
  | releases hslot hstage hstate =>
    refine ha.put hslot rfl rfl rfl (fun h => absurd rfl h.1) (if_neg fun h => h.1 rfl).symm ?_
    simp [Slot.Settled, Slot.Started, hstate]
  | commits hslot hstage hstate =>
    refine ha.put hslot rfl rfl rfl (fun h => absurd rfl h.1) (if_neg fun h => h.1 rfl).symm ?_
    show saturatingAdd s.ledger.committedCalls 1 + _ = _
    rw [saturatingAdd_of_lt hcalls]
    simp [Slot.Settled, Slot.Outstanding, Slot.Started, hstage, hstate]
  | discards hslot hstage hstate =>
    refine ha.same hslot ?_
    simp [Slot.Outstanding, hstate]

theorem accounts_start : Accounts ledger (.start : BudgetSystem Pricing) where
  nextId := rfl
  handles n slot h := by cases h
  entries n slot h := by cases h
  noOthers id _ := Std.ExtTreeMap.getElem?_empty
  calls := rfl
  totals f := by
    show (((∅ : NumberMap (ReservationEntry Pricing)).toList.map Prod.snd).map _).sum = _
    rw [NumberMap.toList_empty]
    rfl

/-! ### When a reservation is started, and when it is settled -/

namespace BudgetSystem

/-- Reservation `n` was marked started. -/
def Started (s : BudgetSystem Pricing) (n : Nat) : Prop :=
  ∃ slot, s.slots[n]? = some slot ∧ slot.Started

/-- Reservation `n` was started, and is reconciled or dropped: it has contributed a model call. -/
def Settled (s : BudgetSystem Pricing) (n : Nat) : Prop :=
  ∃ slot, s.slots[n]? = some slot ∧ slot.Settled

/-- The budget is not overdrawn. -/
structure Within (limits : BudgetLimits) (s : BudgetSystem Pricing) : Prop where
  calls : ∀ limit, limits.maxModelCalls = some limit → s.used.calls ≤ limit
  input : ∀ limit, limits.maxInputTokens = some limit → s.used.inputTokens ≤ limit
  output : ∀ limit, limits.maxOutputTokens = some limit → s.used.outputTokens ≤ limit
  cost : ∀ limit, limits.maxCostMicroUsd = some limit → s.used.costMicroUsd ≤ limit

end BudgetSystem

/-- This call reconciles reservation `n`: its handle is started before, and reconciled after. -/
def Reconciles (s : BudgetSystem Pricing) (act : Act Pricing) (t : BudgetSystem Pricing) (n : Nat) :
    Prop :=
  (∃ caller clock usage disposition, act = .reconcile caller clock n usage disposition) ∧
    ∃ slot slot', s.slots[n]? = some slot ∧ t.slots[n]? = some slot' ∧
      slot.reservation.state = .started ∧ slot'.reservation.state = .reconciled

/-- This call drops reservation `n`, which was started and not reconciled. -/
def DropsStarted (s : BudgetSystem Pricing) (act : Act Pricing) (n : Nat) : Prop :=
  act = .drop n ∧ ∃ slot, s.slots[n]? = some slot ∧ slot.reservation.state = .started

variable {k : Nat}

/-- A change to one slot is one to no other. -/
theorem BudgetSystem.put_slots
    (hslot : s.slots[n]? = some slot) :
    (s.put n slot held stage).slots[k]? =
      if k = n then some { slot with reservation := held.reservation, stage } else s.slots[k]? := by
  have hlt : n < s.slots.length := (List.getElem?_eq_some_iff.mp hslot).1
  show (s.slots.set n _)[k]? = _
  split
  · next heq =>
    subst heq
    exact List.getElem?_set_self hlt
  · next hne => exact List.getElem?_set_ne (Ne.symm hne)

theorem BudgetSystem.put_slots_self
    (hslot : s.slots[n]? = some slot) :
    (s.put n slot held stage).slots[n]? =
      some { slot with reservation := held.reservation, stage } :=
  (put_slots hslot).trans (if_pos rfl)

theorem BudgetSystem.put_exists
    (hslot : s.slots[n]? = some slot) (P : Slot Pricing → Prop) :
    (∃ other, (s.put n slot held stage).slots[k]? = some other ∧ P other) ↔
      if k = n then P { slot with reservation := held.reservation, stage }
      else ∃ other, s.slots[k]? = some other ∧ P other := by
  rw [put_slots hslot]
  split <;> simp

/-- This call marks reservation `n` started, which it was not. -/
def Marks (s : BudgetSystem Pricing) (act : Act Pricing) (n : Nat) : Prop :=
  act = .markStarted n ∧ ∃ slot, s.slots[n]? = some slot ∧ slot.stage = .held ∧
    slot.reservation.state = .reserved

variable {P : Slot Pricing → Prop}

/-- A slot that differs in no respect that a property looks at. -/
theorem BudgetSystem.put_exists_same
    (hslot : s.slots[n]? = some slot)
    (hsame : P { slot with reservation := held.reservation, stage } ↔ P slot) :
    (∃ other, (s.put n slot held stage).slots[k]? = some other ∧ P other) ↔
      ∃ other, s.slots[k]? = some other ∧ P other := by
  rw [put_exists hslot]
  split
  · next heq =>
    subst heq
    rw [hsame, hslot]
    simp
  · rfl

/-- Appending a slot that lacks a property. -/
theorem exists_append {slots : List (Slot Pricing)} {new : Slot Pricing} (hnew : ¬ P new) :
    (∃ other, (slots ++ [new])[k]? = some other ∧ P other) ↔
      ∃ other, slots[k]? = some other ∧ P other := by
  constructor
  · rintro ⟨other, hk, hP⟩
    by_cases hlt : k < slots.length
    · exact ⟨other, (List.getElem?_append_left hlt) ▸ hk, hP⟩
    · rw [List.getElem?_append_right (by omega)] at hk
      cases hsub : k - slots.length with
      | zero =>
        rw [hsub] at hk
        cases hk
        exact absurd hP hnew
      | succ m =>
        rw [hsub] at hk
        cases hk
  · rintro ⟨other, hk, hP⟩
    have hlt := (List.getElem?_eq_some_iff.mp hk).1
    exact ⟨other, by rw [List.getElem?_append_left hlt, hk], hP⟩

/-- **A reservation counts as started from the call that marks it on.** -/
theorem Does.started (h : Does ledger costMicroUsd s act t) (k : Nat) :
    t.Started k ↔ s.Started k ∨ Marks s act k := by
  cases h with
  | refuses => simp [Marks]
  | reserves => simp [Marks, Started, exists_append, Slot.Started]
  | @ignores n slot hslot hheld hstate =>
    refine (or_iff_left ?_).symm
    rintro ⟨hact, other, hother, -, hstate'⟩
    cases hact
    rw [hslot] at hother
    cases hother
    exact hstate hstate'
  | @starts n slot hslot hheld hstate =>
    refine (put_exists hslot Slot.Started).trans ?_
    split
    · next heq =>
      subst heq
      exact iff_of_true nofun (.inr ⟨rfl, slot, hslot, hheld, hstate⟩)
    · next hne =>
      refine (or_iff_left ?_).symm
      rintro ⟨hact, -⟩
      cases hact
      exact hne rfl
  | keeps hslot =>
    exact (put_exists_same hslot (P := Slot.Started) Iff.rfl).trans (by simp [Marks, Started])
  | reconciles hslot hheld hstate =>
    refine (put_exists_same hslot (P := Slot.Started) ?_).trans
      (by simp [Marks, Started])
    simp [Slot.Started, hstate]
  | releases hslot | commits hslot | discards hslot =>
    exact (put_exists_same hslot (P := Slot.Started) Iff.rfl).trans (by simp [Marks, Started])

theorem not_dropsStarted (hslot : s.slots[n]? = some slot)
    (hstate : slot.reservation.state ≠ .started) :
    ¬ (Reconciles s (.drop n) t k ∨ DropsStarted s (.drop n) k) := by
  rintro (⟨⟨_, _, _, _, hact⟩, -⟩ | ⟨hact, other, hother, hstarted⟩)
  · cases hact
  · cases hact
    rw [hslot] at hother
    cases hother
    exact hstate hstarted

/-- **A reservation is settled from the call that reconciles it on, or from its drop**: in both
cases it was started, and contributes its model call there. -/
theorem Does.settled (h : Does ledger costMicroUsd s act t) (k : Nat) :
    t.Settled k ↔ s.Settled k ∨ Reconciles s act t k ∨ DropsStarted s act k := by
  cases h with
  | refuses | ignores => simp [Reconciles, DropsStarted]
  | reserves =>
    refine (exists_append (P := Slot.Settled) fun hnew => hnew.1 rfl).trans ?_
    simp [Reconciles, DropsStarted, Settled]
  | starts hslot hheld hstate =>
    refine (put_exists_same hslot (P := Slot.Settled) ?_).trans
      (by simp [Reconciles, DropsStarted, Settled])
    simp [Slot.Settled, Slot.Outstanding, Slot.Started, hstate]
  | @keeps caller clock n usage disposition slot hslot hheld =>
    have hneither : ¬ (Reconciles s (.reconcile caller clock n usage disposition)
        (s.put n slot ⟨s.ledger, slot.reservation⟩ .taken) k ∨
        DropsStarted s (.reconcile caller clock n usage disposition) k) := by
      rintro (⟨⟨_, _, _, _, hact⟩, _, slot', hslot₁, hslot', hstarted, hstate⟩ | ⟨hact, -⟩)
      · cases hact
        rw [put_slots hslot, if_pos rfl] at hslot'
        rw [hslot] at hslot₁
        cases hslot₁
        cases hslot'
        rw [hstarted] at hstate
        cases hstate
      · cases hact
    refine (put_exists_same hslot (P := Slot.Settled) ?_).trans (or_iff_left hneither).symm
    simp [Slot.Settled, Slot.Outstanding, Slot.Started, hheld]
  | @reconciles clock n usage disposition slot i o cost hslot hheld hstate =>
    refine (put_exists hslot Slot.Settled).trans ?_
    split
    · next heq =>
      subst heq
      exact iff_of_true ⟨nofun, fun h => h.2 rfl⟩
        (.inr (.inl ⟨⟨_, _, _, _, rfl⟩, slot, _, hslot, put_slots_self hslot, hstate, rfl⟩))
    · next hne =>
      refine (or_iff_left ?_).symm
      rintro (⟨⟨_, _, _, _, hact⟩, -⟩ | ⟨hact, -⟩)
      · cases hact
        exact hne rfl
      · cases hact
  | @releases n slot hslot hstage hstate =>
    refine (put_exists_same hslot (P := Slot.Settled) ?_).trans (or_iff_left ?_).symm
    · simp [Slot.Settled, Slot.Started, hstate]
    · exact not_dropsStarted hslot (by rw [hstate]; nofun)
  | @commits n slot hslot hstage hstate =>
    refine (put_exists hslot Slot.Settled).trans ?_
    split
    · next heq =>
      subst heq
      refine iff_of_true ⟨?_, fun h => h.1 rfl⟩ (.inr (.inr ⟨rfl, slot, hslot, hstate⟩))
      simp [Slot.Started, hstate]
    · next hne =>
      refine (or_iff_left ?_).symm
      rintro (⟨⟨_, _, _, _, hact⟩, -⟩ | ⟨hact, -⟩)
      · cases hact
      · cases hact
        exact hne rfl
  | @discards n slot hslot hstage hstate =>
    refine (put_exists_same hslot (P := Slot.Settled) ?_).trans (or_iff_left ?_).symm
    · simp [Slot.Settled, Slot.Outstanding, Slot.Started, hstate]
    · exact not_dropsStarted hslot (by rw [hstate]; nofun)

/-! ### The limits -/

theorem checkLimit_eq_ok {resource : String} {limit : Option Nat} {requested : Nat} :
    checkLimit resource limit requested = .ok () ↔ ∀ l, limit = some l → requested ≤ l := by
  cases limit with
  | none => simp [checkLimit]
  | some l => simp [checkLimit]

/-- A call that reconciles a reservation charges at most what was reserved. -/
def Honest (costMicroUsd : Pricing → Usage → Except BudgetLedgerError Nat)
    (s : BudgetSystem Pricing) (act : Act Pricing) (t : BudgetSystem Pricing) : Prop :=
  ∀ caller clock n usage slot, act = .reconcile caller clock n usage .chargeUsage →
    Reconciles s act t n → s.slots[n]? = some slot →
    (usage.getD (usageOf 0 0)).inputTokens ≤ slot.values.inputTokens ∧
    (usage.getD (usageOf 0 0)).outputTokens ≤ slot.values.outputTokens ∧
    ∀ cost, exactCost costMicroUsd slot.values.pricing (usage.getD (usageOf 0 0)) .chargeUsage =
      .ok cost → cost ≤ slot.values.costMicroUsd

/-- What is used of one resource, from the sums. -/
theorem BudgetSystem.Below.used_eq (hb : s.Below) :
    s.used = ⟨s.ledger.committedCalls + NumberMap.total (fun _ => 1) s.ledger.reservations,
      s.ledger.committedInput + NumberMap.total (·.values.inputTokens) s.ledger.reservations,
      s.ledger.committedOutput + NumberMap.total (·.values.outputTokens) s.ledger.reservations,
      s.ledger.committedCost + NumberMap.total (·.values.costMicroUsd) s.ledger.reservations⟩ := by
  rw [used, hb.totals]

/-- No part of what is used is more. -/
def Totals.Le (a b : Totals) : Prop :=
  a.calls ≤ b.calls ∧ a.inputTokens ≤ b.inputTokens ∧ a.outputTokens ≤ b.outputTokens ∧
    a.costMicroUsd ≤ b.costMicroUsd

theorem Totals.Le.refl (a : Totals) : a.Le a := ⟨Nat.le_refl _, Nat.le_refl _, Nat.le_refl _, Nat.le_refl _⟩

/-- A reservation that is given up for at most what was reserved. -/
theorem used_le_of_erase (ha : Accounts ledger s) (hs : s.Below) (ht : t.Below)
    (hslot : s.slots[n]? = some slot) (hout : slot.Outstanding) {calls i o cost : Nat}
    (hmap : t.ledger.reservations = s.ledger.reservations.erase (n + 1))
    (hcalls : t.ledger.committedCalls = s.ledger.committedCalls + calls)
    (hinput : t.ledger.committedInput = s.ledger.committedInput + i)
    (houtput : t.ledger.committedOutput = s.ledger.committedOutput + o)
    (hcost : t.ledger.committedCost = s.ledger.committedCost + cost)
    (hle : calls ≤ 1 ∧ i ≤ slot.values.inputTokens ∧ o ≤ slot.values.outputTokens ∧
      cost ≤ slot.values.costMicroUsd) : t.used.Le s.used := by
  have hentry := (ha.entries n slot hslot).trans (if_pos hout)
  rw [hs.used_eq, ht.used_eq, hmap, hcalls, hinput, houtput, hcost]
  simp only [Totals.Le, NumberMap.total_erase _ hentry]
  omega

variable {limits : BudgetLimits}

/-- A reservation that passed the limits, for all that is used with it. -/
theorem within_of_insert (hs : s.Below) (ht : t.Below) {id : Nat}
    {entry : ReservationEntry Pricing} (hfresh : s.ledger.reservations[id]? = none)
    (hmap : t.ledger.reservations = s.ledger.reservations.insert id entry)
    (hcalls : t.ledger.committedCalls = s.ledger.committedCalls)
    (hinput : t.ledger.committedInput = s.ledger.committedInput)
    (houtput : t.ledger.committedOutput = s.ledger.committedOutput)
    (hcost : t.ledger.committedCost = s.ledger.committedCost)
    (hcalls' : ∀ l, limits.maxModelCalls = some l → saturatingAdd
      (saturatingAdd s.ledger.committedCalls (reservationTotals s.ledger).calls) 1 ≤ l)
    (hinput' : ∀ l, limits.maxInputTokens = some l → saturatingAdd
      (saturatingAdd s.ledger.committedInput (reservationTotals s.ledger).inputTokens)
      entry.values.inputTokens ≤ l)
    (houtput' : ∀ l, limits.maxOutputTokens = some l → saturatingAdd
      (saturatingAdd s.ledger.committedOutput (reservationTotals s.ledger).outputTokens)
      entry.values.outputTokens ≤ l)
    (hcost' : ∀ l, limits.maxCostMicroUsd = some l → saturatingAdd
      (saturatingAdd s.ledger.committedCost (reservationTotals s.ledger).costMicroUsd)
      entry.values.costMicroUsd ≤ l) : t.Within limits := by
  have hsum {a b c l : Nat} (h : saturatingAdd (saturatingAdd a b) c ≤ l) (hlt : a + (c + b) < u64Max) :
      a + (c + b) ≤ l := by
    unfold saturatingAdd at h
    omega
  have hfits := ht
  obtain ⟨-, hcalls₁, hinput₁, houtput₁, hcost₁⟩ := hfits
  rw [hs.totals] at hcalls' hinput' houtput' hcost'
  rw [ht.used_eq, hmap, hcalls, hinput, houtput, hcost] at hcalls₁ hinput₁ houtput₁ hcost₁
  simp only [NumberMap.total_insert _ hfresh] at hcalls₁ hinput₁ houtput₁ hcost₁
  constructor <;> rw [ht.used_eq, hmap, hcalls, hinput, houtput, hcost] <;>
    simp only [NumberMap.total_insert _ hfresh]
  · exact fun l hl => hsum (hcalls' l hl) hcalls₁
  · exact fun l hl => hsum (hinput' l hl) hinput₁
  · exact fun l hl => hsum (houtput' l hl) houtput₁
  · exact fun l hl => hsum (hcost' l hl) hcost₁

/-- **Only a new reservation uses more of the budget**, and it fits. -/
theorem Does.used (h : Does ledger costMicroUsd s act t) (ha : Accounts ledger s) (hs : s.Below)
    (ht : t.Below) (hhonest : Honest costMicroUsd s act t) :
    t.used.Le s.used ∨ t.Within ledger.limits := by
  have hcommitted := ht.committed
  cases h with
  | refuses | ignores => exact .inl (Totals.Le.refl _)
  | keeps | discards => exact .inl (Totals.Le.refl _)
  | @reserves clock pricing i o cost hcost hcalls hinput houtput hcost' =>
    have hid : saturatingAdd s.ledger.nextId 1 = s.slots.length + 1 := by
      rw [saturatingAdd_of_lt ht.nextId, ha.nextId]
    have hfresh : s.ledger.reservations[saturatingAdd s.ledger.nextId 1]? = none := by
      rw [hid]
      exact ha.noOthers _ (Nat.lt_succ_self _)
    exact .inr (within_of_insert hs ht hfresh rfl rfl rfl rfl rfl (checkLimit_eq_ok.mp hcalls)
      (checkLimit_eq_ok.mp hinput) (checkLimit_eq_ok.mp houtput) (checkLimit_eq_ok.mp hcost'))
  | @starts n slot hslot hheld hstate =>
    have hout : slot.Outstanding := ⟨by rw [hheld]; nofun, by rw [hstate]; nofun⟩
    have hentry := (ha.entries n slot hslot).trans (if_pos hout)
    have htotal (f : ReservationValues Pricing → Nat) :=
      NumberMap.total_replace (fun entry => f entry.values) (w := ⟨slot.values, .started⟩) hentry
    left
    rw [hs.used_eq, ht.used_eq]
    simp only [Totals.Le, put]
    have hinput := htotal (·.inputTokens)
    have houtput := htotal (·.outputTokens)
    have hcost := htotal (·.costMicroUsd)
    have hcalls := htotal fun _ => 1
    dsimp only at hinput houtput hcost hcalls
    omega
  | @reconciles clock n usage disposition slot i o cost hslot hheld hstate hcharge hfree =>
    have hout : slot.Outstanding := ⟨by rw [hheld]; nofun, by rw [hstate]; nofun⟩
    obtain ⟨hcalls, hinput, houtput, hcost⟩ := hcommitted
    refine .inl (used_le_of_erase ha hs ht hslot hout rfl (saturatingAdd_of_lt hcalls)
      (saturatingAdd_of_lt hinput) (saturatingAdd_of_lt houtput) (saturatingAdd_of_lt hcost)
      ⟨Nat.le_refl _, ?_⟩)
    cases disposition with
    | noCharge =>
      obtain ⟨rfl, rfl, rfl⟩ := hfree rfl
      exact ⟨Nat.zero_le _, Nat.zero_le _, Nat.zero_le _⟩
    | chargeUsage =>
      obtain ⟨rfl, rfl, hcost'⟩ := hcharge rfl
      obtain ⟨hi, ho, hc⟩ := hhonest ledger clock n usage slot rfl
        ⟨⟨_, _, _, _, rfl⟩, slot, _, hslot, put_slots_self hslot, hstate, rfl⟩ hslot
      exact ⟨hi, ho, hc cost hcost'⟩
  | @releases n slot hslot hstage hstate =>
    have hout : slot.Outstanding := ⟨hstage, by rw [hstate]; nofun⟩
    exact .inl (used_le_of_erase ha hs ht hslot hout rfl rfl rfl rfl rfl
      ⟨Nat.zero_le _, Nat.zero_le _, Nat.zero_le _, Nat.zero_le _⟩)
  | @commits n slot hslot hstage hstate =>
    have hout : slot.Outstanding := ⟨hstage, by rw [hstate]; nofun⟩
    obtain ⟨hcalls, hinput, houtput, hcost⟩ := hcommitted
    exact .inl (used_le_of_erase ha hs ht hslot hout rfl (saturatingAdd_of_lt hcalls)
      (saturatingAdd_of_lt hinput) (saturatingAdd_of_lt houtput) (saturatingAdd_of_lt hcost)
      ⟨Nat.le_refl _, Nat.le_refl _, Nat.le_refl _, Nat.le_refl _⟩)

theorem Totals.Le.within (h : t.used.Le s.used) (hs : s.Within limits) :
    t.Within limits where
  calls l hl := Nat.le_trans h.1 (hs.calls l hl)
  input l hl := Nat.le_trans h.2.1 (hs.input l hl)
  output l hl := Nat.le_trans h.2.2.1 (hs.output l hl)
  cost l hl := Nat.le_trans h.2.2.2 (hs.cost l hl)

/-! ### Whole runs -/

/-- A run of calls on a new ledger. -/
abbrev BudgetRun (ledger : BudgetLedger)
    (costMicroUsd : Pricing → Usage → Except BudgetLedgerError Nat) :
    List (Act Pricing) → BudgetSystem Pricing → Prop :=
  Path (Takes ledger costMicroUsd) .start

/-- No counter is at its end at any moment of a run. -/
def StaysBelow (ledger : BudgetLedger)
    (costMicroUsd : Pricing → Usage → Except BudgetLedgerError Nat) (acts : List (Act Pricing)) :
    Prop :=
  ∀ pre t, pre <+: acts → BudgetRun ledger costMicroUsd pre t → t.Below

variable {acts : List (Act Pricing)}

/-- **Every run keeps the account.** -/
theorem BudgetRun.accounts (h : BudgetRun ledger costMicroUsd acts s)
    (hbelow : StaysBelow ledger costMicroUsd acts) : Accounts ledger s := by
  refine h.invariant_along accounts_start fun pre act post a b heq hpre hstep ha => ?_
  have hinit : pre <+: acts := ⟨act :: post, heq.symm⟩
  have hinit' : pre ++ [act] <+: acts := ⟨post, by rw [heq, List.append_assoc]; rfl⟩
  have hb := hbelow pre a hinit hpre
  exact (hstep.does ha hb).accounts ha (hbelow _ b hinit' (hpre.append (.single hstep)))

/-- What the outstanding reservations come to. -/
def BudgetSystem.outstanding (s : BudgetSystem Pricing) : Totals :=
  let slots := s.slots.filter (·.Outstanding)
  { calls := slots.length
    inputTokens := (slots.map (·.values.inputTokens)).sum
    outputTokens := (slots.map (·.values.outputTokens)).sum
    costMicroUsd := (slots.map (·.values.costMicroUsd)).sum }

/-- This call gives up the handle of reservation `n`, and is answered with a snapshot. -/
def ReconcilesOk (costMicroUsd : Pricing → Usage → Except BudgetLedgerError Nat) (s : BudgetSystem Pricing)
    (act : Act Pricing) (n : Nat) : Prop :=
  ∃ caller clock usage disposition slot snapshot held, act = .reconcile caller clock n usage disposition ∧
    s.slots[n]? = some slot ∧
      (caller.reconcile costMicroUsd clock usage disposition).run ⟨s.ledger, slot.reservation⟩ = .ok snapshot held

/-- When one call starts a reservation, and when it settles one. A call to `reconcile` that is answered with
a snapshot has settled its reservation; one that is not may have too, if only a limit was against it. -/
def KeepsBooks (costMicroUsd : Pricing → Usage → Except BudgetLedgerError Nat) (s : BudgetSystem Pricing)
    (act : Act Pricing) (t : BudgetSystem Pricing) : Prop :=
  ∀ n, (t.Started n ↔ s.Started n ∨ Marks s act n) ∧
    (t.Settled n ↔ s.Settled n ∨ Reconciles s act t n ∨ DropsStarted s act n) ∧
    (ReconcilesOk costMicroUsd s act n → Reconciles s act t n)

/-- A handle that `reconcile` answers for was started, and is reconciled. -/
theorem run_reconcile_ok {caller : BudgetLedger} {clock : WallClock} {usage : Option Usage}
    {disposition : BillingDisposition} {held' : Held Pricing} {snapshot : BudgetLedgerSnapshot}
    (h : (caller.reconcile costMicroUsd clock usage disposition).run held = .ok snapshot held') :
    held.reservation.state = .started ∧ held'.reservation.state = .reconciled := by
  unfold BudgetLedger.reconcile at h
  rw [run_read_bind, id_eq] at h
  obtain ⟨_, hstarted, h⟩ := run_check_bind_eq_ok.mp h
  obtain ⟨entry, _, h⟩ := run_check_bind_eq_ok.mp h
  obtain ⟨_, _, h⟩ := run_check_bind_eq_ok.mp h
  obtain ⟨cost, _, h⟩ := run_check_bind_eq_ok.mp h
  refine ⟨not_not.mp (not_or.mp (refuseIf_eq_ok.mp hstarted)).2, ?_⟩
  cases disposition with
  | chargeUsage =>
    have hheld := (after_checks _ _ _ _ _ _).symm.trans (congrArg after h)
    exact congrArg (fun held : Held Pricing => held.reservation.state) hheld.symm
  | noCharge =>
    have hheld := (after_checks _ _ _ _ _ _).symm.trans (congrArg after h)
    exact congrArg (fun held : Held Pricing => held.reservation.state) hheld.symm

theorem Takes.reconciles_of_ok (h : Takes ledger costMicroUsd s act t)
    (hok : ReconcilesOk costMicroUsd s act n) : Reconciles s act t n := by
  obtain ⟨caller, clock, usage, disposition, slot, snapshot, held, rfl, hslot, hrun⟩ := hok
  obtain ⟨hstarted, hreconciled⟩ := run_reconcile_ok hrun
  cases h with
  | @reconcile _ _ _ _ _ slot' _ hslot' =>
    cases hslot.symm.trans hslot'
    refine ⟨⟨_, _, _, _, rfl⟩, slot, _, hslot, put_slots_self hslot, hstarted, ?_⟩
    rw [hrun]
    exact hreconciled

/-- A call has one outcome. -/
theorem Takes.unique {u : BudgetSystem Pricing} (h : Takes ledger costMicroUsd s act t)
    (h' : Takes ledger costMicroUsd s act u) : t = u := by
  cases h with
  | reserve =>
    cases h'
    rfl
  | markStarted hslot =>
    cases h' with
    | markStarted hslot' =>
      cases hslot.symm.trans hslot'
      rfl
  | reconcile _ hslot =>
    cases h' with
    | reconcile _ hslot' =>
      cases hslot.symm.trans hslot'
      rfl
  | drop hslot =>
    cases h' with
    | drop hslot' =>
      cases hslot.symm.trans hslot'
      rfl

/-- A run that was seen to stay below stays below. -/
theorem staysBelow_of_path (hstart : (.start : BudgetSystem Pricing).Below)
    (h : Path (fun a act b => Takes ledger costMicroUsd a act b ∧ b.Below) .start acts s) :
    StaysBelow ledger costMicroUsd acts := by
  rintro pre t ⟨post, rfl⟩ hpre
  obtain ⟨mid, hmid, -⟩ := h.exists_mid
  have hbelow : mid.Below := hmid.invariant (fun _ _ _ _ hstep _ => hstep.2) hstart
  have hmid' : BudgetRun ledger costMicroUsd pre mid := hmid.mono fun _ _ _ hstep => hstep.1
  exact Path.unique (fun _ _ _ _ h h' => h.unique h') hmid' hpre ▸ hbelow

/-- A property of every call of a run. -/
def EachCall (ledger : BudgetLedger)
    (costMicroUsd : Pricing → Usage → Except BudgetLedgerError Nat) (acts : List (Act Pricing))
    (P : BudgetSystem Pricing → Act Pricing → BudgetSystem Pricing → Prop) : Prop :=
  ∀ pre act post t u, acts = pre ++ act :: post → BudgetRun ledger costMicroUsd pre t →
    Takes ledger costMicroUsd t act u → P t act u

/-- **The law of the ledger**: in every run, as many model calls are committed as reservations were
started and then reconciled or dropped, the calls say so, the reserved totals are those of the outstanding
reservations, and calls that charge at most what was reserved never overdraw the budget. -/
theorem BudgetRun.accounted (h : BudgetRun ledger costMicroUsd acts s)
    (hbelow : StaysBelow ledger costMicroUsd acts) :
    s.ledger.committedCalls = s.slots.countP (·.Settled) ∧
    reservationTotals s.ledger = s.outstanding ∧
    EachCall ledger costMicroUsd acts (KeepsBooks costMicroUsd) ∧
    (EachCall ledger costMicroUsd acts (Honest costMicroUsd) → s.Within ledger.limits) := by
  have ha := h.accounts hbelow
  have hb := hbelow acts s (List.prefix_refl acts) h
  have hinit {pre post : List (Act Pricing)} {act : Act Pricing} (heq : acts = pre ++ act :: post) :
      pre <+: acts ∧ pre ++ [act] <+: acts :=
    ⟨⟨act :: post, heq.symm⟩, ⟨post, by rw [heq, List.append_assoc]; rfl⟩⟩
  have hdoes {pre post : List (Act Pricing)} {act : Act Pricing} {t u : BudgetSystem Pricing}
      (heq : acts = pre ++ act :: post) (hpre : BudgetRun ledger costMicroUsd pre t)
      (hstep : Takes ledger costMicroUsd t act u) :
      Does ledger costMicroUsd t act u ∧ Accounts ledger t ∧ t.Below ∧ u.Below := by
    have hat := BudgetRun.accounts hpre fun pre' t' hpre' => hbelow pre' t' (hpre'.trans (hinit heq).1)
    have hbt := hbelow pre t (hinit heq).1 hpre
    exact ⟨hstep.does hat hbt, hat, hbt, hbelow _ u (hinit heq).2 (hpre.append (.single hstep))⟩
  refine ⟨ha.calls, ?_, fun pre act post t u heq hpre hstep n => ?_, fun hhonest => ?_⟩
  · rw [hb.totals, outstanding, ha.totals (·.inputTokens), ha.totals (·.outputTokens),
      ha.totals (·.costMicroUsd), ha.totals fun _ => 1]
    simp
  · obtain ⟨hdo, -⟩ := hdoes heq hpre hstep
    exact ⟨hdo.started n, hdo.settled n, hstep.reconciles_of_ok⟩
  · refine h.invariant_along ?_ fun pre act post t u heq hpre hstep hw => ?_
    · exact ⟨fun _ _ => Nat.zero_le _, fun _ _ => Nat.zero_le _, fun _ _ => Nat.zero_le _,
        fun _ _ => Nat.zero_le _⟩
    · obtain ⟨hdo, hat, hbt, hbu⟩ := hdoes heq hpre hstep
      rcases hdo.used hat hbt hbu (hhonest pre act post t u heq hpre hstep) with hle | hfits
      · exact hle.within hw
      · exact hfits

end

/-- A ledger of two model calls. -/
def twoCalls : BudgetLedger := ⟨0, ⟨some 2, none, none, none, none⟩⟩

/-- Calls that cost nothing. -/
def freeCost (_ : Unit) (_ : Usage) : Except BudgetLedgerError Nat := .ok 0

/-- A call is reserved, starts, and its handle is dropped. -/
def startedAndDropped : List (Act Unit) := [.reserve ⟨0, false⟩ none 10 5, .markStarted 0, .drop 0]

/-- The ledger after the reservation, with the handle in some state and place. -/
def afterReserve (entry state : ReservationState) (stage : Stage) : BudgetSystem Unit :=
  ⟨⟨1, 0, 0, 0, 0, (∅ : NumberMap (ReservationEntry Unit)).insert 1 ⟨⟨10, 5, 0, none⟩, entry⟩⟩,
    [⟨⟨10, 5, 0, none⟩, ⟨1, 0, state⟩, stage⟩]⟩

/-- The ledger after the drop. -/
def afterDrop : BudgetSystem Unit :=
  ⟨⟨1, 1, 10, 5, 0, ∅⟩, [⟨⟨10, 5, 0, none⟩, ⟨1, 0, .started⟩, .dropped⟩]⟩

theorem takes_reserve : Takes twoCalls freeCost .start (.reserve ⟨0, false⟩ none 10 5)
    (afterReserve .reserved .reserved .held) := .reserve

theorem takes_markStarted : Takes twoCalls freeCost (afterReserve .reserved .reserved .held)
    (.markStarted 0) (afterReserve .started .started .held) := by
  have hput : (afterReserve .reserved .reserved .held).put 0
      ⟨⟨10, 5, 0, none⟩, ⟨1, 0, .reserved⟩, .held⟩ (after (markStarted.run
        ⟨(afterReserve .reserved .reserved .held).ledger, ⟨1, 0, .reserved⟩⟩)) .held =
      afterReserve .started .started .held := rfl
  rw [← hput]
  exact .markStarted rfl rfl

theorem takes_drop : Takes twoCalls freeCost (afterReserve .started .started .held) (.drop 0)
    afterDrop := by
  have hput : (afterReserve .started .started .held).put 0
      ⟨⟨10, 5, 0, none⟩, ⟨1, 0, .started⟩, .held⟩ ⟨dropReservation
        ⟨(afterReserve .started .started .held).ledger, ⟨1, 0, .started⟩⟩, ⟨1, 0, .started⟩⟩
        .dropped = afterDrop := rfl
  rw [← hput]
  exact .drop rfl nofun

theorem below_start : (.start : BudgetSystem Unit).Below :=
  ⟨by decide, by decide, by decide, by decide, by decide⟩

theorem below_afterReserve (state : ReservationState) : (afterReserve state state .held).Below := by
  cases state <;> exact ⟨by decide, by decide, by decide, by decide, by decide⟩

theorem below_afterDrop : afterDrop.Below :=
  ⟨by decide, by decide, by decide, by decide, by decide⟩

theorem accounted_startedAndDropped :
    ∃ s, BudgetRun twoCalls freeCost startedAndDropped s ∧
      s.ledger.committedCalls = s.slots.countP (·.Settled) ∧
      reservationTotals s.ledger = s.outstanding ∧
      EachCall twoCalls freeCost startedAndDropped (KeepsBooks freeCost) ∧
      (EachCall twoCalls freeCost startedAndDropped (Honest freeCost) → s.Within twoCalls.limits) := by
  have hrun : BudgetRun twoCalls freeCost startedAndDropped afterDrop :=
    .cons takes_reserve (.cons takes_markStarted (.single takes_drop))
  refine ⟨afterDrop, hrun, BudgetRun.accounted hrun (staysBelow_of_path (s := afterDrop) below_start ?_)⟩
  exact .cons ⟨takes_reserve, below_afterReserve _⟩
    (.cons ⟨takes_markStarted, below_afterReserve _⟩ (.single ⟨takes_drop, below_afterDrop⟩))

end AikitRuntime.Budget
