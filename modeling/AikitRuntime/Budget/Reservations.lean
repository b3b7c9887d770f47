import AikitRuntime.Budget.Ledger

/-!
# Many reservations of one ledger

Parallel agents reserve, start, reconcile and drop. The ledger's lock puts their calls into some
order, so a run is any sequence of `Act`s. A `Slot` is one reservation: what was reserved for it,
its handle, and where the handle is. A handle that `reconcile` took is dropped when the call
returns, which is a step of its own; a handle that was dropped is kept, as a record.

`Takes` is one call, as the code of the ledger answers it. `Does` is what a call can come to, with
the change written out; as long as the ledger is the account of its reservations (`Accounts`), every
call comes to one of these (`Takes.does`), so what a run does is read off `Does`.
-/

namespace AikitRuntime.Budget

open Library Durability Method

/-- Where a handle is. -/
inductive Stage where
  /-- Its owner has it. -/
  | held
  /-- A call to `reconcile` took it. -/
  | taken
  | dropped
  deriving DecidableEq

/-- One reservation. -/
structure Slot (Pricing : Type) where
  values : ReservationValues Pricing
  reservation : BudgetReservation
  stage : Stage

/-- A ledger and its reservations, the oldest first. -/
structure BudgetSystem (Pricing : Type) where
  ledger : LedgerState Pricing
  slots : List (Slot Pricing)

/-- A call. -/
inductive Act (Pricing : Type) where
  | reserve (clock : WallClock) (pricing : Option Pricing) (estimatedInputTokens maxOutputTokens : Nat)
  | markStarted (n : Nat)
  /-- A handle is given up to some ledger. -/
  | reconcile (caller : BudgetLedger) (clock : WallClock) (n : Nat) (usage : Option Usage)
      (disposition : BillingDisposition)
  | drop (n : Nat)

section
variable {Pricing : Type}

namespace Slot

/-- The call was marked started. -/
def Started (slot : Slot Pricing) : Prop := slot.reservation.state ≠ .reserved

/-- The reservation still counts as reserved. -/
def Outstanding (slot : Slot Pricing) : Prop :=
  slot.stage ≠ .dropped ∧ slot.reservation.state ≠ .reconciled

/-- The call was started, and its reservation was reconciled or dropped. -/
def Settled (slot : Slot Pricing) : Prop := slot.Started ∧ ¬ slot.Outstanding

instance (slot : Slot Pricing) : Decidable slot.Outstanding := inferInstanceAs (Decidable (_ ∧ _))

instance (slot : Slot Pricing) : Decidable slot.Settled :=
  inferInstanceAs (Decidable (_ ≠ _ ∧ ¬ (_ ∧ _)))

end Slot

namespace BudgetSystem

/-- A ledger that nothing was asked of. -/
def start : BudgetSystem Pricing := ⟨.empty, []⟩

/-- What is left after a call on the handle of a slot. -/
def put (s : BudgetSystem Pricing) (n : Nat) (slot : Slot Pricing) (held : Held Pricing)
    (stage : Stage) : BudgetSystem Pricing where
  ledger := held.ledger
  slots := s.slots.set n { slot with reservation := held.reservation, stage }

end BudgetSystem

variable (ledger : BudgetLedger) (costMicroUsd : Pricing → Usage → Except BudgetLedgerError Nat)

/-- What is reserved for a call. -/
def reservedValues (pricing : Option Pricing) (estimatedInputTokens maxOutputTokens : Nat) :
    ReservationValues Pricing where
  inputTokens := estimatedInputTokens
  outputTokens := maxOutputTokens
  costMicroUsd := (ledger.reservedCost costMicroUsd pricing estimatedInputTokens
    maxOutputTokens).toOption.getD 0
  pricing

/-- One call, on one ledger and its handles. A ledger that is the same one has the same limits. -/
inductive Takes (s : BudgetSystem Pricing) : Act Pricing → BudgetSystem Pricing → Prop where
  /-- `reserve_model_call`: if it succeeds, there is one more handle. -/
  | reserve {clock : WallClock} {pricing : Option Pricing} {i o : Nat} :
      Takes s (.reserve clock pricing i o)
        (match (ledger.reserveModelCall costMicroUsd clock pricing i o).run s.ledger with
        | .ok reservation t =>
          ⟨t, s.slots ++ [⟨reservedValues ledger costMicroUsd pricing i o, reservation, .held⟩]⟩
        | .error _ t => ⟨t, s.slots⟩)
  /-- `mark_started`, on a handle that is still held. -/
  | markStarted {n : Nat} {slot : Slot Pricing} (hslot : s.slots[n]? = some slot)
      (hheld : slot.stage = .held) :
      Takes s (.markStarted n) (s.put n slot (after (markStarted.run ⟨s.ledger, slot.reservation⟩)) .held)
  /-- `reconcile` of some ledger takes a handle that is held. -/
  | reconcile {caller : BudgetLedger} {clock : WallClock} {n : Nat} {usage : Option Usage}
      {disposition : BillingDisposition} {slot : Slot Pricing}
      (hcaller : caller.identity = ledger.identity → caller = ledger)
      (hslot : s.slots[n]? = some slot) (hheld : slot.stage = .held) :
      Takes s (.reconcile caller clock n usage disposition)
        (s.put n slot (after ((caller.reconcile costMicroUsd clock usage disposition).run
          ⟨s.ledger, slot.reservation⟩)) .taken)
  /-- A handle is dropped, be it held or taken by `reconcile`. -/
  | drop {n : Nat} {slot : Slot Pricing} (hslot : s.slots[n]? = some slot)
      (hstage : slot.stage ≠ .dropped) :
      Takes s (.drop n)
        (s.put n slot ⟨dropReservation ⟨s.ledger, slot.reservation⟩, slot.reservation⟩ .dropped)

/-- What a call can come to. -/
inductive Does (s : BudgetSystem Pricing) : Act Pricing → BudgetSystem Pricing → Prop where
  /-- Nothing is reserved. -/
  | refuses {clock : WallClock} {pricing : Option Pricing} {i o : Nat} :
      Does s (.reserve clock pricing i o) s
  /-- The call was started before. -/
  | ignores {n : Nat} {slot : Slot Pricing} (hslot : s.slots[n]? = some slot)
      (hheld : slot.stage = .held) (hstate : slot.reservation.state ≠ .reserved) :
      Does s (.markStarted n) s
  /-- The reservation fits the limits, and is made. -/
  | reserves {clock : WallClock} {pricing : Option Pricing} {i o cost : Nat}
      (hcost : ledger.reservedCost costMicroUsd pricing i o = .ok cost)
      (hcalls : checkLimit "model_calls" ledger.limits.maxModelCalls (saturatingAdd
        (saturatingAdd s.ledger.committedCalls (reservationTotals s.ledger).calls) 1) = .ok ())
      (hinput : checkLimit "input_tokens" ledger.limits.maxInputTokens (saturatingAdd
        (saturatingAdd s.ledger.committedInput (reservationTotals s.ledger).inputTokens) i) = .ok ())
      (houtput : checkLimit "output_tokens" ledger.limits.maxOutputTokens (saturatingAdd
        (saturatingAdd s.ledger.committedOutput (reservationTotals s.ledger).outputTokens) o) = .ok ())
      (hcost' : checkLimit "cost_micro_usd" ledger.limits.maxCostMicroUsd (saturatingAdd
        (saturatingAdd s.ledger.committedCost (reservationTotals s.ledger).costMicroUsd) cost) =
          .ok ()) :
      Does s (.reserve clock pricing i o)
        ⟨{ s.ledger with
            nextId := saturatingAdd s.ledger.nextId 1
            reservations := s.ledger.reservations.insert (saturatingAdd s.ledger.nextId 1)
              ⟨⟨i, o, cost, pricing⟩, .reserved⟩ },
          s.slots ++ [⟨⟨i, o, cost, pricing⟩,
            ⟨saturatingAdd s.ledger.nextId 1, ledger.identity, .reserved⟩, .held⟩]⟩
  /-- The call has started. -/
  | starts {n : Nat} {slot : Slot Pricing} (hslot : s.slots[n]? = some slot)
      (hheld : slot.stage = .held) (hstate : slot.reservation.state = .reserved) :
      Does s (.markStarted n)
        (s.put n slot ⟨{ s.ledger with
            reservations := s.ledger.reservations.insert (n + 1) ⟨slot.values, .started⟩ },
          { slot.reservation with state := .started }⟩ .held)
  /-- A call to `reconcile` that was refused: the handle is on its way to be dropped. -/
  | keeps {caller : BudgetLedger} {clock : WallClock} {n : Nat} {usage : Option Usage}
      {disposition : BillingDisposition} {slot : Slot Pricing} (hslot : s.slots[n]? = some slot)
      (hheld : slot.stage = .held) :
      Does s (.reconcile caller clock n usage disposition) (s.put n slot ⟨s.ledger, slot.reservation⟩ .taken)
  /-- Its usage is committed in place of what was reserved for it. -/
  | reconciles {clock : WallClock} {n : Nat} {usage : Option Usage}
      {disposition : BillingDisposition} {slot : Slot Pricing} {i o cost : Nat}
      (hslot : s.slots[n]? = some slot) (hheld : slot.stage = .held)
      (hstate : slot.reservation.state = .started)
      (hcharge : disposition = .chargeUsage → i = (usage.getD (usageOf 0 0)).inputTokens ∧
        o = (usage.getD (usageOf 0 0)).outputTokens ∧
        exactCost costMicroUsd slot.values.pricing (usage.getD (usageOf 0 0)) disposition = .ok cost)
      (hfree : disposition = .noCharge → i = 0 ∧ o = 0 ∧ cost = 0) :
      Does s (.reconcile ledger clock n usage disposition)
        (s.put n slot ⟨{ s.ledger with
            committedCalls := saturatingAdd s.ledger.committedCalls 1
            committedInput := saturatingAdd s.ledger.committedInput i
            committedOutput := saturatingAdd s.ledger.committedOutput o
            committedCost := saturatingAdd s.ledger.committedCost cost
            reservations := s.ledger.reservations.erase (n + 1) },
          { slot.reservation with state := .reconciled }⟩ .taken)
  /-- The call never started: what was reserved for it is free again. -/
  | releases {n : Nat} {slot : Slot Pricing} (hslot : s.slots[n]? = some slot)
      (hstage : slot.stage ≠ .dropped) (hstate : slot.reservation.state = .reserved) :
      Does s (.drop n)
        (s.put n slot ⟨{ s.ledger with reservations := s.ledger.reservations.erase (n + 1) },
          slot.reservation⟩ .dropped)
  /-- It was started and not reconciled: all that was reserved for it is committed. -/
  | commits {n : Nat} {slot : Slot Pricing} (hslot : s.slots[n]? = some slot)
      (hstage : slot.stage ≠ .dropped) (hstate : slot.reservation.state = .started) :
      Does s (.drop n)
        (s.put n slot ⟨commitReserved
          { s.ledger with reservations := s.ledger.reservations.erase (n + 1) } slot.values,
          slot.reservation⟩ .dropped)
  /-- The handle was reconciled before. -/
  | discards {n : Nat} {slot : Slot Pricing} (hslot : s.slots[n]? = some slot)
      (hstage : slot.stage ≠ .dropped) (hstate : slot.reservation.state = .reconciled) :
      Does s (.drop n) (s.put n slot ⟨s.ledger, slot.reservation⟩ .dropped)

/-- The ledger is the account of its reservations. -/
structure Accounts (s : BudgetSystem Pricing) : Prop where
  /-- Numbers are given one after another. -/
  nextId : s.ledger.nextId = s.slots.length
  /-- Each handle has its own number, and is of this ledger. -/
  handles : ∀ n slot, s.slots[n]? = some slot →
    slot.reservation.id = n + 1 ∧ slot.reservation.inner = ledger.identity
  /-- There is an entry for each handle that is outstanding, with what was reserved for it. -/
  entries : ∀ n slot, s.slots[n]? = some slot →
    s.ledger.reservations[n + 1]? =
      if slot.Outstanding then some ⟨slot.values, slot.reservation.state⟩ else none
  noOthers : ∀ id, s.slots.length < id → s.ledger.reservations[id]? = none
  /-- Every call that was settled is committed once. -/
  calls : s.ledger.committedCalls = s.slots.countP (·.Settled)
  /-- The entries add up to what is outstanding. -/
  totals : ∀ f : ReservationValues Pricing → Nat,
    NumberMap.total (fun entry => f entry.values) s.ledger.reservations =
      ((s.slots.filter (·.Outstanding)).map (fun slot => f slot.values)).sum

/-- What is used of the budget, for good or for now. -/
def BudgetSystem.used (s : BudgetSystem Pricing) : Totals where
  calls := s.ledger.committedCalls + (reservationTotals s.ledger).calls
  inputTokens := s.ledger.committedInput + (reservationTotals s.ledger).inputTokens
  outputTokens := s.ledger.committedOutput + (reservationTotals s.ledger).outputTokens
  costMicroUsd := s.ledger.committedCost + (reservationTotals s.ledger).costMicroUsd

/-- No counter is at its end. -/
structure BudgetSystem.Below (s : BudgetSystem Pricing) : Prop where
  nextId : s.ledger.nextId < u64Max
  calls : s.used.calls < u64Max
  input : s.used.inputTokens < u64Max
  output : s.used.outputTokens < u64Max
  cost : s.used.costMicroUsd < u64Max

variable {ledger costMicroUsd} {s t : BudgetSystem Pricing} {act : Act Pricing} {n : Nat}
  {slot : Slot Pricing}

/-! ### What a call does to the ledger -/

theorem run_reserveModelCall (state : LedgerState Pricing) (clock : WallClock)
    (pricing : Option Pricing) (i o : Nat) :
    (∃ error, (ledger.reserveModelCall costMicroUsd clock pricing i o).run state = .error error state) ∨
    ∃ cost, ledger.reservedCost costMicroUsd pricing i o = .ok cost ∧
      checkLimit "model_calls" ledger.limits.maxModelCalls (saturatingAdd
        (saturatingAdd state.committedCalls (reservationTotals state).calls) 1) = .ok () ∧
      checkLimit "input_tokens" ledger.limits.maxInputTokens (saturatingAdd
        (saturatingAdd state.committedInput (reservationTotals state).inputTokens) i) = .ok () ∧
      checkLimit "output_tokens" ledger.limits.maxOutputTokens (saturatingAdd
        (saturatingAdd state.committedOutput (reservationTotals state).outputTokens) o) = .ok () ∧
      checkLimit "cost_micro_usd" ledger.limits.maxCostMicroUsd (saturatingAdd
        (saturatingAdd state.committedCost (reservationTotals state).costMicroUsd) cost) = .ok () ∧
      (ledger.reserveModelCall costMicroUsd clock pricing i o).run state =
        .ok ⟨saturatingAdd state.nextId 1, ledger.identity, .reserved⟩
          { state with
            nextId := saturatingAdd state.nextId 1
            reservations := state.reservations.insert (saturatingAdd state.nextId 1)
              ⟨⟨i, o, cost, pricing⟩, .reserved⟩ } := by
  cases hrun : (ledger.reserveModelCall costMicroUsd clock pricing i o).run state with
  | error error t =>
    have hclean : FailsClean (ledger.reserveModelCall costMicroUsd clock pricing i o) state := by
      unfold BudgetLedger.reserveModelCall
      refine FailsClean.check_bind fun _ _ => ?_
      refine FailsClean.check_bind fun cost _ => ?_
      refine FailsClean.read_bind ?_
      refine FailsClean.check_bind fun _ _ => ?_
      refine FailsClean.check_bind fun _ _ => ?_
      refine FailsClean.check_bind fun _ _ => ?_
      refine FailsClean.check_bind fun _ _ => ?_
      intro error t h
      cases h
    have hsame : t = state := hclean error t hrun
    exact .inl ⟨error, hsame ▸ rfl⟩
  | ok reservation t =>
    unfold BudgetLedger.reserveModelCall at hrun
    obtain ⟨_, _, hrun⟩ := run_check_bind_eq_ok.mp hrun
    obtain ⟨cost, hcost, hrun⟩ := run_check_bind_eq_ok.mp hrun
    rw [run_read_bind, id_eq] at hrun
    obtain ⟨_, hcalls, hrun⟩ := run_check_bind_eq_ok.mp hrun
    obtain ⟨_, hinput, hrun⟩ := run_check_bind_eq_ok.mp hrun
    obtain ⟨_, houtput, hrun⟩ := run_check_bind_eq_ok.mp hrun
    obtain ⟨_, hcost', hrun⟩ := run_check_bind_eq_ok.mp hrun
    cases hrun
    exact .inr ⟨cost, hcost, hcalls, hinput, houtput, hcost', rfl⟩

/-- The entry of a reservation that is outstanding. -/
theorem Accounts.entry (ha : Accounts ledger s) (hslot : s.slots[n]? = some slot)
    (hstage : slot.stage ≠ .dropped) (hstate : slot.reservation.state ≠ .reconciled) :
    s.ledger.reservations[slot.reservation.id]? = some ⟨slot.values, slot.reservation.state⟩ := by
  rw [(ha.handles n slot hslot).1, ha.entries n slot hslot, if_pos ⟨hstage, hstate⟩]

theorem after_markStarted (ha : Accounts ledger s) (hslot : s.slots[n]? = some slot)
    (hheld : slot.stage = .held) :
    after (markStarted.run ⟨s.ledger, slot.reservation⟩) =
      if slot.reservation.state = .reserved then
        ⟨{ s.ledger with
            reservations := s.ledger.reservations.insert (n + 1) ⟨slot.values, .started⟩ },
          { slot.reservation with state := .started }⟩
      else ⟨s.ledger, slot.reservation⟩ := by
  by_cases hstate : slot.reservation.state = .reserved
  · rw [if_pos hstate, ← (ha.handles n slot hslot).1]
    have hentry := ha.entry hslot (by rw [hheld]; nofun) (by rw [hstate]; nofun)
    unfold markStarted
    rw [run_read_bind, id_eq, refuseIf_of_not (not_not.mpr hstate), run_check_bind_ok, hentry,
      okOr_some, run_check_bind_ok, refuseIf_of_not (not_not.mpr hstate), run_check_bind_ok]
    rfl
  · rw [if_neg hstate]
    have hcheck := refuseIf_eq_error.mpr
      ⟨hstate, (rfl : BudgetLedgerError.invalidReservation = .invalidReservation)⟩
    unfold markStarted
    rw [run_read_bind, id_eq, hcheck]
    rfl

theorem dropReservation_def (state : LedgerState Pricing) (reservation : BudgetReservation) :
    dropReservation ⟨state, reservation⟩ =
      if reservation.state = .reconciled then state
      else match state.reservations[reservation.id]? with
        | none => state
        | some entry =>
          if entry.state = .started then commitReserved
            { state with reservations := state.reservations.erase reservation.id } entry.values
          else { state with reservations := state.reservations.erase reservation.id } := rfl

theorem dropReservation_eq (ha : Accounts ledger s) (hslot : s.slots[n]? = some slot)
    (hstage : slot.stage ≠ .dropped) :
    dropReservation ⟨s.ledger, slot.reservation⟩ = match slot.reservation.state with
      | .reconciled => s.ledger
      | .reserved => { s.ledger with reservations := s.ledger.reservations.erase (n + 1) }
      | .started => commitReserved
          { s.ledger with reservations := s.ledger.reservations.erase (n + 1) } slot.values := by
  have hid := (ha.handles n slot hslot).1
  rw [dropReservation_def]
  by_cases hstate : slot.reservation.state = .reconciled
  · rw [if_pos hstate, hstate]
  · rw [if_neg hstate, ha.entry hslot hstage hstate, hid]
    cases hstate' : slot.reservation.state with
    | reserved => rfl
    | started => rfl
    | reconciled => exact absurd hstate' hstate

/-- The last checks of `reconcile` change nothing. -/
theorem after_checks {α : Type} (calls input output cost : Except BudgetLedgerError Unit) (a : α)
    (held : Held Pricing) :
    after ((do
      check calls
      check input
      check output
      check cost
      pure a : Method (Held Pricing) BudgetLedgerError α).run held) = held := by
  cases calls <;> cases input <;> cases output <;> cases cost <;> rfl

/-- A call to `reconcile` that is refused leaves everything as it was, and one that is not settles
the reservation, whatever it then says of the limits. -/
theorem after_reconcile (costMicroUsd : Pricing → Usage → Except BudgetLedgerError Nat)
    (caller : BudgetLedger) (clock : WallClock) (usage : Option Usage)
    (disposition : BillingDisposition) (ha : Accounts ledger s) (hb : s.Below)
    (hslot : s.slots[n]? = some slot) (hheld : slot.stage = .held) :
    after ((caller.reconcile costMicroUsd clock usage disposition).run
      ⟨s.ledger, slot.reservation⟩) = ⟨s.ledger, slot.reservation⟩ ∨
    caller.identity = ledger.identity ∧ slot.reservation.state = .started ∧ ∃ i o cost,
      (disposition = .chargeUsage → i = (usage.getD (usageOf 0 0)).inputTokens ∧
        o = (usage.getD (usageOf 0 0)).outputTokens ∧
        exactCost costMicroUsd slot.values.pricing (usage.getD (usageOf 0 0)) disposition = .ok cost) ∧
      (disposition = .noCharge → i = 0 ∧ o = 0 ∧ cost = 0) ∧
      after ((caller.reconcile costMicroUsd clock usage disposition).run
        ⟨s.ledger, slot.reservation⟩) =
        ⟨{ s.ledger with
            committedCalls := saturatingAdd s.ledger.committedCalls 1
            committedInput := saturatingAdd s.ledger.committedInput i
            committedOutput := saturatingAdd s.ledger.committedOutput o
            committedCost := saturatingAdd s.ledger.committedCost cost
            reservations := s.ledger.reservations.erase (n + 1) },
          { slot.reservation with state := .reconciled }⟩ := by
  obtain ⟨hid, hinner⟩ := ha.handles n slot hslot
  unfold BudgetLedger.reconcile
  rw [run_read_bind, id_eq]
  by_cases hrefuse : slot.reservation.inner ≠ caller.identity ∨ slot.reservation.state ≠ .started
  · have hcheck := refuseIf_eq_error.mpr
      ⟨hrefuse, (rfl : BudgetLedgerError.invalidReservation = .invalidReservation)⟩
    rw [hcheck]
    exact .inl rfl
  · rw [refuseIf_of_not hrefuse, run_check_bind_ok]
    push Not at hrefuse
    obtain ⟨hcaller, hstate⟩ := hrefuse
    have hentry := ha.entry hslot (by rw [hheld]; nofun) (by rw [hstate]; nofun)
    rw [hentry, okOr_some, run_check_bind_ok, refuseIf_of_not (not_not.mpr hstate),
      run_check_bind_ok]
    dsimp only
    cases hcost : exactCost costMicroUsd slot.values.pricing (usage.getD (usageOf 0 0)) disposition with
    | error error => exact .inl rfl
    | ok cost =>
      have hcommitted : s.ledger.committedInput < u64Max ∧ s.ledger.committedOutput < u64Max ∧
          s.ledger.committedCost < u64Max :=
        ⟨Nat.lt_of_le_of_lt (Nat.le_add_right _ _) hb.input,
          Nat.lt_of_le_of_lt (Nat.le_add_right _ _) hb.output,
          Nat.lt_of_le_of_lt (Nat.le_add_right _ _) hb.cost⟩
      refine .inr ⟨hcaller ▸ hinner, hstate, ?_⟩
      rw [run_check_bind_ok, ← hid]
      cases disposition with
      | chargeUsage =>
        refine ⟨_, _, cost, fun _ => ⟨rfl, rfl, rfl⟩, nofun, ?_⟩
        exact after_checks _ _ _ _ _ _
      | noCharge =>
        refine ⟨0, 0, 0, nofun, fun _ => ⟨rfl, rfl, rfl⟩, ?_⟩
        have hzero {n : Nat} (h : n < u64Max) : saturatingAdd n 0 = n := by
          unfold saturatingAdd
          omega
        rw [hzero hcommitted.1, hzero hcommitted.2.1, hzero hcommitted.2.2]
        exact after_checks _ _ _ _ _ _

theorem BudgetSystem.put_same (hslot : s.slots[n]? = some slot) (hheld : slot.stage = .held) :
    s.put n slot ⟨s.ledger, slot.reservation⟩ .held = s := by
  have hsame : { slot with reservation := slot.reservation, stage := .held } = slot := by rw [← hheld]
  unfold BudgetSystem.put
  rw [hsame]
  obtain ⟨hlt, hget⟩ := List.getElem?_eq_some_iff.mp hslot
  rw [← hget, List.set_getElem_self]

/-- **What a call comes to.** -/
theorem Takes.does (h : Takes ledger costMicroUsd s act t) (ha : Accounts ledger s) (hb : s.Below) :
    Does ledger costMicroUsd s act t := by
  cases h with
  | @reserve clock pricing i o =>
    rcases run_reserveModelCall s.ledger clock pricing i o with
      ⟨error, hrun⟩ | ⟨cost, hcost, hcalls, hinput, houtput, hcost', hrun⟩
    · rw [hrun]
      exact .refuses
    · have hvalues : reservedValues ledger costMicroUsd pricing i o = ⟨i, o, cost, pricing⟩ := by
        unfold reservedValues
        rw [hcost]
        rfl
      rw [hrun, hvalues]
      exact .reserves hcost hcalls hinput houtput hcost'
  | @markStarted n slot hslot hheld =>
    rw [after_markStarted ha hslot hheld]
    split
    · next hstate => exact .starts hslot hheld hstate
    · next hstate =>
      rw [BudgetSystem.put_same hslot hheld]
      exact .ignores hslot hheld hstate
  | @reconcile caller clock n usage disposition slot hcaller hslot hheld =>
    rcases after_reconcile costMicroUsd caller clock usage disposition ha hb hslot hheld with
      hsame | ⟨hidentity, hstate, i, o, cost, hcharge, hfree, hafter⟩
    · rw [hsame]
      exact .keeps hslot hheld
    · rw [hafter, hcaller hidentity]
      exact .reconciles hslot hheld hstate hcharge hfree
  | @drop n slot hslot hstage =>
    rw [dropReservation_eq ha hslot hstage]
    cases hstate : slot.reservation.state with
    | reserved => exact .releases hslot hstage hstate
    | started => exact .commits hslot hstage hstate
    | reconciled => exact .discards hslot hstage hstate

end

end AikitRuntime.Budget
