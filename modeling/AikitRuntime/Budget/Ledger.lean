import AikitRuntime.Library.Counters
import AikitRuntime.Library.Methods
import AikitRuntime.Library.NumberMaps
import AikitRuntime.Library.Refusals
import AikitRuntime.Durability.Envelopes

/-!
# The budget ledger

`BudgetLedger` keeps what parallel model calls may still use. A call is reserved at its worst case
before it starts, and its reservation is a handle: `markStarted` says that the call is under way,
`reconcile` gives the handle up for what the call really used, and a handle that is dropped instead
releases its reservation, or commits it whole if the call had started.

The state of the ledger is behind one lock, and every function here is what it does while it holds
the lock. A pricing is any type, and `costMicroUsd` any function: how a cost comes out of rates is
not looked at. The wall clock is what a call reads of it. A lock that is poisoned, and a handle that
outlives its ledger, are left out.
-/

namespace AikitRuntime.Budget

open Library Durability Method

/-- `BudgetLimits`. -/
structure BudgetLimits where
  maxModelCalls : Option Nat
  maxInputTokens : Option Nat
  maxOutputTokens : Option Nat
  maxCostMicroUsd : Option Nat
  wallTimeMs : Option Nat
  deriving DecidableEq

/-- `BudgetLedgerError`. -/
inductive BudgetLedgerError where
  | unknownPricing
  | invalid (message : String)
  | exceeded (resource : String) (limit requestedTotal : Nat)
  | invalidReservation
  deriving DecidableEq

/-- `BillingDisposition`. -/
inductive BillingDisposition where
  | chargeUsage
  | noCharge
  deriving DecidableEq

/-- `BudgetLedgerSnapshot`. -/
structure BudgetLedgerSnapshot where
  committedModelCalls : Nat
  committedInputTokens : Nat
  committedOutputTokens : Nat
  committedCostMicroUsd : Nat
  reservedModelCalls : Nat
  reservedInputTokens : Nat
  reservedOutputTokens : Nat
  reservedCostMicroUsd : Nat
  elapsedMs : Nat
  deriving DecidableEq

/-- `ReservationValues`. -/
structure ReservationValues (Pricing : Type) where
  inputTokens : Nat
  outputTokens : Nat
  costMicroUsd : Nat
  pricing : Option Pricing

/-- `ReservationState`. -/
inductive ReservationState where
  | reserved
  | started
  | reconciled
  deriving DecidableEq

/-- `ReservationEntry`. -/
structure ReservationEntry (Pricing : Type) where
  values : ReservationValues Pricing
  state : ReservationState

/-- `LedgerState`. -/
structure LedgerState (Pricing : Type) where
  nextId : Nat
  committedCalls : Nat
  committedInput : Nat
  committedOutput : Nat
  committedCost : Nat
  reservations : NumberMap (ReservationEntry Pricing)

/-- `LedgerState::default()`. -/
def LedgerState.empty {Pricing : Type} : LedgerState Pricing := ⟨0, 0, 0, 0, 0, ∅⟩

/-- `BudgetLedger`: its limits, and which ledger it is (`Arc::ptr_eq`). -/
structure BudgetLedger where
  identity : Nat
  limits : BudgetLimits
  deriving DecidableEq

/-- `BudgetReservation`: `inner` is the ledger that made it. -/
structure BudgetReservation where
  id : Nat
  inner : Nat
  state : ReservationState
  deriving DecidableEq

/-- What a call reads of the clock: the time that has passed, and whether it is past the
deadline, which there is when `wall_time_ms` is set. -/
structure WallClock where
  elapsedMs : Nat
  late : Bool
  deriving DecidableEq

/-- What `reservation_totals` returns. -/
structure Totals where
  calls : Nat
  inputTokens : Nat
  outputTokens : Nat
  costMicroUsd : Nat
  deriving DecidableEq

section
variable {Pricing : Type}

/-- `reservation_totals`. -/
def reservationTotals (state : LedgerState Pricing) : Totals :=
  state.reservations.values.foldl (fun totals reservation =>
    { calls := saturatingAdd totals.calls 1
      inputTokens := saturatingAdd totals.inputTokens reservation.values.inputTokens
      outputTokens := saturatingAdd totals.outputTokens reservation.values.outputTokens
      costMicroUsd := saturatingAdd totals.costMicroUsd reservation.values.costMicroUsd })
    ⟨0, 0, 0, 0⟩

/-- `commit_reserved`. -/
def commitReserved (state : LedgerState Pricing) (values : ReservationValues Pricing) :
    LedgerState Pricing :=
  { state with
    committedCalls := saturatingAdd state.committedCalls 1
    committedInput := saturatingAdd state.committedInput values.inputTokens
    committedOutput := saturatingAdd state.committedOutput values.outputTokens
    committedCost := saturatingAdd state.committedCost values.costMicroUsd }

/-- `snapshot`. -/
def snapshot (clock : WallClock) (state : LedgerState Pricing) : BudgetLedgerSnapshot :=
  let reserved := reservationTotals state
  { committedModelCalls := state.committedCalls
    committedInputTokens := state.committedInput
    committedOutputTokens := state.committedOutput
    committedCostMicroUsd := state.committedCost
    reservedModelCalls := reserved.calls
    reservedInputTokens := reserved.inputTokens
    reservedOutputTokens := reserved.outputTokens
    reservedCostMicroUsd := reserved.costMicroUsd
    elapsedMs := clock.elapsedMs }

/-- `check_limit`. -/
def checkLimit (resource : String) (limit : Option Nat) (requestedTotal : Nat) :
    Except BudgetLedgerError Unit :=
  match limit with
  | some limit => refuseIf (limit < requestedTotal) (.exceeded resource limit requestedTotal)
  | none => .ok ()

/-- `BudgetLedger::check_wall_time`. -/
def BudgetLedger.checkWallTime (ledger : BudgetLedger) (clock : WallClock) :
    Except BudgetLedgerError Unit :=
  match ledger.limits.wallTimeMs with
  | some limit => refuseIf clock.late (.exceeded "wall_time_ms" limit clock.elapsedMs)
  | none => .ok ()

/-- `Usage::default()`, with the tokens of a reservation. -/
def usageOf (inputTokens outputTokens : Nat) : Usage where
  inputTokens
  outputTokens
  cacheCreationInputTokens := 0
  cacheReadInputTokens := 0
  reasoningTokens := 0

variable (costMicroUsd : Pricing → Usage → Except BudgetLedgerError Nat)

/-- What a reservation is priced at. -/
def BudgetLedger.reservedCost (ledger : BudgetLedger) (pricing : Option Pricing)
    (estimatedInputTokens maxOutputTokens : Nat) : Except BudgetLedgerError Nat :=
  match ledger.limits.maxCostMicroUsd, pricing with
  | some _, none => .error .unknownPricing
  | _, some pricing => costMicroUsd pricing (usageOf estimatedInputTokens maxOutputTokens)
  | none, none => .ok 0

/-- `BudgetLedger::reserve_model_call`. -/
def BudgetLedger.reserveModelCall (ledger : BudgetLedger) (clock : WallClock)
    (pricing : Option Pricing) (estimatedInputTokens maxOutputTokens : Nat) :
    Method (LedgerState Pricing) BudgetLedgerError BudgetReservation := do
  check (ledger.checkWallTime clock)
  let reservedCost ← check (ledger.reservedCost costMicroUsd pricing estimatedInputTokens
    maxOutputTokens)
  let state ← read id
  let reserved := reservationTotals state
  check (checkLimit "model_calls" ledger.limits.maxModelCalls
    (saturatingAdd (saturatingAdd state.committedCalls reserved.calls) 1))
  check (checkLimit "input_tokens" ledger.limits.maxInputTokens
    (saturatingAdd (saturatingAdd state.committedInput reserved.inputTokens) estimatedInputTokens))
  check (checkLimit "output_tokens" ledger.limits.maxOutputTokens
    (saturatingAdd (saturatingAdd state.committedOutput reserved.outputTokens) maxOutputTokens))
  check (checkLimit "cost_micro_usd" ledger.limits.maxCostMicroUsd
    (saturatingAdd (saturatingAdd state.committedCost reserved.costMicroUsd) reservedCost))
  let id := saturatingAdd state.nextId 1
  let values := ⟨estimatedInputTokens, maxOutputTokens, reservedCost, pricing⟩
  modify fun state => { state with
    nextId := id
    reservations := state.reservations.insert id ⟨values, .reserved⟩ }
  pure ⟨id, ledger.identity, .reserved⟩

/-- A reservation, with the state of the ledger that made it. -/
structure Held (Pricing : Type) where
  ledger : LedgerState Pricing
  reservation : BudgetReservation

/-- `BudgetReservation::mark_started`. -/
def markStarted : Method (Held Pricing) BudgetLedgerError Unit := do
  let held ← read id
  check (refuseIf (held.reservation.state ≠ .reserved) .invalidReservation)
  let entry ← check (okOr held.ledger.reservations[held.reservation.id]? .invalidReservation)
  check (refuseIf (entry.state ≠ .reserved) .invalidReservation)
  modify fun held =>
    { ledger := { held.ledger with
        reservations := held.ledger.reservations.insert held.reservation.id
          { entry with state := .started } }
      reservation := { held.reservation with state := .started } }

/-- `BudgetReservation::drop`. -/
def dropReservation (held : Held Pricing) : LedgerState Pricing :=
  if held.reservation.state = .reconciled then held.ledger
  else match held.ledger.reservations[held.reservation.id]? with
    | none => held.ledger
    | some entry =>
      let ledger := { held.ledger with
        reservations := held.ledger.reservations.erase held.reservation.id }
      if entry.state = .started then commitReserved ledger entry.values else ledger

/-- What `reconcile` charges for. -/
def exactCost (pricing : Option Pricing) (usage : Usage) :
    BillingDisposition → Except BudgetLedgerError Nat
  | .chargeUsage =>
    match pricing with
    | some pricing => costMicroUsd pricing usage
    | none => .ok 0
  | .noCharge => .ok 0

/-- `BudgetLedger::reconcile`, up to the drop of the handle that it took. -/
def BudgetLedger.reconcile (ledger : BudgetLedger) (clock : WallClock) (usage : Option Usage)
    (disposition : BillingDisposition) :
    Method (Held Pricing) BudgetLedgerError BudgetLedgerSnapshot := do
  let held ← read id
  check (refuseIf (held.reservation.inner ≠ ledger.identity ∨ held.reservation.state ≠ .started)
    .invalidReservation)
  let entry ← check (okOr held.ledger.reservations[held.reservation.id]? .invalidReservation)
  check (refuseIf (entry.state ≠ .started) .invalidReservation)
  let usage := usage.getD (usageOf 0 0)
  let exactCost ← check (exactCost costMicroUsd entry.values.pricing usage disposition)
  modify fun held =>
    { ledger := { held.ledger with
        reservations := held.ledger.reservations.erase held.reservation.id
        committedCalls := saturatingAdd held.ledger.committedCalls 1 }
      reservation := { held.reservation with state := .reconciled } }
  if disposition = .chargeUsage then
    modify fun held => { held with
      ledger := { held.ledger with
        committedInput := saturatingAdd held.ledger.committedInput usage.inputTokens
        committedOutput := saturatingAdd held.ledger.committedOutput usage.outputTokens
        committedCost := saturatingAdd held.ledger.committedCost exactCost } }
  let held ← read id
  check (checkLimit "model_calls" ledger.limits.maxModelCalls held.ledger.committedCalls)
  check (checkLimit "input_tokens" ledger.limits.maxInputTokens held.ledger.committedInput)
  check (checkLimit "output_tokens" ledger.limits.maxOutputTokens held.ledger.committedOutput)
  check (checkLimit "cost_micro_usd" ledger.limits.maxCostMicroUsd held.ledger.committedCost)
  pure (snapshot clock held.ledger)

end

end AikitRuntime.Budget
