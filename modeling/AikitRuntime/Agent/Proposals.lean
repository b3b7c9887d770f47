import AikitRuntime.Agent.Streams

/-!
# The calls a stream proposes

`proposals` reads the calls off the deltas of a turn: a call is proposed where it is
started, and its input is the last one that is sent for its id before the id is started
again. The loop keeps the same list in its variables, one delta at a time, with an index
from an id to the newest call of it; `Tracks` says that the two agree.
-/

namespace AikitRuntime.Agent

open Durability Streaming

/-! ### Reading a stream -/

/-- The input that is sent for a call which was started just before these deltas. -/
def inputFor (id : String) : List StreamDelta → Option Value
  | [] => none
  | .toolCallInput id' input :: deltas =>
    if id' = id then (inputFor id deltas).or (some input) else inputFor id deltas
  | .toolCallStart id' _ :: deltas => if id' = id then none else inputFor id deltas
  | _ :: deltas => inputFor id deltas

/-- The calls that a stream proposes, in the order in which they are started. -/
def proposals : List StreamDelta → List PendingToolCall
  | [] => []
  | .toolCallStart id name :: deltas => ⟨id, name, inputFor id deltas⟩ :: proposals deltas
  | _ :: deltas => proposals deltas

/-- The place of the newest call of an id. -/
def lastIndex (id : String) : List PendingToolCall → Option Nat
  | [] => none
  | call :: calls =>
    match lastIndex id calls with
    | some i => some (i + 1)
    | none => if call.id = id then some 0 else none

/-- The newest call of an id gets an input. -/
def setInput (id : String) (input : Value) (calls : List PendingToolCall) : List PendingToolCall :=
  match lastIndex id calls with
  | some i => calls.modify i fun call => { call with input := some input }
  | none => calls

theorem lastIndex_concat (id : String) (calls : List PendingToolCall) (call : PendingToolCall) :
    lastIndex id (calls ++ [call]) = if call.id = id then some calls.length else lastIndex id calls := by
  induction calls with
  | nil => simp [lastIndex]
  | cons head calls ih =>
    rw [List.cons_append, lastIndex, ih]
    by_cases h : call.id = id
    · simp [h]
    · simp [h, lastIndex]

variable {calls : List PendingToolCall} {id : String}

theorem lastIndex_eq_none :
    lastIndex id calls = none ↔ ∀ call ∈ calls, call.id ≠ id := by
  induction calls with
  | nil => simp [lastIndex]
  | cons call calls ih =>
    rw [lastIndex, List.forall_mem_cons]
    cases hrest : lastIndex id calls with
    | some i => simp [← ih, hrest]
    | none => simp [← ih, hrest]

theorem lastIndex_modify (id : String) (i : Nat) (input : Value) (calls : List PendingToolCall) :
    lastIndex id (calls.modify i fun call => { call with input := some input }) = lastIndex id calls := by
  induction calls generalizing i with
  | nil => cases i <;> rfl
  | cons call calls ih =>
    cases i with
    | zero => rfl
    | succ i =>
      rw [List.modify_succ_cons, lastIndex, lastIndex, ih]

variable {call : PendingToolCall} {input : Value}

theorem setInput_cons_of_later {i : Nat} (h : lastIndex id calls = some i) :
    setInput id input (call :: calls) = call :: setInput id input calls := by
  simp [setInput, lastIndex, h]

theorem setInput_cons_of_last (h : lastIndex id calls = none) :
    setInput id input (call :: calls) =
      (if call.id = id then { call with input := some input } else call) :: setInput id input calls := by
  by_cases hid : call.id = id <;> simp [setInput, lastIndex, h, hid]

/-! ### One more delta -/

theorem inputFor_start (id id' name : String) (deltas : List StreamDelta) :
    inputFor id (deltas ++ [.toolCallStart id' name]) = inputFor id deltas := by
  induction deltas with
  | nil => simp [inputFor]
  | cons delta deltas ih => cases delta <;> simp [inputFor, ih]

theorem inputFor_input_of_ne {id' : String} (h : id' ≠ id) (input : Value)
    (deltas : List StreamDelta) :
    inputFor id (deltas ++ [.toolCallInput id' input]) = inputFor id deltas := by
  induction deltas with
  | nil => simp [inputFor, h]
  | cons delta deltas ih => cases delta <;> simp [inputFor, ih]

variable {deltas : List StreamDelta}

/-- No later call has the id: the input is for this one. -/
theorem inputFor_input_of_last (input : Value)
    (h : lastIndex id (proposals deltas) = none) :
    inputFor id (deltas ++ [.toolCallInput id input]) = some input := by
  induction deltas with
  | nil => simp [inputFor]
  | cons delta deltas ih =>
    cases delta with
    | toolCallStart started name =>
      obtain ⟨hne, hrest⟩ := List.forall_mem_cons.mp (lastIndex_eq_none.mp h)
      rw [List.cons_append, inputFor, if_neg hne]
      exact ih (lastIndex_eq_none.mpr hrest)
    | toolCallInput sent value =>
      rw [List.cons_append, inputFor, ih h]
      simp
    | _ => exact ih h

theorem inputFor_input_of_later (input : Value)
    (h : lastIndex id (proposals deltas) ≠ none) :
    inputFor id (deltas ++ [.toolCallInput id input]) = inputFor id deltas := by
  induction deltas with
  | nil => exact absurd rfl h
  | cons delta deltas ih =>
    cases delta with
    | toolCallStart started name =>
      rw [List.cons_append, inputFor, inputFor]
      by_cases hs : started = id
      · rw [if_pos hs, if_pos hs]
      · rw [if_neg hs, if_neg hs]
        refine ih fun hnone => h ?_
        exact lastIndex_eq_none.mpr (List.forall_mem_cons.mpr ⟨hs, lastIndex_eq_none.mp hnone⟩)
    | toolCallInput sent value => rw [List.cons_append, inputFor, inputFor, ih h]
    | _ => exact ih h

theorem proposals_start (id name : String) (deltas : List StreamDelta) :
    proposals (deltas ++ [.toolCallStart id name]) = proposals deltas ++ [⟨id, name, none⟩] := by
  induction deltas with
  | nil => rfl
  | cons delta deltas ih => cases delta <;> simp [proposals, ih, inputFor_start]

theorem proposals_input (id : String) (input : Value) (deltas : List StreamDelta) :
    proposals (deltas ++ [.toolCallInput id input]) = setInput id input (proposals deltas) := by
  induction deltas with
  | nil => rfl
  | cons delta deltas ih =>
    cases delta with
    | toolCallStart started name =>
      rw [List.cons_append, proposals, proposals, ih]
      cases hrest : lastIndex id (proposals deltas) with
      | some i =>
        rw [setInput_cons_of_later hrest]
        by_cases h : id = started
        · subst h
          rw [inputFor_input_of_later input (by rw [hrest]; simp)]
        · rw [inputFor_input_of_ne h]
      | none =>
        rw [setInput_cons_of_last hrest]
        by_cases h : started = id
        · subst h
          rw [if_pos rfl, inputFor_input_of_last input hrest]
        · rw [if_neg h, inputFor_input_of_ne (Ne.symm h)]
    | _ => exact ih

/-- What starts no call and sends no input. -/
def PlainDelta : StreamDelta → Prop
  | .toolCallStart _ _ | .toolCallInput _ _ => False
  | _ => True

variable {delta : StreamDelta}

theorem inputFor_plain (h : PlainDelta delta) (id : String)
    (deltas : List StreamDelta) : inputFor id (deltas ++ [delta]) = inputFor id deltas := by
  induction deltas with
  | nil =>
    cases delta with
    | toolCallStart _ _ => exact h.elim
    | toolCallInput _ _ => exact h.elim
    | _ => rfl
  | cons head deltas ih => cases head <;> simp [inputFor, ih]

theorem proposals_plain (h : PlainDelta delta)
    (deltas : List StreamDelta) : proposals (deltas ++ [delta]) = proposals deltas := by
  induction deltas with
  | nil =>
    cases delta with
    | toolCallStart _ _ => exact h.elim
    | _ => rfl
  | cons head deltas ih => cases head <;> simp [proposals, ih, inputFor_plain h]

/-! ### Streams without a fault -/

/-- A delta that ends a turn with an error, after these calls: an error of the provider, or an
input for no call. -/
def FaultyDelta (calls : List PendingToolCall) : StreamDelta → Prop
  | .error _ _ => True
  | .toolCallInput id _ => ∀ call ∈ calls, call.id ≠ id
  | _ => False

/-- No delta of the stream is an error, and each input has a call. -/
def Faultless (deltas : List StreamDelta) : Prop :=
  ∀ pre delta post, deltas = pre ++ delta :: post → ¬ FaultyDelta (proposals pre) delta

theorem faultless_nil : Faultless [] := by
  intro pre delta post h
  simp at h

theorem Faultless.concat (h : Faultless deltas)
    (hdelta : ¬ FaultyDelta (proposals deltas) delta) : Faultless (deltas ++ [delta]) := by
  intro pre delta' post heq
  rcases List.eq_nil_or_concat post with rfl | ⟨post, last, rfl⟩
  · obtain ⟨rfl, hlast⟩ := List.append_inj' heq rfl
    cases hlast
    exact hdelta
  · refine h pre delta' post ?_
    rw [List.concat_eq_append, ← List.cons_append, ← List.append_assoc] at heq
    exact (List.append_inj' heq rfl).1

/-! ### The variables of the loop -/

@[simp] theorem Turn.absorb_deltas (cfg : RunConfig) (t : Turn) (delta : StreamDelta) :
    (t.absorb cfg delta).deltas = t.deltas := by
  unfold Turn.absorb
  split
  case h_6 => split <;> rfl
  all_goals rfl

@[simp] theorem Turn.absorb_budgetError (cfg : RunConfig) (t : Turn) (delta : StreamDelta) :
    (t.absorb cfg delta).budgetError = t.budgetError := by
  unfold Turn.absorb
  split
  case h_6 => split <;> rfl
  all_goals rfl

/-- An error of the stream stays. -/
theorem Turn.streamError_of_absorb {cfg : RunConfig} {t : Turn}
    (h : (t.absorb cfg delta).streamError = none) : t.streamError = none := by
  unfold Turn.absorb at h
  split at h
  case h_6 =>
    split at h
    · exact h
    · cases h
  case h_9 => cases h
  all_goals exact h

/-- The stop reason that a delta gives. -/
def stopReasonOf : StreamDelta → Option String
  | .messageStop reason => some reason
  | _ => none

/-- The final stop reason of some deltas. -/
def finalStopReason (deltas : List StreamDelta) : Option String := (deltas.filterMap stopReasonOf).getLast?

theorem finalStopReason_concat (deltas : List StreamDelta) (delta : StreamDelta) :
    finalStopReason (deltas ++ [delta]) = (stopReasonOf delta).or (finalStopReason deltas) := by
  unfold finalStopReason
  rw [List.filterMap_append]
  cases h : stopReasonOf delta with
  | none => simp [h]
  | some reason => simp [h]

/-- The variables have seen the deltas, and keep their proposals. -/
structure Tracks (t : Turn) : Prop where
  calls : t.toolCalls = proposals t.deltas
  index : ∀ id, t.indexById.lookup id = lastIndex id t.toolCalls
  faultless : t.streamError = none → Faultless t.deltas
  stopReason : t.modelStopReason = finalStopReason t.deltas

namespace Tracks

theorem start (retained : RetainedRunBudget) (usage : Usage) : Tracks (.start retained usage) where
  calls := rfl
  index := fun _ => rfl
  faultless := fun _ => faultless_nil
  stopReason := rfl

variable {t : Turn} {cfg : RunConfig}

/-- A delta that neither starts a call nor sends an input. -/
theorem plain (h : Tracks t) {t' : Turn} (hplain : PlainDelta delta)
    (hdeltas : t'.deltas = t.deltas ++ [delta]) (hcalls : t'.toolCalls = t.toolCalls)
    (hindex : t'.indexById = t.indexById)
    (herror : t'.streamError = none → t.streamError = none ∧ ∀ calls, ¬ FaultyDelta calls delta)
    (hstop : t'.modelStopReason = (stopReasonOf delta).or t.modelStopReason) : Tracks t' where
  calls := by rw [hcalls, h.calls, hdeltas, proposals_plain hplain]
  index := by
    rw [hcalls, hindex]
    exact h.index
  faultless hnone := by
    obtain ⟨hclean, hdelta⟩ := herror hnone
    rw [hdeltas]
    exact (h.faultless hclean).concat (hdelta _)
  stopReason := by rw [hstop, h.stopReason, hdeltas, finalStopReason_concat]

theorem toolCallStart (h : Tracks t) (id name : String) (retained : RetainedRunBudget) :
    Tracks (Turn.absorb cfg { t with deltas := t.deltas ++ [.toolCallStart id name], retained }
      (.toolCallStart id name)) where
  calls := by
    show t.toolCalls ++ [_] = _
    rw [h.calls]
    exact (proposals_start id name t.deltas).symm
  index id' := by
    show List.lookup id' ((id, t.toolCalls.length) :: t.indexById) = lastIndex id' (t.toolCalls ++ [_])
    rw [lastIndex_concat]
    by_cases hid : id' = id
    · subst hid
      rw [List.lookup_cons_self, if_pos rfl]
    · simp only [List.lookup_cons, beq_eq_false_iff_ne.mpr hid]
      rw [if_neg (Ne.symm hid)]
      exact h.index id'
  faultless hnone := (h.faultless hnone).concat not_false
  stopReason := h.stopReason.trans (finalStopReason_concat t.deltas (.toolCallStart id name)).symm

theorem toolCallInput (h : Tracks t) (id : String) (input : Value) (retained : RetainedRunBudget) :
    Tracks (Turn.absorb cfg { t with deltas := t.deltas ++ [.toolCallInput id input], retained }
      (.toolCallInput id input)) := by
  have hset := proposals_input id input t.deltas
  have hindex := h.index id
  have hstop := h.stopReason.trans (finalStopReason_concat t.deltas (.toolCallInput id input)).symm
  unfold Turn.absorb
  cases hlookup : t.indexById.lookup id with
  | some i =>
    rw [hlookup] at hindex
    dsimp only
    rw [hlookup]
    refine ⟨?_, fun id' => ?_, fun hnone => (h.faultless hnone).concat fun hstray => ?_, hstop⟩
    · rw [hset, ← h.calls]
      simp [setInput, ← hindex]
    · rw [lastIndex_modify]
      exact h.index id'
    · rw [← h.calls] at hstray
      rw [lastIndex_eq_none.mpr hstray] at hindex
      cases hindex
  | none =>
    rw [hlookup] at hindex
    dsimp only
    rw [hlookup]
    refine ⟨?_, h.index, fun hnone => ?_, hstop⟩
    case refine_2 => cases hnone
    rw [hset, ← h.calls]
    simp [setInput, ← hindex]

/-- **Consuming a delta** keeps the agreement. -/
theorem absorb (h : Tracks t) (delta : StreamDelta) (retained : RetainedRunBudget) :
    Tracks (Turn.absorb cfg { t with deltas := t.deltas ++ [delta], retained } delta) := by
  cases delta with
  | toolCallStart id name => exact h.toolCallStart id name retained
  | toolCallInput id input => exact h.toolCallInput id input retained
  | error message info =>
    refine h.plain (by trivial) rfl rfl rfl (fun hnone => ?_) rfl
    cases hnone
  | _ => exact h.plain (by trivial) rfl rfl rfl (fun hnone => ⟨hnone, fun _ => not_false⟩) rfl

end Tracks

/-! ### Complete calls -/

/-- A call as it was proposed. -/
def ToolCall.proposal (call : ToolCall) : PendingToolCall := ⟨call.id, call.name, some call.input⟩

theorem completeCalls_eq_ok {pending : List PendingToolCall} {calls : List ToolCall}
    (h : completeCalls pending = .ok calls) : pending = calls.map ToolCall.proposal := by
  induction pending generalizing calls with
  | nil =>
    cases h
    rfl
  | cons call pending ih =>
    obtain ⟨id, name, input⟩ := call
    cases input with
    | none => cases h
    | some input =>
      cases hrest : completeCalls pending with
      | error missing => simp [completeCalls, hrest, Except.map] at h
      | ok rest =>
        simp only [completeCalls, hrest, Except.map] at h
        cases h
        rw [ih hrest]
        rfl

end AikitRuntime.Agent
