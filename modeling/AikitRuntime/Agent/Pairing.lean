import AikitRuntime.Agent.Messages
import Mathlib.Data.List.Nodup

/-!
# Paired transcripts

A provider rejects a transcript in which a tool call is not answered by the next message, or
a result answers no call. `PairedFrom calls` reads a transcript after a message with these
calls; `WellPaired` reads one from its beginning.
-/

namespace AikitRuntime.Agent

namespace Message

/-- The id of a call. -/
def useId : ContentBlock → Option String
  | .toolUse id _ _ => some id
  | _ => none

/-- The id of the call that a result answers. -/
def resultId : ContentBlock → Option String
  | .toolResult id _ _ => some id
  | _ => none

/-- The calls of an assistant message. -/
def toolUses (m : Message) : List String := if m.role = .assistant then m.content.filterMap useId else []

/-- The calls that a message has results for. -/
def toolResults (m : Message) : List String := m.content.filterMap resultId

end Message

/-- Each call has one result, and each result a call. -/
def Answers (calls results : List String) : Prop :=
  (∀ id ∈ calls, results.count id = 1) ∧ ∀ id ∈ results, id ∈ calls

/-- Each message answers the calls of the one before it, which was one with these calls. -/
def PairedFrom : List String → List Message → Prop
  | calls, [] => calls = []
  | calls, m :: messages => Answers calls m.toolResults ∧ PairedFrom m.toolUses messages

/-- A transcript that can be resumed. -/
def WellPaired (messages : List Message) : Prop := PairedFrom [] messages

instance (calls results : List String) : Decidable (Answers calls results) :=
  inferInstanceAs (Decidable (_ ∧ _))

/-- Pairing can be decided, by recursion on the transcript. -/
def decidePairedFrom : (calls : List String) → (messages : List Message) →
    Decidable (PairedFrom calls messages)
  | calls, [] => inferInstanceAs (Decidable (calls = []))
  | _, m :: messages =>
    have := decidePairedFrom m.toolUses messages
    inferInstanceAs (Decidable (_ ∧ _))

instance (messages : List Message) : Decidable (WellPaired messages) := decidePairedFrom [] messages

theorem answers_nil {results : List String} : Answers [] results ↔ results = [] := by
  constructor
  · intro h
    exact List.eq_nil_iff_forall_not_mem.mpr fun id hid => List.not_mem_nil (h.2 id hid)
  · rintro rfl
    exact ⟨fun _ hid => absurd hid List.not_mem_nil, fun _ hid => absurd hid List.not_mem_nil⟩

variable {calls : List String}

/-- Distinct calls are answered by their own ids. -/
theorem answers_self (h : calls.Nodup) : Answers calls calls :=
  ⟨fun _ hid => List.count_eq_one_of_mem h hid, fun _ hid => hid⟩

variable {messages : List Message}

theorem PairedFrom.append {more : List Message}
    (h : PairedFrom calls messages) (hmore : WellPaired more) : PairedFrom calls (messages ++ more) := by
  induction messages generalizing calls with
  | nil =>
    obtain rfl : calls = [] := h
    exact hmore
  | cons m messages ih => exact ⟨h.1, ih h.2⟩

/-- **A paired transcript goes on** with another. -/
theorem WellPaired.append {more : List Message} (h : WellPaired messages)
    (hmore : WellPaired more) : WellPaired (messages ++ more) := PairedFrom.append h hmore

/-! ### Rewriting the prompt -/

theorem filterMap_rewriteText (replacement : String) (blocks : List ContentBlock) :
    (rewriteText replacement blocks).filterMap Message.resultId = blocks.filterMap Message.resultId := by
  induction blocks with
  | nil => rfl
  | cons block blocks ih =>
    cases block with
    | text content => rfl
    | toolResult id content isError => exact congrArg (id :: ·) ih
    | _ => exact ih

/-- What a message is to its neighbours. -/
def Message.sides (m : Message) : List String × List String := (m.toolUses, m.toolResults)

theorem sides_rewriteUserPrompt (replacement : String) (messages : List Message) :
    (rewriteUserPrompt replacement messages).map Message.sides = messages.map Message.sides := by
  induction messages with
  | nil => rfl
  | cons m messages ih =>
    unfold rewriteUserPrompt
    by_cases hrole : m.role = .user
    · rw [if_pos hrole, List.map_cons, List.map_cons]
      congr 1
      unfold Message.sides Message.toolUses Message.toolResults
      rw [filterMap_rewriteText, hrole]
      rfl
    · rw [if_neg hrole, List.map_cons, List.map_cons, ih]

/-- Pairing only looks at what the messages are to each other. -/
theorem pairedFrom_congr {messages' : List Message}
    (h : messages.map Message.sides = messages'.map Message.sides) :
    PairedFrom calls messages ↔ PairedFrom calls messages' := by
  induction messages generalizing messages' calls with
  | nil =>
    obtain rfl := List.map_eq_nil_iff.mp h.symm
    rfl
  | cons m messages ih =>
    cases messages' with
    | nil => simp at h
    | cons m' messages' =>
      obtain ⟨hm, hrest⟩ := List.cons_eq_cons.mp h
      obtain ⟨huses, hresults⟩ := Prod.mk.inj hm
      rw [PairedFrom, PairedFrom, huses, hresults, ih hrest]

/-- **Rewriting the prompt** keeps the pairs. -/
theorem wellPaired_rewrite (replacement : String) (h : WellPaired messages) :
    WellPaired (rewriteLatestUserPrompt messages replacement) := by
  refine (pairedFrom_congr ?_).mpr h
  unfold rewriteLatestUserPrompt
  rw [List.map_reverse, sides_rewriteUserPrompt, ← List.map_reverse, List.reverse_reverse]

end AikitRuntime.Agent
