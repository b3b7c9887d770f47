import Mathlib.Data.Set.Insert
import AikitRuntime.Library.Paths
import AikitRuntime.Streaming.Deltas

/-!
# The lifecycle of a stream

What a stream of events may look like, with no encoder in sight. A `StreamView` is what a
reader of a stream has to remember: which blocks were started, which of them are open, whether
the response was started, and whether the stream is over. `Follows v k w` says that an event of
kind `k` may come next, and what it makes of the view; a well-behaved stream is a path of it.

A view does not ask that a stream be over with no block open.
-/

namespace AikitRuntime.Streaming

open Library Durability

namespace StreamEventKind

/-- The block that an event starts. -/
def startOf : StreamEventKind → Option String
  | .blockStart blockId _ _ => some blockId
  | _ => none

/-- The block that an event ends. -/
def endOf : StreamEventKind → Option String
  | .blockEnd blockId _ => some blockId
  | _ => none

/-- The block that an event continues or ends. -/
def refersTo : StreamEventKind → Option String
  | .blockDelta blockId _ | .blockEnd blockId _ => some blockId
  | _ => none

/-- The event starts the response. -/
def isResponseStart : StreamEventKind → Bool
  | .responseStart .. => true
  | _ => false

/-- The event ends the stream. -/
def isTerminal : StreamEventKind → Bool
  | .responseEnd .. | .error .. => true
  | _ => false

/-- The event is about no block, and neither starts nor ends the stream. -/
def isPassedOn : StreamEventKind → Bool
  | .providerMetadata .. | .usage .. | .warning .. => true
  | _ => false

end StreamEventKind

/-- What a reader remembers of a stream. -/
structure StreamView where
  started : Set String
  opened : Set String
  responded : Prop
  ended : Prop

/-- Before the first event. -/
def StreamView.start : StreamView := ⟨∅, ∅, False, False⟩

/-- An event that may come next, and the view after it. -/
inductive Follows (v : StreamView) : StreamEventKind → StreamView → Prop where
  | responseStart {responseId model : String} (hrun : ¬ v.ended) (hfirst : ¬ v.responded) :
      Follows v (.responseStart responseId model) { v with responded := True }
  | blockStart {blockId : String} {blockKind : StreamBlockKind} {name : Option String}
      (hrun : ¬ v.ended) (hfresh : blockId ∉ v.started) :
      Follows v (.blockStart blockId blockKind name)
        { v with started := insert blockId v.started, opened := insert blockId v.opened }
  | blockDelta {blockId : String} {delta : Value} (hrun : ¬ v.ended) (hopen : blockId ∈ v.opened) :
      Follows v (.blockDelta blockId delta) v
  | blockEnd {blockId : String} {value : Option Value} (hrun : ¬ v.ended)
      (hopen : blockId ∈ v.opened) :
      Follows v (.blockEnd blockId value) { v with opened := v.opened \ {blockId} }
  | passedOn {kind : StreamEventKind} (hrun : ¬ v.ended) (hkind : kind.isPassedOn = true) :
      Follows v kind v
  | terminal {kind : StreamEventKind} (hrun : ¬ v.ended) (hkind : kind.isTerminal = true) :
      Follows v kind { v with ended := True }

/-- A well-behaved stream takes one view to another. -/
abbrev Stream : StreamView → List StreamEventKind → StreamView → Prop := Path Follows

section
variable {v w : StreamView} {kind : StreamEventKind} {kinds : List StreamEventKind} {b : String}

/-! ### One event -/

theorem Follows.started (h : Follows v kind w) : b ∈ w.started ↔ b ∈ v.started ∨ kind.startOf = some b := by
  cases h with
  | blockStart => simp [StreamEventKind.startOf, or_comm, eq_comm]
  | passedOn _ hkind | terminal _ hkind =>
    cases kind <;> simp [StreamEventKind.startOf, StreamEventKind.isPassedOn,
      StreamEventKind.isTerminal] at hkind ⊢
  | _ => simp [StreamEventKind.startOf]

theorem Follows.opened (h : Follows v kind w) :
    b ∈ w.opened ↔ (b ∈ v.opened ∨ kind.startOf = some b) ∧ kind.endOf ≠ some b := by
  cases h with
  | blockStart => simp [StreamEventKind.startOf, StreamEventKind.endOf, or_comm, eq_comm]
  | blockEnd => simp [StreamEventKind.startOf, StreamEventKind.endOf, eq_comm]
  | passedOn _ hkind | terminal _ hkind =>
    cases kind <;> simp [StreamEventKind.startOf, StreamEventKind.endOf, StreamEventKind.isPassedOn,
      StreamEventKind.isTerminal] at hkind ⊢
  | _ => simp [StreamEventKind.startOf, StreamEventKind.endOf]

theorem Follows.fresh (h : Follows v kind w) (hstart : kind.startOf = some b) : b ∉ v.started := by
  cases h with
  | blockStart _ hfresh => cases hstart; exact hfresh
  | passedOn _ hkind | terminal _ hkind => cases kind <;> cases hkind <;> cases hstart
  | _ => cases hstart

theorem Follows.refers (h : Follows v kind w) (hrefers : kind.refersTo = some b) : b ∈ v.opened := by
  cases h with
  | blockDelta _ hopen | blockEnd _ hopen => cases hrefers; exact hopen
  | passedOn _ hkind | terminal _ hkind => cases kind <;> cases hkind <;> cases hrefers
  | _ => cases hrefers

theorem Follows.responded (h : Follows v kind w) :
    (w.responded ↔ v.responded ∨ kind.isResponseStart = true) ∧
      (kind.isResponseStart = true → ¬ v.responded) := by
  cases h with
  | responseStart _ hfirst => simpa [StreamEventKind.isResponseStart] using hfirst
  | passedOn _ hkind | terminal _ hkind =>
    cases kind <;> simp [StreamEventKind.isResponseStart, StreamEventKind.isPassedOn,
      StreamEventKind.isTerminal] at hkind ⊢
  | _ => simp [StreamEventKind.isResponseStart]

theorem Follows.ended (h : Follows v kind w) :
    ¬ v.ended ∧ (w.ended ↔ kind.isTerminal = true) := by
  cases h with
  | terminal hrun hkind => simp [hrun, hkind]
  | passedOn hrun hkind =>
    cases kind <;> simp [StreamEventKind.isPassedOn, StreamEventKind.isTerminal, hrun] at hkind ⊢
  | responseStart hrun | blockStart hrun | blockDelta hrun | blockEnd hrun =>
    simp [StreamEventKind.isTerminal, hrun]

/-! ### A whole stream -/

/-- The blocks that a list of events starts. -/
def Starts (kinds : List StreamEventKind) (b : String) : Prop := ∃ k ∈ kinds, k.startOf = some b

/-- The blocks that a list of events ends. -/
def Ends (kinds : List StreamEventKind) (b : String) : Prop := ∃ k ∈ kinds, k.endOf = some b

/-- What is over stays over, and ends with its last event. -/
theorem Stream.ended (h : Stream v kinds w) :
    w.ended ↔ (v.ended ∨ ∃ k ∈ kinds, k.isTerminal = true) := by
  induction h with
  | nil => simp
  | cons hstep _ ih =>
    obtain ⟨hrun, hover⟩ := hstep.ended
    rw [ih, hover]
    simp [hrun]

/-- **Nothing follows the end of a stream.** -/
theorem Stream.last_of_terminal {pre post : List StreamEventKind}
    (h : Stream v (pre ++ kind :: post) w) (hkind : kind.isTerminal = true) : post = [] := by
  obtain ⟨u, -, hrest⟩ := h.exists_mid
  cases hrest with
  | cons hstep hpost =>
    cases hpost with
    | nil => rfl
    | cons hnext => exact absurd (hstep.ended.2.mpr hkind) hnext.ended.1

/-- **A delta or an end is of an open block.** -/
theorem Stream.refers {pre post : List StreamEventKind}
    (h : Stream v (pre ++ kind :: post) w) (hrefers : kind.refersTo = some b) :
    ∃ u, Stream v pre u ∧ b ∈ u.opened := by
  obtain ⟨u, hpre, hrest⟩ := h.exists_mid
  cases hrest with
  | cons hstep => exact ⟨u, hpre, hstep.refers hrefers⟩

/-- A block that was started is not started again. -/
theorem Stream.not_starts (h : Stream v kinds w) (hb : b ∈ v.started) : ¬ Starts kinds b := by
  induction h with
  | nil => simp [Starts]
  | cons hstep _ ih =>
    rintro ⟨k, hk, hstart⟩
    rcases List.mem_cons.mp hk with rfl | hrest
    · exact hstep.fresh hstart hb
    · exact ih (hstep.started.mpr (.inl hb)) ⟨k, hrest, hstart⟩

/-- **A block is started at most once.** -/
theorem Stream.started_once (h : Stream v kinds w) :
    kinds.countP (fun k => k.startOf = some b) ≤ 1 := by
  induction h with
  | nil => simp
  | @cons v t w kind kinds hstep hrest ih =>
    by_cases hstart : kind.startOf = some b
    · have hnone := Stream.not_starts hrest (hstep.started.mpr (.inr hstart))
      have hzero : kinds.countP (fun k => k.startOf = some b) = 0 :=
        List.countP_eq_zero.mpr fun k hk hk' => hnone ⟨k, hk, by simpa using hk'⟩
      rw [List.countP_cons_of_pos (by simpa using hstart), hzero]
    · rwa [List.countP_cons_of_neg (by simpa using hstart)]

/-- **The response is started at most once.** -/
theorem Stream.response_once (h : Stream v kinds w) :
    kinds.countP (·.isResponseStart) ≤ 1 ∧ (v.responded → kinds.countP (·.isResponseStart) = 0) := by
  induction h with
  | nil => simp
  | @cons v t w kind kinds hstep _ ih =>
    obtain ⟨hresponded, hfirst⟩ := hstep.responded
    by_cases hkind : kind.isResponseStart = true
    · rw [List.countP_cons_of_pos hkind, ih.2 (hresponded.mpr (.inr hkind))]
      exact ⟨le_rfl, fun h => absurd h (hfirst hkind)⟩
    · rw [List.countP_cons_of_neg hkind]
      exact ⟨ih.1, fun h => ih.2 (hresponded.mpr (.inl h))⟩

/-- Open blocks can be ended, one after the other. -/
theorem Stream.blockEnds {bs : List String} (hrun : ¬ v.ended) (hbs : bs.Nodup)
    (hopen : ∀ b ∈ bs, b ∈ v.opened) :
    Stream v (bs.map (.blockEnd · none)) { v with opened := v.opened \ {b | b ∈ bs} } := by
  induction bs generalizing v with
  | nil =>
    have hsame : v.opened \ {b | b ∈ ([] : List String)} = v.opened := by
      ext b
      simp
    rw [hsame]
    exact .nil v
  | cons b bs ih =>
    obtain ⟨hfresh, hrest⟩ := List.nodup_cons.mp hbs
    have hopen' : ∀ a ∈ bs, a ∈ v.opened \ {b} := fun a ha =>
      ⟨hopen a (List.mem_cons_of_mem b ha), fun heq => hfresh (heq ▸ ha)⟩
    have hsame : (v.opened \ {b}) \ {a | a ∈ bs} = v.opened \ {a | a ∈ b :: bs} := by
      ext a
      simp [and_assoc]
    rw [← hsame]
    exact .cons (.blockEnd hrun (hopen b List.mem_cons_self))
      (ih (v := { v with opened := v.opened \ {b} }) hrun hrest hopen')

/-! ### How often a block is ended -/

/-- Only a block that was started is open. -/
def StreamView.Sound (v : StreamView) : Prop := v.opened ⊆ v.started

theorem Follows.sound (h : Follows v kind w) (hv : v.Sound) : w.Sound := by
  intro b hb
  rcases (h.opened.mp hb).1 with hold | hnew
  · exact h.started.mpr (.inl (hv hold))
  · exact h.started.mpr (.inr hnew)

open Classical in
/-- One for an open block, and nothing for another. -/
noncomputable def StreamView.openCount (v : StreamView) (b : String) : Nat :=
  if b ∈ v.opened then 1 else 0

/-- One event keeps the balance of a block. -/
theorem Follows.balance (h : Follows v kind w) (hv : v.Sound) :
    (if kind.endOf = some b then 1 else 0) + w.openCount b =
      (if kind.startOf = some b then 1 else 0) + v.openCount b := by
  unfold StreamView.openCount
  have hopened := h.opened (b := b)
  by_cases hstart : kind.startOf = some b
  · have hclosed : b ∉ v.opened := fun hb => h.fresh hstart (hv hb)
    have hend : kind.endOf ≠ some b := by
      cases kind <;> simp [StreamEventKind.startOf, StreamEventKind.endOf] at hstart ⊢
    have hnew : b ∈ w.opened := hopened.mpr ⟨.inr hstart, hend⟩
    simp [hstart, hend, hclosed, hnew]
  · by_cases hend : kind.endOf = some b
    · have hopen : b ∈ v.opened := by
        refine h.refers ?_
        cases kind <;> simp [StreamEventKind.endOf, StreamEventKind.refersTo] at hend ⊢
        exact hend
      have hclosed : b ∉ w.opened := fun hb => (hopened.mp hb).2 hend
      simp [hstart, hend, hopen, hclosed]
    · have hsame : b ∈ w.opened ↔ b ∈ v.opened := by
        rw [hopened]
        simp [hstart, hend]
      by_cases hb : b ∈ v.opened
      · simp [hstart, hend, hb, hsame.mpr hb]
      · simp [hstart, hend, hb, mt hsame.mp hb]

/-- **The balance of a block**: it is ended as often as it is started, less one while it is open. -/
theorem Stream.balance (h : Stream v kinds w) (hv : v.Sound) :
    kinds.countP (fun k => k.endOf = some b) + w.openCount b =
      kinds.countP (fun k => k.startOf = some b) + v.openCount b := by
  induction h with
  | nil => simp
  | cons hstep _ ih =>
    have hone := hstep.balance (b := b) hv
    have hrest := ih (hstep.sound hv)
    rw [List.countP_cons, List.countP_cons]
    simp only [decide_eq_true_eq]
    omega

theorem StreamView.sound_start : StreamView.start.Sound := Set.empty_subset _

theorem Stream.balance_start (h : Stream .start kinds w) :
    kinds.countP (fun k => k.endOf = some b) + w.openCount b =
      kinds.countP (fun k => k.startOf = some b) := by
  have hbalance := Stream.balance h StreamView.sound_start (b := b)
  rwa [show StreamView.start.openCount b = 0 from if_neg (Set.notMem_empty b)] at hbalance

theorem starts_iff : Starts kinds b ↔ 0 < kinds.countP (fun k => k.startOf = some b) := by
  simp [Starts, List.countP_pos_iff]

theorem ends_iff : Ends kinds b ↔ 0 < kinds.countP (fun k => k.endOf = some b) := by
  simp [Ends, List.countP_pos_iff]

/-- An open block was started, and has not been ended. -/
theorem Stream.of_opened (h : Stream .start kinds w) (hb : b ∈ w.opened) :
    Starts kinds b ∧ ¬ Ends kinds b := by
  have hbalance := Stream.balance_start h (b := b)
  have honce := Stream.started_once h (b := b)
  rw [show w.openCount b = 1 from if_pos hb] at hbalance
  rw [starts_iff, ends_iff]
  omega

/-- **A block that is no longer open was ended exactly once.** -/
theorem Stream.ended_once (h : Stream .start kinds w) (hb : b ∉ w.opened) (hstarts : Starts kinds b) :
    kinds.countP (fun k => k.endOf = some b) = 1 := by
  have hbalance := Stream.balance_start h (b := b)
  have honce := Stream.started_once h (b := b)
  rw [show w.openCount b = 0 from if_neg hb] at hbalance
  have hpos := starts_iff.mp hstarts
  omega

end

end AikitRuntime.Streaming
