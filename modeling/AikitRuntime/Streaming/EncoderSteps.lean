import AikitRuntime.Streaming.Encoder
import AikitRuntime.Streaming.Lifecycle

/-!
# What one push does

The counter of the encoder says how many events there are so far, so the encoder after `c`
events is `e.withCount c`, and the events that it makes of some kinds are those kinds with the
next numbers on them (`stamp`). `Encodes e delta kinds e'` says which kinds a delta turns into
and what it makes of the rest of the encoder; `Fits` says when it is encoded at all.
-/

namespace AikitRuntime.Streaming

open Library Durability Method

namespace StreamEventEncoder

variable {e : StreamEventEncoder} {c n : Nat}

/-! ### Counted encoders and numbered events -/

/-- The encoder after `count` events. -/
def withCount (e : StreamEventEncoder) (count : Nat) : StreamEventEncoder :=
  { e with nextSequence := checkedAdd count 1 }

/-- The events of some kinds, numbered from the one after `count`. -/
def stamp (responseId : String) : Nat → List StreamEventKind → List StreamEvent
  | _, [] => []
  | count, kind :: kinds =>
    ⟨eventIdOf responseId (count + 1), count + 1, kind⟩ :: stamp responseId (count + 1) kinds

@[simp] theorem stamp_nil (r : String) (c : Nat) : stamp r c [] = [] := rfl

@[simp] theorem stamp_append (r : String) (c : Nat) (ks ls : List StreamEventKind) :
    stamp r c (ks ++ ls) = stamp r c ks ++ stamp r (c + ks.length) ls := by
  induction ks generalizing c with
  | nil => rfl
  | cons k ks ih => simp [stamp, ih, Nat.add_assoc, Nat.add_comm 1]

@[simp] theorem map_kind_stamp (r : String) (c : Nat) (ks : List StreamEventKind) :
    (stamp r c ks).map (·.kind) = ks := by
  induction ks generalizing c with
  | nil => rfl
  | cons k ks ih => simp [stamp, ih]

theorem map_sequence_stamp (r : String) (c : Nat) (ks : List StreamEventKind) :
    (stamp r c ks).map (·.sequence) = List.range' (c + 1) ks.length := by
  induction ks generalizing c with
  | nil => rfl
  | cons k ks ih => simp [stamp, ih, List.range'_succ]

theorem map_eventId_stamp (r : String) (c : Nat) (ks : List StreamEventKind) :
    (stamp r c ks).map (·.eventId) = (List.range' (c + 1) ks.length).map (eventIdOf r) := by
  induction ks generalizing c with
  | nil => rfl
  | cons k ks ih => simp [stamp, ih, List.range'_succ]

theorem eventIdOf_injective (r : String) : Function.Injective (eventIdOf r) := by
  intro m n h
  have hrepr : m.repr = n.repr := by simpa [eventIdOf, String.append_right_inj] using h
  have hdigits := congrArg (fun s : String => Nat.ofDigitChars 10 s.toList 0) hrepr
  simpa [Nat.ofDigitChars_toDigits] using hdigits

/-- There is room for some more events. -/
theorem ensureSequenceCapacity_withCount {k : Nat} :
    (e.withCount c).ensureSequenceCapacity k = .ok () ↔ k = 0 ∨ c + k ≤ u64Max := by
  unfold ensureSequenceCapacity withCount
  rw [refuseIf_eq_ok]
  unfold checkedAdd
  by_cases hk : k = 0
  · simp [hk]
  · by_cases hc : c + 1 ≤ u64Max
    · simp only [ne_eq, hk, not_false_eq_true, if_pos hc, Option.bind_some, true_and, false_or]
      split
      · simp; omega
      · simp; omega
    · simp only [ne_eq, hk, not_false_eq_true, if_neg hc, Option.bind_none, Option.isNone_none,
        and_self, not_true_eq_false, false_or, false_iff]
      omega

theorem run_emit (kind : StreamEventKind) (h : c + 1 ≤ u64Max) :
    (emit kind).run (e.withCount c) =
      .ok ⟨eventIdOf e.responseId (c + 1), c + 1, kind⟩ (e.withCount (c + 1)) := by
  have hnext : (e.withCount c).nextSequence = some (c + 1) := if_pos h
  unfold emit
  rw [run_read_bind, id_eq, hnext]
  rfl

/-! ### Generated identities -/

/-- The identity of a generated block. -/
def generatedId (responseId label : String) (number : Nat) : String :=
  s!"{responseId}-{label}-{number}"

/-- The identity that `block_id` finds for a label, and the counter it leaves. -/
def Generates (e : StreamEventEncoder) (label b : String) (next : Option Nat) : Prop :=
  ∃ n k, e.nextBlock = some n ∧ n ≤ k ∧ k ≤ u64Max ∧ b = generatedId e.responseId label k ∧
    b ∉ e.startedBlocks ∧ next = checkedAdd k 1

/-- There is an identity left for a label. -/
def HasFreeBlock (e : StreamEventEncoder) (label : String) : Prop :=
  ∃ n k, e.nextBlock = some n ∧ n ≤ k ∧ k ≤ u64Max ∧
    generatedId e.responseId label k ∉ e.startedBlocks

theorem Generates.fresh {label b : String} {next : Option Nat} (h : e.Generates label b next) :
    b ∉ e.startedBlocks := by
  obtain ⟨_, _, _, _, _, _, hfresh, _⟩ := h
  exact hfresh

theorem Generates.hasFreeBlock {label b : String} {next : Option Nat}
    (h : e.Generates label b next) : e.HasFreeBlock label := by
  obtain ⟨n, k, hn, hle, hmax, rfl, hfresh, _⟩ := h
  exact ⟨n, k, hn, hle, hmax, hfresh⟩

/-- The loop of `block_id` stops at the first number that is free. -/
theorem run_blockIdLoop {label : String} {fuel : Nat} (hn : e.nextBlock = some n)
    (hmax : n ≤ u64Max) (hfuel : u64Max + 1 < fuel + n) :
    (∃ b next, e.Generates label b next ∧
      (blockIdLoop label fuel).run e = .ok b { e with nextBlock := next }) ∨
    (¬ e.HasFreeBlock label ∧ (blockIdLoop label fuel).run e =
      .error (.rejected .blockIdExhausted) { e with nextBlock := none }) := by
  induction fuel generalizing e n with
  | zero => omega
  | succ fuel ih =>
    have hturn : (blockIdLoop label (fuel + 1)).run e =
        (if e.startedBlocks.contains (generatedId e.responseId label n) then
          blockIdLoop label fuel else pure (generatedId e.responseId label n)).run
            { e with nextBlock := checkedAdd n 1 } := by
      show (check (okOr e.nextBlock _) >>= _).run e = _
      rw [hn]
      rfl
    rw [hturn]
    by_cases htaken : generatedId e.responseId label n ∈ e.startedBlocks
    · rw [if_pos (Std.ExtTreeMap.mem_iff_contains.mp htaken)]
      by_cases hlast : n + 1 ≤ u64Max
      · -- the number is taken: the rest of the search is the search from the next one
        have hnext : checkedAdd n 1 = some (n + 1) := if_pos hlast
        rcases ih (e := { e with nextBlock := checkedAdd n 1 }) hnext hlast (by omega) with
          ⟨b, next, ⟨m, k, hm, hle, hk, hb, hfresh, heq⟩, hrun⟩ | ⟨hnone, hrun⟩
        · rw [hnext, Option.some.injEq] at hm
          exact .inl ⟨b, next, ⟨n, k, hn, by omega, hk, hb, hfresh, heq⟩, hrun⟩
        · refine .inr ⟨fun ⟨m, k, hm, hle, hk, hfree⟩ => hnone ⟨n + 1, k, hnext, ?_, hk, hfree⟩, hrun⟩
          rw [hn, Option.some.injEq] at hm
          by_cases heq : k = n
          · exact absurd htaken (heq ▸ hfree)
          · omega
      · have hnext : checkedAdd n 1 = none := if_neg hlast
        refine .inr ⟨fun ⟨m, k, hm, hle, hk, hfree⟩ => ?_, ?_⟩
        · rw [hn, Option.some.injEq] at hm
          have heq : k = n := by omega
          exact hfree (heq ▸ htaken)
        · rw [hnext]
          cases fuel with
          | zero => rfl
          | succ fuel => rfl
    · rw [if_neg (mt Std.ExtTreeMap.mem_iff_contains.mpr htaken)]
      exact .inl ⟨_, _, ⟨n, n, hn, Nat.le_refl n, hmax, rfl, htaken, rfl⟩, rfl⟩

/-- **A generated identity is fresh, and one is found as long as there is one.** -/
theorem run_blockId (label : String) (hmax : ∀ n, e.nextBlock = some n → n ≤ u64Max) :
    (∃ b next, e.Generates label b next ∧
      (blockId label).run e = .ok b { e with nextBlock := next }) ∨
    (¬ e.HasFreeBlock label ∧ (blockId label).run e =
      .error (.rejected .blockIdExhausted) { e with nextBlock := none }) := by
  show (∃ b next, _ ∧ (blockIdLoop label (u64Max + 2 - e.nextBlock.getD u64Max)).run e = _) ∨
    (_ ∧ (blockIdLoop label (u64Max + 2 - e.nextBlock.getD u64Max)).run e = _)
  cases hn : e.nextBlock with
  | some n =>
    have hle := hmax n hn
    exact run_blockIdLoop hn hle (by rw [Option.getD_some]; omega)
  | none =>
    refine .inr ⟨fun ⟨n, _, hsome, _⟩ => ?_, ?_⟩
    · rw [hn] at hsome
      cases hsome
    · have hsame : { e with nextBlock := none } = e := by rw [← hn]
      rw [hsame, Option.getD_none, show u64Max + 2 - u64Max = 1 + 1 by omega]
      show (check (okOr e.nextBlock _) >>= _).run e = _
      rw [hn]
      rfl

/-! ### What a delta writes -/

/-- The identity of a tool's block. -/
def toolBlockId (responseId id : String) : String := s!"{responseId}-tool-{id}"

/-- The blocks that are open, in the order in which they are closed with the stream. -/
def openBlocks (e : StreamEventEncoder) : List String :=
  e.activeText.toList ++ e.activeReasoning.toList ++ e.activeTools.values

/-- The encoder after it took an identity. -/
def taking (e : StreamEventEncoder) (b : String) (next : Option Nat) : StreamEventEncoder :=
  { e with nextBlock := next, startedBlocks := e.startedBlocks.insert b () }

/-- The encoder with no block open. -/
def closed (e : StreamEventEncoder) : StreamEventEncoder :=
  { e with activeText := none, activeReasoning := none, activeTools := ∅ }

/-- What one delta can write, and what it makes of the encoder; the counter is not looked at. -/
inductive Writes (e : StreamEventEncoder) : List StreamEventKind → StreamEventEncoder → Prop where
  | response {model : String} (hfirst : e.responseStarted = false) :
      Writes e [.responseStart e.responseId model] { e with responseStarted := true }
  /-- A block that is open goes on. -/
  | goesOn {b : String} {delta : Value} (hopen : b ∈ e.openBlocks) : Writes e [.blockDelta b delta] e
  | textOpens {b : String} {next : Option Nat} {delta : Value} (hnone : e.activeText = none)
      (hnew : e.Generates "text" b next) :
      Writes e [.blockStart b .text none, .blockDelta b delta]
        { e.taking b next with activeText := some b }
  | reasoningOpens {b : String} {next : Option Nat} {delta : Value}
      (hnone : e.activeReasoning = none) (hnew : e.Generates "reasoning" b next) :
      Writes e [.blockStart b .reasoning none, .blockDelta b delta]
        { e.taking b next with activeReasoning := some b }
  | reasoningEnds {b : String} {value : Option Value} (hopen : e.activeReasoning = some b) :
      Writes e [.blockEnd b value] { e with activeReasoning := none }
  /-- A block that is over with the delta that starts it. -/
  | oneShot {label b : String} {next : Option Nat} {blockKind : StreamBlockKind}
      {value : Option Value} (hnew : e.Generates label b next) :
      Writes e [.blockStart b blockKind none, .blockEnd b value] (e.taking b next)
  | toolOpens {id name : String} (hnew : toolBlockId e.responseId id ∉ e.startedBlocks) :
      Writes e [.blockStart (toolBlockId e.responseId id) .toolCall (some name)]
        { e.taking (toolBlockId e.responseId id) e.nextBlock with
          activeTools := e.activeTools.insert id (toolBlockId e.responseId id) }
  | passedOn {kind : StreamEventKind} (hkind : kind.isPassedOn = true) : Writes e [kind] e
  /-- The stream ends, and every open block with it. -/
  | ends {kind : StreamEventKind} (hkind : kind.isTerminal = true) :
      Writes e (e.openBlocks.map (.blockEnd · none) ++ [kind])
        { e.closed with terminated := true }

/-- The label of the block that a delta may have to generate. -/
def label : StreamDelta → String
  | .textDelta _ => "text"
  | .reasoningDelta _ | .reasoningComplete .. => "reasoning"
  | .toolResult .. => "tool-result"
  | .citation .. => "citation"
  | _ => ""

/-- A tool call starts once, and goes on only after it started. -/
def KnowsTool (e : StreamEventEncoder) : StreamDelta → Prop
  | .toolCallStart id _ => toolBlockId e.responseId id ∉ e.startedBlocks
  | .toolCallInput id _ => id ∈ e.activeTools
  | _ => True

/-- **A delta fits an encoder**: it is in place in the lifecycle, its events can be numbered, and
its block is there or can be started. -/
structure Fits (e : StreamEventEncoder) (delta : StreamDelta) : Prop where
  lifecycle : e.checkLifecycle delta = .ok ()
  capacity : e.ensureSequenceCapacity (e.requiredEventSlots delta) = .ok ()
  block : e.requiresGeneratedBlock delta = true → e.HasFreeBlock (label delta)
  tool : e.KnowsTool delta

/-- What keeps the slots of an encoder apart. -/
structure Sound (e : StreamEventEncoder) : Prop where
  nextBlock_le : ∀ n, e.nextBlock = some n → n ≤ u64Max
  started : ∀ b ∈ e.openBlocks, b ∈ e.startedBlocks
  tools : ∀ id b : String, e.activeTools[id]? = some b → b = toolBlockId e.responseId id
  apart : ∀ b, e.activeText = some b → e.activeReasoning ≠ some b
  toolsApart : ∀ id b : String, e.activeTools[id]? = some b →
    e.activeText ≠ some b ∧ e.activeReasoning ≠ some b

/-! ### The parts of an encoding -/

section
variable (e) {b : String} {label : String} {next : Option Nat} {blockKind : StreamBlockKind}

theorem run_startBlock (blockKind : StreamBlockKind) (name : Option String) (hfresh : b ∉ e.startedBlocks)
    (h : c + 1 ≤ u64Max) :
    (startBlock b blockKind name).run (e.withCount c) =
      .ok ⟨eventIdOf e.responseId (c + 1), c + 1, .blockStart b blockKind name⟩
        ((e.taking b e.nextBlock).withCount (c + 1)) := by
  have hcheck : refuseIf (e.startedBlocks.contains b)
      (EncoderFault.rejected (.duplicateBlockStart b)) = .ok () :=
    refuseIf_of_not (mt Std.ExtTreeMap.mem_iff_contains.mpr hfresh)
  show (check (refuseIf (e.startedBlocks.contains b) _) >>= _).run _ = _
  rw [hcheck, run_check_bind_ok, run_modify_bind]
  exact run_emit (e := e.taking b e.nextBlock) _ h

theorem run_startBlock_taken (blockKind : StreamBlockKind) (name : Option String)
    (htaken : b ∈ e.startedBlocks) :
    (startBlock b blockKind name).run (e.withCount c) =
      .error (.rejected (.duplicateBlockStart b)) (e.withCount c) := by
  have hcheck : refuseIf (e.startedBlocks.contains b)
      (EncoderFault.rejected (.duplicateBlockStart b)) = .error (.rejected (.duplicateBlockStart b)) :=
    refuseIf_eq_error.mpr ⟨Std.ExtTreeMap.mem_iff_contains.mp htaken, rfl⟩
  show (check (refuseIf (e.startedBlocks.contains b) _) >>= _).run _ = _
  rw [hcheck]
  rfl

theorem run_oneShot {value : Value} (hnew : e.Generates label b next)
    (hrun : (blockId label).run (e.withCount c) = .ok b { e.withCount c with nextBlock := next })
    (h : c + 2 ≤ u64Max) :
    (oneShot label blockKind value).run (e.withCount c) =
      .ok (stamp e.responseId c [.blockStart b blockKind none, .blockEnd b (some value)])
        ((e.taking b next).withCount (c + 2)) := by
  unfold oneShot
  have hstart := run_startBlock (c := c) { e with nextBlock := next } blockKind none hnew.fresh
    (by omega)
  refine (run_bind_ok hrun).trans ((run_bind_ok hstart).trans ?_)
  exact run_bind_ok (run_emit (e := e.taking b next) _ h)

theorem run_closeBlocks {bs : List String} (h : c + bs.length ≤ u64Max) :
    (bs.mapM closeBlock).run (e.withCount c) =
      .ok (stamp e.responseId c (bs.map (.blockEnd · none))) (e.withCount (c + bs.length)) := by
  induction bs generalizing c with
  | nil => rfl
  | cons b bs ih =>
    rw [List.length_cons] at h ⊢
    have hrest := ih (c := c + 1) (by omega)
    rw [show c + 1 + bs.length = c + (bs.length + 1) by omega] at hrest
    rw [List.mapM_cons]
    exact (run_bind_ok (run_emit _ (by omega))).trans (run_bind_ok hrest)

theorem run_closeOpenBlocks (h : c + e.openBlocks.length ≤ u64Max) :
    closeOpenBlocks.run (e.withCount c) =
      .ok (stamp e.responseId c (e.openBlocks.map (.blockEnd · none)))
        (e.closed.withCount (c + e.openBlocks.length)) := by
  have hlength : e.openBlocks.length = e.activeText.toList.length +
      e.activeReasoning.toList.length + e.activeTools.values.length := by
    simp only [openBlocks, List.length_append]
  have htext := @run_closeBlocks { e with activeText := none } c e.activeText.toList (by omega)
  have hreasoning := @run_closeBlocks { e with activeText := none, activeReasoning := none }
    (c + e.activeText.toList.length) e.activeReasoning.toList (by omega)
  have htools := @run_closeBlocks e.closed
    (c + e.activeText.toList.length + e.activeReasoning.toList.length) e.activeTools.values (by omega)
  unfold closeOpenBlocks
  rw [run_read_bind, run_modify_bind]
  refine (run_bind_ok htext).trans ?_
  rw [run_modify_bind]
  refine (run_bind_ok hreasoning).trans ?_
  rw [run_modify_bind]
  refine (run_bind_ok htools).trans ?_
  rw [hlength]
  simp only [openBlocks, List.map_append, stamp_append, List.length_map, List.length_append,
    Nat.add_assoc]
  rfl

end

/-! ### One delta -/

/-- How an attempt to encode a delta ends. -/
inductive Tried (e : StreamEventEncoder) (c : Nat) (delta : StreamDelta) :
    EStateM.Result EncoderFault StreamEventEncoder (List StreamEvent) → Prop where
  | encoded {kinds : List StreamEventKind} {e' : StreamEventEncoder}
      (hfits : (e.withCount c).Fits delta) (hrun : e.terminated = false) (hwrites : Writes e kinds e')
      (hroom : c + kinds.length ≤ u64Max) :
      Tried e c delta (.ok (stamp e.responseId c kinds) (e'.withCount (c + kinds.length)))
  | rejected {error : StreamEncodingError} {next : Option Nat}
      (hfits : ¬ (e.withCount c).Fits delta) (hnext : ∀ n, next = some n → n ≤ u64Max)
      (herror : error = .streamTerminated ↔ e.terminated = true) :
      Tried e c delta (.error (.rejected error) ({ e with nextBlock := next }.withCount c))

/-- A generated block is opened, and `enter` puts it into its slot. -/
def openBlock (label : String) (blockKind : StreamBlockKind)
    (enter : String → StreamEventEncoder → StreamEventEncoder) :
    Encoding (String × List StreamEvent) := do
  let b ← blockId label
  let event ← startBlock b blockKind none
  modify (enter b)
  pure (b, [event])

theorem run_openBlock (label : String) (blockKind : StreamBlockKind)
    (enter : String → StreamEventEncoder → StreamEventEncoder)
    (henter : ∀ b e c, enter b (withCount e c) = (enter b e).withCount c)
    (hmax : ∀ n, e.nextBlock = some n → n ≤ u64Max) (hroom : c + 1 ≤ u64Max) :
    (∃ b next, e.Generates label b next ∧
      (openBlock label blockKind enter).run (e.withCount c) =
        .ok (b, stamp e.responseId c [.blockStart b blockKind none])
          ((enter b (e.taking b next)).withCount (c + 1))) ∨
    (¬ e.HasFreeBlock label ∧ (openBlock label blockKind enter).run (e.withCount c) =
      .error (.rejected .blockIdExhausted) ({ e with nextBlock := none }.withCount c)) := by
  unfold openBlock
  rcases run_blockId (e := e.withCount c) label hmax with ⟨b, next, hnew, hid⟩ | ⟨hnone, hid⟩
  · have hstart := run_startBlock (c := c) { e with nextBlock := next } blockKind none hnew.fresh
      hroom
    refine .inl ⟨b, next, hnew, (run_bind_ok hid).trans ((run_bind_ok hstart).trans ?_)⟩
    rw [run_modify_bind, henter]
    rfl
  · exact .inr ⟨hnone, run_bind_error hid⟩

/-- A block that is open is used, and else one is opened. -/
theorem run_ensure (ensure : Encoding (String × List StreamEvent)) (slot : Option String) (label : String)
    (blockKind : StreamBlockKind) (enter : String → StreamEventEncoder → StreamEventEncoder)
    (henter : ∀ b e c, enter b (withCount e c) = (enter b e).withCount c)
    (hensure : ensure.run (e.withCount c) = (match slot with
      | some b => pure (b, [])
      | none => openBlock label blockKind enter : Encoding _).run (e.withCount c))
    (hmax : ∀ n, e.nextBlock = some n → n ≤ u64Max) (hroom : c + 1 ≤ u64Max) :
    (∃ b, slot = some b ∧ ensure.run (e.withCount c) = .ok (b, []) (e.withCount c)) ∨
    slot = none ∧ ((∃ b next, e.Generates label b next ∧
      ensure.run (e.withCount c) = .ok (b, stamp e.responseId c [.blockStart b blockKind none])
        ((enter b (e.taking b next)).withCount (c + 1))) ∨
      (¬ e.HasFreeBlock label ∧ ensure.run (e.withCount c) =
        .error (.rejected .blockIdExhausted) ({ e with nextBlock := none }.withCount c))) := by
  rw [hensure]
  cases slot with
  | none => exact .inr ⟨rfl, run_openBlock label blockKind enter henter hmax hroom⟩
  | some b => exact .inl ⟨b, rfl, rfl⟩

variable {delta : StreamDelta}

/-- No identity is left. -/
theorem Tried.exhausted (hrun : e.terminated = false) (hnone : ¬ e.HasFreeBlock (label delta))
    (hblock : e.requiresGeneratedBlock delta = true) :
    Tried e c delta
      (.error (.rejected .blockIdExhausted) { e.withCount c with nextBlock := none }) :=
  .rejected (fun hfits => hnone (hfits.block hblock)) nofun
    ⟨nofun, fun h => absurd h (by rw [hrun]; nofun)⟩

theorem tried_oneShot {blockKind : StreamBlockKind} {value : Value}
    {label' : String} (hs : e.Sound) (hrun : e.terminated = false)
    (hfits : e.HasFreeBlock (label delta) → (e.withCount c).Fits delta)
    (hlabel : label delta = label') (hblock : e.requiresGeneratedBlock delta = true)
    (hroom : c + 2 ≤ u64Max) :
    Tried e c delta ((oneShot label' blockKind value).run (e.withCount c)) := by
  subst hlabel
  rcases run_blockId (e := e.withCount c) (label delta) hs.nextBlock_le with
    ⟨b, next, hnew, hid⟩ | ⟨hnone, hid⟩
  · rw [run_oneShot e hnew hid hroom]
    exact .encoded (hfits hnew.hasFreeBlock) hrun (.oneShot hnew) hroom
  · rw [show (oneShot (label delta) blockKind value).run (e.withCount c) = _ from
      run_bind_error hid]
    exact Tried.exhausted hrun hnone hblock

/-- A delta that goes on with the block in a slot, or opens it first. -/
theorem tried_ensured {label' : String}
    {ensure : Encoding (String × List StreamEvent)} (slot : Option String)
    (blockKind : StreamBlockKind) (enter : String → StreamEventEncoder → StreamEventEncoder)
    (leave : StreamEventEncoder → StreamEventEncoder) (kind : String → StreamEventKind)
    (hrun : e.terminated = false)
    (hensure :
      (∃ b, slot = some b ∧ ensure.run (e.withCount c) = .ok (b, []) (e.withCount c)) ∨
      slot = none ∧ ((∃ b next, e.Generates label' b next ∧
        ensure.run (e.withCount c) = .ok (b, stamp e.responseId c [.blockStart b blockKind none])
          ((enter b (e.taking b next)).withCount (c + 1))) ∨
        (¬ e.HasFreeBlock label' ∧ ensure.run (e.withCount c) =
          .error (.rejected .blockIdExhausted) ({ e with nextBlock := none }.withCount c))))
    (hencode : encode delta = (do
      let (b, events) ← ensure
      modify leave
      let event ← emit (kind b)
      pure (events ++ [event])))
    (hleave : ∀ e c, leave (withCount e c) = (leave e).withCount c ∧
      (leave e).responseId = e.responseId)
    (henter : ∀ b e, (enter b e).responseId = e.responseId)
    (hfits : (slot = none → e.HasFreeBlock label') → (e.withCount c).Fits delta)
    (hlabel : label delta = label')
    (hblock : slot = none → e.requiresGeneratedBlock delta = true)
    (hroom : c + (1 + slot.isNone.toNat) ≤ u64Max)
    (hgoesOn : ∀ b, slot = some b → Writes e [kind b] (leave e))
    (hopens : ∀ b next, slot = none → e.Generates label' b next →
      Writes e [.blockStart b blockKind none, kind b] (leave (enter b (e.taking b next)))) :
    Tried e c delta ((encode delta).run (e.withCount c)) := by
  rw [hencode]
  rcases hensure with ⟨b, hopen, hrun'⟩ | ⟨hnone, ⟨b, next, hnew, hrun'⟩ | ⟨hfull, hrun'⟩⟩
  · have hroom' : c + 1 ≤ u64Max := by omega
    have hemit := run_emit (e := leave e) (kind b) hroom'
    rw [← (hleave e c).1, (hleave e c).2] at hemit
    rw [run_bind_ok hrun', run_modify_bind, run_bind_ok hemit]
    refine .encoded (hfits fun h => ?_) hrun (hgoesOn b hopen) hroom'
    rw [hopen] at h
    cases h
  · rw [hnone] at hroom
    have hemit := run_emit (e := leave (enter b (e.taking b next))) (c := c + 1) (kind b) hroom
    rw [← (hleave _ _).1, (hleave _ (c + 1)).2, henter] at hemit
    rw [run_bind_ok hrun', run_modify_bind, run_bind_ok hemit]
    exact .encoded (hfits fun _ => hnew.hasFreeBlock) hrun (hopens b next hnone hnew) hroom
  · rw [run_bind_error hrun']
    exact Tried.exhausted hrun (hlabel ▸ hfull) (hblock hnone)

theorem length_openBlocks (e : StreamEventEncoder) :
    1 + e.openBlocks.length = 1 + e.activeText.isSome.toNat + e.activeReasoning.isSome.toNat +
      e.activeTools.size := by
  have hlength (slot : Option String) : slot.toList.length = slot.isSome.toNat := by
    cases slot <;> rfl
  have htools : e.activeTools.values.length = e.activeTools.size := by
    rw [BTreeMap.values, List.length_map, Std.ExtTreeMap.length_toList]
  rw [openBlocks, List.length_append, List.length_append, hlength, hlength, htools]
  omega

/-- The end of a stream: every open block is closed, and one event ends it. -/
theorem run_closing (e : StreamEventEncoder) (kind : StreamEventEncoder → StreamEventKind)
    (hroom : c + e.openBlocks.length + 1 ≤ u64Max) :
    (do
      let closed ← closeOpenBlocks
      let e ← read id
      let event ← emit (kind e)
      modify fun e => { e with terminated := true }
      pure (closed ++ [event]) : Encoding _).run (e.withCount c) =
      .ok (stamp e.responseId c (e.openBlocks.map (.blockEnd · none) ++
          [kind (e.closed.withCount (c + e.openBlocks.length))]))
        ({ e.closed with terminated := true }.withCount (c + (e.openBlocks.length + 1))) := by
  have hclosed := run_closeOpenBlocks e (c := c) (by omega)
  have hemit := run_emit (e := e.closed) (kind (e.closed.withCount (c + e.openBlocks.length))) hroom
  rw [run_bind_ok hclosed, run_read_bind, id_eq, run_bind_ok hemit, run_modify_bind, stamp_append, List.length_map]
  rfl

theorem Tried.ended {kind : StreamEventKind}
    (hfits : (e.withCount c).Fits delta) (hrun : e.terminated = false)
    (hkind : kind.isTerminal = true) (hroom : c + e.openBlocks.length + 1 ≤ u64Max) :
    Tried e c delta (.ok (stamp e.responseId c (e.openBlocks.map (.blockEnd · none) ++ [kind]))
      ({ e.closed with terminated := true }.withCount (c + (e.openBlocks.length + 1)))) := by
  have hlength : (e.openBlocks.map (StreamEventKind.blockEnd · none) ++ [kind]).length =
      e.openBlocks.length + 1 := by simp
  rw [← hlength]
  exact .encoded hfits hrun (.ends hkind) (by rw [hlength]; exact hroom)

theorem run_encode_toolCallStart (e : StreamEventEncoder) (c : Nat) (id name : String) :
    (encode (.toolCallStart id name)).run (e.withCount c) = (do
      let event ← startBlock (toolBlockId e.responseId id) .toolCall (some name)
      modify fun e' =>
        { e' with activeTools := e'.activeTools.insert id (toolBlockId e.responseId id) }
      pure [event] : Encoding _).run (e.withCount c) := by
  rw [encode, run_read_bind]
  rfl

/-- **The arms of `try_push`**: a delta that passed the checks is encoded if it fits. -/
theorem run_encode (hs : e.Sound) (hrun : e.terminated = false)
    (hlife : (e.withCount c).checkLifecycle delta = .ok ())
    (hcap : (e.withCount c).ensureSequenceCapacity (e.requiredEventSlots delta) = .ok ()) :
    Tried e c delta ((encode delta).run (e.withCount c)) := by
  have hroom : c + e.requiredEventSlots delta ≤ u64Max := by
    rcases ensureSequenceCapacity_withCount.mp hcap with hzero | hle
    · cases delta <;> simp [requiredEventSlots] at hzero
    · exact hle
  have hfits (hblock : e.requiresGeneratedBlock delta = true → e.HasFreeBlock (label delta))
      (htool : e.KnowsTool delta) : (e.withCount c).Fits delta := ⟨hlife, hcap, hblock, htool⟩
  have hplain (hblock : e.requiresGeneratedBlock delta = false) (htool : e.KnowsTool delta) :
      (e.withCount c).Fits delta :=
    hfits (fun h => absurd (hblock.symm.trans h) Bool.false_ne_true) htool
  have hrejects {error : StreamEncodingError} (htool : ¬ e.KnowsTool delta)
      (herror : error ≠ .streamTerminated) :
      Tried e c delta (.error (.rejected error) (e.withCount c)) :=
    @Tried.rejected e c delta error e.nextBlock (fun hfits => htool hfits.tool) hs.nextBlock_le
      ⟨fun h => absurd h herror, fun h => absurd (hrun.symm.trans h) Bool.false_ne_true⟩
  have hemits (kind : StreamEventKind) {d : StreamEventEncoder}
      (hsame : d.responseId = e.responseId) (hroom : c + 1 ≤ u64Max) :
      (do let event ← emit kind; pure [event] : Encoding _).run (d.withCount c) =
        .ok (stamp e.responseId c [kind]) (d.withCount (c + 1)) := by
    rw [run_bind_ok (run_emit kind hroom), hsame]
    rfl
  cases delta with
  | messageStart model =>
    have hfirst : e.responseStarted = false := by
      simpa [checkLifecycle, withCount, hrun] using hlife
    have hrun' : (encode (.messageStart model)).run (e.withCount c) = _ :=
      hemits (.responseStart e.responseId model) (d := { e with responseStarted := true }) rfl hroom
    rw [hrun']
    exact .encoded (hplain rfl trivial) hrun (.response hfirst) hroom
  | textDelta text =>
    have hone : c + 1 ≤ u64Max := Nat.le_trans (by simp [requiredEventSlots]) hroom
    refine tried_ensured e.activeText .text (fun b e => { e with activeText := some b }) id
      (fun b => .blockDelta b (.ofFields [("text", .string text)])) hrun
      (run_ensure ensureText _ _ _ _ (fun _ _ _ => rfl) rfl hs.nextBlock_le hone) rfl (fun _ _ => ⟨rfl, rfl⟩) (fun _ _ => rfl)
      (fun h => hfits (fun hb => h ?_) trivial) rfl ?_ hroom (fun b hopen => .goesOn ?_)
      (fun b next hnone hnew => .textOpens hnone hnew)
    · exact Option.isNone_iff_eq_none.mp hb
    · exact Option.isNone_iff_eq_none.mpr
    · simp [openBlocks, hopen]
  | reasoningDelta text =>
    have hone : c + 1 ≤ u64Max := Nat.le_trans (by simp [requiredEventSlots]) hroom
    refine tried_ensured e.activeReasoning .reasoning
      (fun b e => { e with activeReasoning := some b }) id
      (fun b => .blockDelta b (.ofFields [("text", .string text)])) hrun
      (run_ensure ensureReasoning _ _ _ _ (fun _ _ _ => rfl) rfl hs.nextBlock_le hone) rfl (fun _ _ => ⟨rfl, rfl⟩) (fun _ _ => rfl)
      (fun h => hfits (fun hb => h ?_) trivial) rfl ?_ hroom (fun b hopen => .goesOn ?_)
      (fun b next hnone hnew => .reasoningOpens hnone hnew)
    · exact Option.isNone_iff_eq_none.mp hb
    · exact Option.isNone_iff_eq_none.mpr
    · simp [openBlocks, hopen]
  | reasoningComplete text signature opaqueData =>
    have hone : c + 1 ≤ u64Max := Nat.le_trans (by simp [requiredEventSlots]) hroom
    refine tried_ensured e.activeReasoning .reasoning
      (fun b e => { e with activeReasoning := some b }) (fun e => { e with activeReasoning := none })
      (fun b => .blockEnd b (some (.ofFields [("text", .string text),
        ("signature", jsonOption (signature.map .string)), ("opaque", jsonOption opaqueData)])))
      hrun (run_ensure ensureReasoning _ _ _ _ (fun _ _ _ => rfl) rfl hs.nextBlock_le hone) rfl (fun _ _ => ⟨rfl, rfl⟩)
      (fun _ _ => rfl)
      (fun h => hfits (fun hb => h ?_) trivial) rfl ?_ hroom
      (fun b hopen => .reasoningEnds hopen) fun b next hnone hnew => ?_
    · exact Option.isNone_iff_eq_none.mp hb
    · exact Option.isNone_iff_eq_none.mpr
    · -- the slot was empty and is empty again
      have hslot : { e.taking b next with activeReasoning := none } = e.taking b next := by
        rw [← hnone]
        rfl
      show Writes e _ { e.taking b next with activeReasoning := none }
      rw [hslot]
      exact .oneShot hnew
  | toolCallStart id name =>
    by_cases hnew : toolBlockId e.responseId id ∈ e.startedBlocks
    · have hstart := run_startBlock_taken (c := c) e .toolCall (some name) hnew
      have hrun' : (encode (.toolCallStart id name)).run (e.withCount c) =
          .error (.rejected (.duplicateBlockStart (toolBlockId e.responseId id))) (e.withCount c) := by
        rw [run_encode_toolCallStart]
        exact run_bind_error hstart
      rw [hrun']
      exact hrejects (fun htool => htool hnew) (by rintro ⟨⟩)
    · have hstart := run_startBlock (c := c) e .toolCall (some name) hnew hroom
      have hrun' : (encode (.toolCallStart id name)).run (e.withCount c) =
          .ok (stamp e.responseId c
              [.blockStart (toolBlockId e.responseId id) .toolCall (some name)])
            ({ e.taking (toolBlockId e.responseId id) e.nextBlock with
                activeTools := e.activeTools.insert id (toolBlockId e.responseId id) }.withCount
              (c + 1)) := by
        rw [run_encode_toolCallStart]
        exact run_bind_ok hstart
      rw [hrun']
      exact .encoded (hplain rfl hnew) hrun (.toolOpens hnew) hroom
  | toolCallInput id input =>
    obtain hnone | ⟨b, hopen⟩ := Option.eq_none_or_eq_some e.activeTools[id]?
    · have hrun' : (encode (.toolCallInput id input)).run (e.withCount c) =
          .error (.rejected (.deltaBeforeBlockStart (toolBlockId e.responseId id)))
            (e.withCount c) := by
        show (check (okOr e.activeTools[id]? _) >>= _ : Encoding _).run _ = _
        rw [hnone]
        rfl
      rw [hrun']
      refine hrejects (fun htool => ?_) (by rintro ⟨⟩)
      rw [KnowsTool, Std.ExtTreeMap.mem_iff_isSome_getElem?, hnone] at htool
      cases htool
    · have hrun' : (encode (.toolCallInput id input)).run (e.withCount c) =
          .ok (stamp e.responseId c [.blockDelta b (.ofFields [("input", input)])])
            (e.withCount (c + 1)) := by
        show (check (okOr e.activeTools[id]? _) >>= _ : Encoding _).run _ = _
        rw [hopen]
        exact hemits (.blockDelta b (.ofFields [("input", input)])) rfl hroom
      rw [hrun']
      have hopen' : b ∈ e.openBlocks := by
        simp only [openBlocks, List.mem_append]
        exact .inr (BTreeMap.mem_values.mpr ⟨id, hopen⟩)
      refine .encoded (hplain rfl ?_) hrun (.goesOn hopen') hroom
      rw [KnowsTool, Std.ExtTreeMap.mem_iff_isSome_getElem?, hopen]
      rfl
  | toolResult toolUseId content isError =>
    exact tried_oneShot hs hrun (fun h => hfits (fun _ => h) trivial) rfl rfl hroom
  | citation text source metadata =>
    exact tried_oneShot hs hrun (fun h => hfits (fun _ => h) trivial) rfl rfl hroom
  | providerMetadata provider metadata =>
    rw [show (encode (.providerMetadata provider metadata)).run (e.withCount c) = _ from
      hemits (.providerMetadata provider metadata) rfl hroom]
    exact .encoded (hplain rfl trivial) hrun (.passedOn rfl) hroom
  | warning warning =>
    rw [show (encode (.warning warning)).run (e.withCount c) = _ from
      hemits (.warning warning) rfl hroom]
    exact .encoded (hplain rfl trivial) hrun (.passedOn rfl) hroom
  | usage usage =>
    rw [show (encode (.usage usage)).run (e.withCount c) = _ from hemits (.usage usage) rfl hroom]
    exact .encoded (hplain rfl trivial) hrun (.passedOn rfl) hroom
  | messageStop stopReason =>
    have hroom' : c + e.openBlocks.length + 1 ≤ u64Max := by
      rw [requiredEventSlots, ← length_openBlocks] at hroom
      omega
    rw [show (encode (.messageStop stopReason)).run (e.withCount c) = _ from
      run_closing e (fun e => .responseEnd e.responseId stopReason) hroom']
    exact Tried.ended (hplain rfl trivial) hrun rfl hroom'
  | error message info =>
    have hroom' : c + e.openBlocks.length + 1 ≤ u64Max := by
      rw [requiredEventSlots, ← length_openBlocks] at hroom
      omega
    rw [show (encode (.error message info)).run (e.withCount c) = _ from
      run_closing e (fun _ => .error message info) hroom']
    exact Tried.ended (hplain rfl trivial) hrun rfl hroom'

theorem not_terminated_of_checkLifecycle
    (h : (e.withCount c).checkLifecycle delta = .ok ()) : e.terminated = false := by
  unfold checkLifecycle at h
  obtain ⟨_, hrun, _⟩ := bind_eq_ok.mp h
  exact Bool.eq_false_iff.mpr (refuseIf_eq_ok.mp hrun)

theorem checkLifecycle_eq_error {error : StreamEncodingError}
    (h : (e.withCount c).checkLifecycle delta = .error error) :
    error = .streamTerminated ↔ e.terminated = true := by
  unfold checkLifecycle at h
  by_cases hover : e.terminated = true
  · have hcheck : refuseIf ((e.withCount c).terminated = true) StreamEncodingError.streamTerminated =
        .error .streamTerminated := refuseIf_eq_error.mpr ⟨hover, rfl⟩
    rw [hcheck, error_bind] at h
    cases h
    exact ⟨fun _ => hover, fun _ => rfl⟩
  · rw [refuseIf_of_not (c := (e.withCount c).terminated = true) hover, ok_bind] at h
    refine ⟨fun heq => ?_, fun h => absurd h hover⟩
    subst heq
    cases delta <;> simp [refuseIf_eq_error] at h

/-- **A delta is encoded exactly when it fits**, and one that does not leaves all but the counter
of generated identities as it was. -/
theorem run_tryPush (delta : StreamDelta) (hs : e.Sound) :
    Tried e c delta ((tryPush delta).run (e.withCount c)) := by
  have htry : (tryPush delta).run (e.withCount c) = (do
      check (reject ((e.withCount c).checkLifecycle delta))
      check (reject ((e.withCount c).ensureSequenceCapacity (e.requiredEventSlots delta)))
      check (refuseIf (e.requiresGeneratedBlock delta ∧ e.nextBlock = none)
        (.rejected .blockIdExhausted))
      encode delta : Encoding _).run (e.withCount c) := rfl
  have hrejects {error : StreamEncodingError} (hfits : ¬ (e.withCount c).Fits delta)
      (herror : error = .streamTerminated ↔ e.terminated = true) :
      Tried e c delta (.error (.rejected error) (e.withCount c)) :=
    @Tried.rejected e c delta error e.nextBlock hfits hs.nextBlock_le herror
  rw [htry]
  cases hlife : (e.withCount c).checkLifecycle delta with
  | error error =>
    refine hrejects (fun hfits => ?_) (checkLifecycle_eq_error hlife)
    rw [hfits.lifecycle] at hlife
    cases hlife
  | ok =>
    have hrun : e.terminated = false := not_terminated_of_checkLifecycle hlife
    have hother {error : StreamEncodingError} (herror : error ≠ .streamTerminated) :
        error = .streamTerminated ↔ e.terminated = true :=
      ⟨fun h => absurd h herror, fun h => absurd (hrun.symm.trans h) Bool.false_ne_true⟩
    cases hcap : (e.withCount c).ensureSequenceCapacity (e.requiredEventSlots delta) with
    | error error =>
      refine hrejects (fun hfits => ?_) (hother ?_)
      · have hfine := hfits.capacity
        rw [show (e.withCount c).requiredEventSlots delta = e.requiredEventSlots delta from rfl,
          hcap] at hfine
        cases hfine
      · rw [ensureSequenceCapacity, refuseIf_eq_error] at hcap
        exact hcap.2 ▸ nofun
    | ok =>
      by_cases hblock : e.requiresGeneratedBlock delta = true ∧ e.nextBlock = none
      · have hcheck := refuseIf_eq_error.mpr
          ⟨hblock, (rfl : EncoderFault.rejected .blockIdExhausted = .rejected .blockIdExhausted)⟩
        rw [hcheck]
        refine hrejects (fun hfits => ?_) (hother nofun)
        obtain ⟨n, _, hn, _⟩ := hfits.block hblock.1
        rw [show (e.withCount c).nextBlock = e.nextBlock from rfl, hblock.2] at hn
        cases hn
      · rw [refuseIf_of_not hblock]
        exact run_encode hs hrun hlife hcap

/-- An encoder that refuses a delta, and whose stream ends with an open block: there is still a
number for the event that says so, but the open block is not closed before it. -/
structure Strands (e : StreamEventEncoder) (delta : StreamDelta) : Prop where
  running : e.terminated = false
  refuses : ¬ e.Fits delta
  announces : e.ensureSequenceCapacity 1 = .ok ()
  leavesOpen : e.openBlocks ≠ []

/-- What a push comes to. -/
inductive Pushed (e : StreamEventEncoder) (c : Nat) (delta : StreamDelta) :
    EStateM.Result EncoderFault StreamEventEncoder (List StreamEvent) → Prop where
  /-- The stream was over. -/
  | ignored {next : Option Nat} (hover : e.terminated = true)
      (hnext : ∀ n, next = some n → n ≤ u64Max) :
      Pushed e c delta (.ok [] ({ e with nextBlock := next }.withCount c))
  /-- The delta was encoded. -/
  | encoded {kinds : List StreamEventKind} {e' : StreamEventEncoder}
      (hfits : (e.withCount c).Fits delta) (hrun : e.terminated = false) (hwrites : Writes e kinds e')
      (hroom : c + kinds.length ≤ u64Max) :
      Pushed e c delta (.ok (stamp e.responseId c kinds) (e'.withCount (c + kinds.length)))
  /-- The delta did not fit, and one event says so. -/
  | refused {message : String} {info : ErrorInfo} {next : Option Nat} (hrun : e.terminated = false)
      (hfits : ¬ (e.withCount c).Fits delta) (hroom : c + 1 ≤ u64Max)
      (hnext : ∀ n, next = some n → n ≤ u64Max) :
      Pushed e c delta (.ok (stamp e.responseId c [.error message info])
        ({ e with nextBlock := next, terminated := true }.withCount (c + 1)))
  /-- The delta did not fit, and there is no number left to say so. -/
  | silenced {next : Option Nat} (hrun : e.terminated = false)
      (hfits : ¬ (e.withCount c).Fits delta) (hfull : ¬ c + 1 ≤ u64Max)
      (hnext : ∀ n, next = some n → n ≤ u64Max) :
      Pushed e c delta (.ok [] ({ e with nextBlock := next, terminated := true }.withCount c))

/-- **A push never panics**, and what it comes to. -/
theorem push_eq (delta : StreamDelta) (s : StreamEventEncoder) :
    (push delta).run s = match (tryPush delta).run s with
      | .ok events e' => .ok events e'
      | .error (.rejected error) e' => (answer error).run e'
      | .error .panicked e' => .error .panicked e' := rfl

theorem run_push (delta : StreamDelta) (hs : e.Sound) :
    Pushed e c delta ((push delta).run (e.withCount c)) := by
  have htried := run_tryPush (c := c) delta hs
  rw [push_eq]
  generalize (tryPush delta).run (e.withCount c) = r at htried
  cases htried with
  | encoded hfits hrun hwrites hroom => exact .encoded hfits hrun hwrites hroom
  | @rejected error next hfits hnext herror =>
    by_cases hover : e.terminated = true
    · rw [herror.mpr hover]
      exact .ignored hover hnext
    · have hrun : e.terminated = false := Bool.eq_false_iff.mpr hover
      show Pushed e c delta (EStateM.run (if error = .streamTerminated then _ else _) _)
      rw [if_neg (mt herror.mp hover), run_modify_bind, run_read_bind]
      let e' : StreamEventEncoder := { e with nextBlock := next, terminated := true }
      show Pushed e c delta
        (EStateM.run (if (e'.withCount c).ensureSequenceCapacity 1 = .ok () then _ else _) (e'.withCount c))
      by_cases hroom : c + 1 ≤ u64Max
      · rw [if_pos (ensureSequenceCapacity_withCount.mpr (.inr hroom)),
          run_bind_ok (run_emit _ hroom)]
        exact .refused hrun hfits hroom hnext
      · rw [if_neg (mt ensureSequenceCapacity_withCount.mp (by simp [hroom]))]
        exact .silenced hrun hfits hroom hnext

end StreamEventEncoder

end AikitRuntime.Streaming
