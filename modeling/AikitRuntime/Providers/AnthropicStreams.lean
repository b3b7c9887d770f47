import Mathlib.Data.List.Induction
import AikitRuntime.Library.Paths
import AikitRuntime.Providers.Anthropic

/-!
# What the deltas of an Anthropic stream say

The events of a stream are pushed one by one, whatever they are. The deltas end once, with an error or when every
block has stopped; every input answers a call; and what a block comes to is what was pushed under its index while it
was open, however the blocks are interleaved (`stream_faithful`).

The parser knows a block by its index only. `Open` finds the block of an index in the events, and `Gathers` says what
the parser has of it.
-/

namespace AikitRuntime.Providers

open Library Durability Streaming
open AnthropicStreamParser (blockIndex textField eventKind)

/-! ### Blocks in the events -/

/-- The event starts a block under an index. -/
def Starts (ev : Value) (index : Nat) : Prop := eventKind ev = "content_block_start" ∧ blockIndex ev = index

/-- The event stops the block under an index. -/
def Stops (ev : Value) (index : Nat) : Prop := eventKind ev = "content_block_stop" ∧ blockIndex ev = index

/-- The type of the block that an event starts. -/
def blockType (ev : Value) : Option String := (fieldOf ev "content_block").getStr "type"

/-- The id of the call that an event starts. -/
def blockId (ev : Value) : String := textField (fieldOf ev "content_block") "id"

/-- The block under an index that is open, and the events since it started. -/
def Open (events : List Value) (index : Nat) (start : Value) (during : List Value) : Prop :=
  ∃ before, events = before ++ start :: during ∧ Starts start index ∧ ∀ ev ∈ during, ¬ Starts ev index ∧ ¬ Stops ev index

/-- What an event has for the block under an index, in a field of a delta of some type. -/
def chunk (index : Nat) (type field : String) (ev : Value) : Option String :=
  if eventKind ev = "content_block_delta" ∧ blockIndex ev = index ∧ (fieldOf ev "delta").getStr "type" = some type then
    some (textField (fieldOf ev "delta") field)
  else none

/-- All that events have for the block under an index. -/
def chunks (index : Nat) (type field : String) (events : List Value) : List String :=
  events.filterMap (chunk index type field)

/-- The thinking of a block. -/
def thinkingText (index : Nat) (during : List Value) : String :=
  String.join (chunks index "thinking_delta" "thinking" during)

/-- Its last signature. -/
def lastSignature (index : Nat) (during : List Value) : Option String :=
  (chunks index "signature_delta" "signature" during).getLast?

/-- The text of the input of a call. -/
def inputText (index : Nat) (during : List Value) : String :=
  String.join (chunks index "input_json_delta" "partial_json" during)

section Open

variable {events during : List Value} {index : Nat} {start ev : Value}

theorem open_append : Open (events ++ [ev]) index start during ↔
    Starts ev index ∧ start = ev ∧ during = [] ∨
    ¬ Starts ev index ∧ ¬ Stops ev index ∧ ∃ earlier, during = earlier ++ [ev] ∧ Open events index start earlier := by
  constructor
  · rintro ⟨before, heq, hstart, hnone⟩
    rcases List.eq_nil_or_concat during with rfl | ⟨earlier, last, rfl⟩
    · obtain ⟨_, hlast⟩ := List.append_inj' heq rfl
      cases hlast
      exact .inl ⟨hstart, rfl, rfl⟩
    · rw [List.concat_eq_append] at heq hnone ⊢
      have hsplit : events ++ [ev] = (before ++ start :: earlier) ++ [last] := by
        rw [heq, List.append_assoc, List.cons_append]
      obtain ⟨hevents, hlast⟩ := List.append_inj' hsplit rfl
      cases hlast
      obtain ⟨hstarts, hstops⟩ := hnone ev (List.mem_append_right _ (List.mem_singleton.mpr rfl))
      exact .inr ⟨hstarts, hstops, earlier, rfl, before, hevents, hstart,
        fun other hother => hnone other (List.mem_append_left _ hother)⟩
  · rintro (⟨hstart, rfl, rfl⟩ | ⟨hstarts, hstops, earlier, rfl, before, rfl, hstart, hnone⟩)
    · exact ⟨events, rfl, hstart, fun _ h => absurd h List.not_mem_nil⟩
    · refine ⟨before, by rw [List.append_assoc, List.cons_append], hstart, fun other hother => ?_⟩
      rcases List.mem_append.mp hother with hother | hother
      · exact hnone other hother
      · rw [List.mem_singleton.mp hother]
        exact ⟨hstarts, hstops⟩

end Open

/-- A block that has started and is not open was stopped. -/
theorem stopped_of_not_open {before during : List Value} {index : Nat} {ev : Value} (hstart : Starts ev index)
    (hclosed : ∀ start later, ¬ Open (before ++ ev :: during) index start later) :
    ∃ other ∈ during, Stops other index := by
  induction during using List.reverseRecOn with
  | nil => exact absurd (open_append.mpr (.inl ⟨hstart, rfl, rfl⟩)) (hclosed ev [])
  | append_singleton earlier last ih =>
    have hsplit : before ++ ev :: (earlier ++ [last]) = (before ++ ev :: earlier) ++ [last] := by
      rw [List.append_assoc, List.cons_append]
    rw [hsplit] at hclosed
    by_cases hstops : Stops last index
    · exact ⟨last, List.mem_append_right _ (List.mem_singleton.mpr rfl), hstops⟩
    · have hstarts : ¬ Starts last index := fun h =>
        hclosed last [] (open_append.mpr (.inl ⟨h, rfl, rfl⟩))
      obtain ⟨other, hother, hstop⟩ := ih fun start later hopen =>
        hclosed start (later ++ [last]) (open_append.mpr (.inr ⟨hstarts, hstops, later, rfl, hopen⟩))
      exact ⟨other, List.mem_append_left _ hother, hstop⟩

/-! ### What the parser has of a block -/

/-- What the parser has of a block that is open. -/
inductive Gathers (index : Nat) (start : Value) (during : List Value) : BlockState → Prop where
  | text (type : blockType start = some "text") : Gathers index start during .text
  | thinking (type : blockType start = some "thinking") :
    Gathers index start during (.thinking (thinkingText index during) (lastSignature index during))
  | redactedThinking (type : blockType start = some "redacted_thinking") :
    Gathers index start during (.redactedThinking (textField (fieldOf start "content_block") "data"))
  | toolUse (type : blockType start = some "tool_use") :
    Gathers index start during (.toolUse (blockId start) (inputText index during))
  | ignored {type : String} (type_eq : blockType start = some type)
    (unknown : type ∉ ["text", "thinking", "redacted_thinking", "tool_use"]) : Gathers index start during .ignored

/-- What an event makes of a block that is open under an index. -/
def BlockState.fed (index : Nat) (ev : Value) : BlockState → BlockState
  | .thinking soFar signature =>
    .thinking (soFar ++ (chunk index "thinking_delta" "thinking" ev).getD "")
      ((chunk index "signature_delta" "signature" ev).or signature)
  | .toolUse id jsonBuf => .toolUse id (jsonBuf ++ (chunk index "input_json_delta" "partial_json" ev).getD "")
  | block => block

section Gather

variable {index : Nat} {start ev : Value} {during : List Value} {block : BlockState}

theorem join_chunks_append (type field : String) :
    String.join (chunks index type field (during ++ [ev])) =
      String.join (chunks index type field during) ++ (chunk index type field ev).getD "" := by
  unfold chunks
  rw [List.filterMap_append, String.join_append]
  cases hchunk : chunk index type field ev with
  | none => rw [List.filterMap_cons_none hchunk]; rfl
  | some text => rw [List.filterMap_cons_some hchunk]; simp

theorem lastSignature_append :
    lastSignature index (during ++ [ev]) =
      (chunk index "signature_delta" "signature" ev).or (lastSignature index during) := by
  unfold lastSignature chunks
  rw [List.filterMap_append]
  cases hchunk : chunk index "signature_delta" "signature" ev with
  | none => rw [List.filterMap_cons_none hchunk]; simp
  | some text => rw [List.filterMap_cons_some hchunk]; simp

theorem Gathers.fed (h : Gathers index start during block) (ev : Value) :
    Gathers index start (during ++ [ev]) (block.fed index ev) := by
  cases h with
  | text type => exact .text type
  | redactedThinking type => exact .redactedThinking type
  | ignored type_eq unknown => exact .ignored type_eq unknown
  | thinking type =>
    have hnext : Gathers index start (during ++ [ev])
        (.thinking (thinkingText index (during ++ [ev])) (lastSignature index (during ++ [ev]))) := .thinking type
    rw [thinkingText, join_chunks_append, lastSignature_append] at hnext
    exact hnext
  | toolUse type =>
    have hnext : Gathers index start (during ++ [ev]) (.toolUse (blockId start) (inputText index (during ++ [ev]))) :=
      .toolUse type
    rw [inputText, join_chunks_append] at hnext
    exact hnext

/-- An event that has nothing for a block leaves it as it is. -/
theorem fed_of_none (hthinking : chunk index "thinking_delta" "thinking" ev = none)
    (hsignature : chunk index "signature_delta" "signature" ev = none)
    (hinput : chunk index "input_json_delta" "partial_json" ev = none) : block.fed index ev = block := by
  cases block with
  | thinking soFar signature =>
    show BlockState.thinking (soFar ++ (chunk index _ _ ev).getD "") ((chunk index _ _ ev).or signature) = _
    rw [hthinking, hsignature, Option.getD_none, String.append_empty, Option.none_or]
  | toolUse id jsonBuf =>
    show BlockState.toolUse id (jsonBuf ++ (chunk index _ _ ev).getD "") = _
    rw [hinput, Option.getD_none, String.append_empty]
  | text | ignored | redactedThinking data => rfl

theorem fed_of_kind (h : eventKind ev ≠ "content_block_delta") : block.fed index ev = block :=
  fed_of_none (if_neg fun hall => h hall.1) (if_neg fun hall => h hall.1) (if_neg fun hall => h hall.1)

theorem fed_of_index (h : blockIndex ev ≠ index) : block.fed index ev = block :=
  fed_of_none (if_neg fun hall => h hall.2.1) (if_neg fun hall => h hall.2.1) (if_neg fun hall => h hall.2.1)

theorem fed_of_type (hthinking : (fieldOf ev "delta").getStr "type" ≠ some "thinking_delta")
    (hsignature : (fieldOf ev "delta").getStr "type" ≠ some "signature_delta")
    (hinput : (fieldOf ev "delta").getStr "type" ≠ some "input_json_delta") : block.fed index ev = block :=
  fed_of_none (if_neg fun hall => hthinking hall.2.2) (if_neg fun hall => hsignature hall.2.2)
    (if_neg fun hall => hinput hall.2.2)

/-- What an event has for the block under its index. -/
theorem chunk_eq {type field : String} (hkind : eventKind ev = "content_block_delta") :
    chunk (blockIndex ev) type field ev =
      if (fieldOf ev "delta").getStr "type" = some type then some (textField (fieldOf ev "delta") field) else none := by
  unfold chunk
  by_cases htype : (fieldOf ev "delta").getStr "type" = some type
  · rw [if_pos ⟨hkind, rfl, htype⟩, if_pos htype]
  · rw [if_neg fun hall => htype hall.2.2, if_neg htype]

end Gather

/-! ### What an event does -/

/-- A delta that starts nothing and completes nothing. -/
def isQuiet : StreamDelta → Bool
  | .messageStart _ | .textDelta _ | .reasoningDelta _ | .toolResult _ _ _ | .citation _ _ _ | .providerMetadata _ _
  | .warning _ | .usage _ => true
  | .reasoningComplete _ _ _ | .toolCallStart _ _ | .toolCallInput _ _ | .messageStop _ | .error _ _ => false

/-- A delta that ends a stream. -/
def isTerminal : StreamDelta → Bool
  | .messageStop _ | .error _ _ => true
  | _ => false

/-- What the start of a block says of it. -/
def announced (ev : Value) : BlockState → List StreamDelta
  | .toolUse id _ => [.toolCallStart id (textField (fieldOf ev "content_block") "name")]
  | _ => []

/-- The input that a text is. -/
def IsInput [JsonText] (text : String) (input : Value) : Prop :=
  if isBlank text then input = .object [] else JsonText.fromStr text = some input

/-- What the stop of a block says of it. -/
inductive Completes [JsonText] : BlockState → List StreamDelta → Prop where
  | toolUse {id jsonBuf : String} {input : Value} (isInput : IsInput jsonBuf input) :
    Completes (.toolUse id jsonBuf) [.toolCallInput id input]
  | thinking (soFar : String) (signature : Option String) :
    Completes (.thinking soFar signature) [.reasoningComplete soFar signature none]
  | redactedThinking (data : String) :
    Completes (.redactedThinking data) [.reasoningComplete "" none (some (.string data))]
  | text : Completes .text []
  | ignored : Completes .ignored []

/-- What an event does to a parser that has not ended. -/
inductive Pushed [JsonText] (parser : AnthropicStreamParser) (ev : Value) :
    AnthropicStreamParser → List StreamDelta → Prop where
  | failed {parser' : AnthropicStreamParser} {quiet : List StreamDelta} {message : String} {info : ErrorInfo}
    (ended : parser'.terminal = true) (allQuiet : ∀ d ∈ quiet, isQuiet d = true) :
    Pushed parser ev parser' (quiet ++ [.error message info])
  | finished {parser' : AnthropicStreamParser} {quiet : List StreamDelta}
    (kind : eventKind ev = "message_stop") (closed : ∀ index : Nat, parser.blocks[index]? = none)
    (reason : parser.stopReason ≠ "") (ended : parser'.terminal = true) (allQuiet : ∀ d ∈ quiet, isQuiet d = true) :
    Pushed parser ev parser' (quiet ++ [.messageStop parser.stopReason])
  | opened {parser' : AnthropicStreamParser} {block : BlockState}
    (kind : eventKind ev = "content_block_start") (fresh : parser.blocks[blockIndex ev]? = none)
    (blocks : parser'.blocks = parser.blocks.insert (blockIndex ev) block)
    (gathers : Gathers (blockIndex ev) ev [] block) (running : parser'.terminal = false)
    (reason : parser'.stopReason = parser.stopReason) : Pushed parser ev parser' (announced ev block)
  | fed {parser' : AnthropicStreamParser} {block : BlockState} {quiet : List StreamDelta}
    (kind : eventKind ev = "content_block_delta") (found : parser.blocks[blockIndex ev]? = some block)
    (blocks : parser'.blocks = parser.blocks.insert (blockIndex ev) (block.fed (blockIndex ev) ev))
    (running : parser'.terminal = false) (reason : parser'.stopReason = parser.stopReason)
    (allQuiet : ∀ d ∈ quiet, isQuiet d = true) : Pushed parser ev parser' quiet
  | closed {parser' : AnthropicStreamParser} {block : BlockState} {deltas : List StreamDelta}
    (kind : eventKind ev = "content_block_stop") (found : parser.blocks[blockIndex ev]? = some block)
    (blocks : parser'.blocks = parser.blocks.erase (blockIndex ev)) (completes : Completes block deltas)
    (running : parser'.terminal = false) (reason : parser'.stopReason = parser.stopReason) :
    Pushed parser ev parser' deltas
  | passed {parser' : AnthropicStreamParser} {quiet : List StreamDelta}
    (kind : eventKind ev ≠ "content_block_start" ∧ eventKind ev ≠ "content_block_stop")
    (blocks : parser'.blocks = parser.blocks)
    (unfed : ∀ (index : Nat) (block : BlockState), parser.blocks[index]? = some block → block.fed index ev = block)
    (running : parser'.terminal = false)
    (reason : parser'.stopReason = parser.stopReason ∨
      eventKind ev = "message_delta" ∧ (fieldOf ev "delta").getStr "stop_reason" = some parser'.stopReason)
    (allQuiet : ∀ d ∈ quiet, isQuiet d = true) : Pushed parser ev parser' quiet

namespace AnthropicStreamParser

/-- What is kept besides the blocks is of no account to them. -/
structure SameBlocks (parser parser' : AnthropicStreamParser) : Prop where
  blocks : parser'.blocks = parser.blocks
  terminal : parser'.terminal = parser.terminal
  stopReason : parser'.stopReason = parser.stopReason

theorem SameBlocks.refl (parser : AnthropicStreamParser) : SameBlocks parser parser := ⟨rfl, rfl, rfl⟩

theorem SameBlocks.trans {a b c : AnthropicStreamParser} (h : SameBlocks a b) (h' : SameBlocks b c) : SameBlocks a c :=
  ⟨h'.blocks.trans h.blocks, h'.terminal.trans h.terminal, h'.stopReason.trans h.stopReason⟩

variable {parser parser' : AnthropicStreamParser}

variable {bytes items : Nat}

theorem sameBlocks_retain (h : parser.retain bytes items = .ok parser') :
    SameBlocks parser parser' := by
  unfold retain at h
  split at h
  · cases h
  · cases h
    exact ⟨rfl, rfl, rfl⟩

variable {value : Value}

theorem sameBlocks_retainMetadata {key : String} (h : parser.retainMetadata key value = .ok parser') :
    SameBlocks parser parser' := by
  unfold retainMetadata at h
  obtain ⟨retained, hretained, h⟩ := bind_eq_ok.mp h
  cases h
  have hsame := sameBlocks_retain hretained
  exact ⟨hsame.blocks, hsame.terminal, hsame.stopReason⟩

theorem sameBlocks_retainFields {keys : List String} (h : parser.retainFields value keys = .ok parser') :
    SameBlocks parser parser' := by
  induction keys generalizing parser with
  | nil =>
    obtain rfl := Except.ok.inj h
    exact .refl _
  | cons key rest ih =>
    unfold retainFields at h
    split at h
    · exact ih h
    · obtain ⟨retained, hretained, h⟩ := bind_eq_ok.mp h
      exact (sameBlocks_retainMetadata hretained).trans (ih h)

theorem sameBlocks_absorbUsage {u : Value} (h : parser.absorbUsage u = .ok parser') : SameBlocks parser parser' := by
  unfold absorbUsage at h
  dsimp only at h
  split at h
  · cases h
    exact ⟨rfl, rfl, rfl⟩
  · obtain ⟨retained, hretained, h⟩ := bind_eq_ok.mp h
    cases h
    have hsame := sameBlocks_retain hretained
    exact ⟨hsame.blocks, hsame.terminal, hsame.stopReason⟩

/-! #### Every kind of event -/

variable [JsonText] {ev : Value}

theorem pushed_terminateWithError (other : AnthropicStreamParser) {message : String} {info : ErrorInfo}
    {includeMetadata : Bool} : Pushed parser ev (other.terminateWithError (.error message info) includeMetadata).1
      (other.terminateWithError (.error message info) includeMetadata).2 := by
  refine .failed rfl fun d hd => ?_
  rcases List.mem_append.mp hd with hd | hd
  · split at hd
    · rw [List.mem_singleton.mp hd]
      rfl
    · cases hd
  · split at hd
    · rw [List.mem_singleton.mp hd]
      rfl
    · cases hd

theorem pushed_failProtocol (other : AnthropicStreamParser) (message : String) :
    Pushed parser ev (other.failProtocol message).1 (other.failProtocol message).2 :=
  pushed_terminateWithError other

variable {deltas : List StreamDelta}

/-- An event that keeps something. -/
theorem pushed_kept {result : Except AnthropicStreamParser AnthropicStreamParser}
    (h : ∀ parser', result = .ok parser' → Pushed parser ev parser' deltas) :
    Pushed parser ev (kept result deltas).1 (kept result deltas).2 := by
  cases result with
  | error other => exact pushed_terminateWithError other
  | ok parser' => exact h parser' rfl

/-- An event that keeps a block. -/
theorem pushed_insertBlock {index : Nat} {block : BlockState}
    (h : ∀ parser', SameBlocks { parser with blocks := parser.blocks.insert index block } parser' →
      Pushed parser ev parser' deltas) :
    Pushed parser ev (parser.insertBlock index bytes items block deltas).1
      (parser.insertBlock index bytes items block deltas).2 := by
  refine pushed_kept fun parser' hparser' => ?_
  obtain ⟨retained, hretained, rfl⟩ := map_eq_ok.mp hparser'
  have hsame := sameBlocks_retain hretained
  exact h _ ⟨by rw [hsame.blocks], hsame.terminal, hsame.stopReason⟩

theorem pushed_onBlockStart (hrunning : parser.terminal = false) (hkind : eventKind ev = "content_block_start") :
    Pushed parser ev (parser.onBlockStart ev).1 (parser.onBlockStart ev).2 := by
  have hopened {block : BlockState} {bytes items : Nat} {deltas : List StreamDelta}
      (hfresh : parser.blocks[blockIndex ev]? = none) (hgathers : Gathers (blockIndex ev) ev [] block)
      (hdeltas : deltas = announced ev block) :
      Pushed parser ev (parser.insertBlock (blockIndex ev) bytes items block deltas).1
        (parser.insertBlock (blockIndex ev) bytes items block deltas).2 := by
    refine pushed_insertBlock fun parser' hsame => ?_
    rw [hdeltas]
    exact .opened hkind hfresh hsame.blocks hgathers (hsame.terminal.trans hrunning) hsame.stopReason
  unfold onBlockStart
  dsimp only
  split
  · exact pushed_failProtocol ..
  · next hfresh =>
    rw [Bool.not_eq_true, NumberMap.contains_eq_false] at hfresh
    split
    · next htype => exact hopened hfresh (.text htype) rfl
    · next htype => exact hopened hfresh (.thinking htype) rfl
    · next htype => exact hopened hfresh (.redactedThinking htype) rfl
    · next htype =>
      split
      · exact pushed_failProtocol ..
      · exact hopened hfresh (.toolUse htype) rfl
    · next type htext hthinking hredacted htool htype =>
      refine hopened hfresh (.ignored htype ?_) rfl
      simp only [List.mem_cons, List.not_mem_nil, or_false, not_or]
      exact ⟨htext, hthinking, hredacted, htool⟩
    · exact pushed_failProtocol ..

theorem pushed_onBlockDelta (hrunning : parser.terminal = false) (hkind : eventKind ev = "content_block_delta") :
    Pushed parser ev (parser.onBlockDelta ev).1 (parser.onBlockDelta ev).2 := by
  have hkinds : eventKind ev ≠ "content_block_start" ∧ eventKind ev ≠ "content_block_stop" := by
    rw [hkind]
    decide
  have hpassed {quiet : List StreamDelta} (hunfed : ∀ (index : Nat) (block : BlockState),
      parser.blocks[index]? = some block → block.fed index ev = block) (hquiet : ∀ d ∈ quiet, isQuiet d = true) :
      Pushed parser ev parser quiet := .passed hkinds rfl hunfed hrunning (.inl rfl) hquiet
  have hfed {block block' : BlockState} {bytes items : Nat} {quiet : List StreamDelta}
      (hfound : parser.blocks[blockIndex ev]? = some block) (hblock : block' = block.fed (blockIndex ev) ev)
      (hquiet : ∀ d ∈ quiet, isQuiet d = true) :
      Pushed parser ev (parser.insertBlock (blockIndex ev) bytes items block' quiet).1
        (parser.insertBlock (blockIndex ev) bytes items block' quiet).2 := by
    refine pushed_insertBlock fun parser' hsame => ?_
    rw [hblock] at hsame
    exact .fed hkind hfound hsame.blocks (hsame.terminal.trans hrunning) hsame.stopReason hquiet
  have hquiet {d : StreamDelta} (h : isQuiet d = true) : ∀ other ∈ [d], isQuiet other = true := by
    intro other hother
    rw [List.mem_singleton.mp hother]
    exact h
  have hnone : ∀ d ∈ ([] : List StreamDelta), isQuiet d = true := fun _ h => absurd h List.not_mem_nil
  have hother (type : String) (htype : (fieldOf ev "delta").getStr "type" = some type)
      (hne : type ≠ "thinking_delta" ∧ type ≠ "signature_delta" ∧ type ≠ "input_json_delta") (index : Nat)
      (block : BlockState) : block.fed index ev = block := by
    refine fed_of_type ?_ ?_ ?_ <;> rw [htype, Ne, Option.some.injEq]
    · exact hne.1
    · exact hne.2.1
    · exact hne.2.2
  unfold onBlockDelta
  dsimp only
  split
  · next hignored =>
    refine hpassed (fun index block hblock => ?_) hnone
    by_cases hindex : blockIndex ev = index
    · subst hindex
      cases hignored.symm.trans hblock
      rfl
    · exact fed_of_index hindex
  · split
    · next htype =>
      split
      · exact hpassed (fun index block _ => hother _ htype (by decide) index block) (hquiet rfl)
      · exact pushed_failProtocol ..
    · next htype =>
      split
      · next soFar signature hfound =>
        refine hfed hfound ?_ (hquiet rfl)
        show _ = BlockState.thinking (soFar ++ (chunk _ _ _ ev).getD "") ((chunk _ _ _ ev).or signature)
        rw [chunk_eq hkind, chunk_eq hkind, if_pos htype, if_neg (by rw [htype]; decide), Option.getD_some,
          Option.none_or]
      · exact pushed_failProtocol ..
    · next htype =>
      split
      · next soFar signature hfound =>
        refine hfed hfound ?_ hnone
        show _ = BlockState.thinking (soFar ++ (chunk _ _ _ ev).getD "") ((chunk _ _ _ ev).or signature)
        rw [chunk_eq hkind, chunk_eq hkind, if_neg (by rw [htype]; decide), if_pos htype, Option.getD_none,
          String.append_empty, Option.some_or]
      · exact pushed_failProtocol ..
    · next htype =>
      split
      · next id jsonBuf hfound =>
        refine hfed hfound ?_ hnone
        show _ = BlockState.toolUse id (jsonBuf ++ (chunk _ _ _ ev).getD "")
        rw [chunk_eq hkind, if_pos htype, Option.getD_some]
      · exact pushed_failProtocol ..
    · next htype =>
      split
      · exact hpassed (fun index block _ => hother _ htype (by decide) index block) (hquiet rfl)
      · exact pushed_failProtocol ..
    · next htext hthinking hsignature hinput hcitation =>
      exact hpassed (fun index block _ => fed_of_type hthinking hsignature hinput) hnone

theorem pushed_onBlockStop (hrunning : parser.terminal = false) (hkind : eventKind ev = "content_block_stop") :
    Pushed parser ev (parser.onBlockStop ev).1 (parser.onBlockStop ev).2 := by
  have hclosed {block : BlockState} {deltas : List StreamDelta} (hfound : parser.blocks[blockIndex ev]? = some block)
      (hcompletes : Completes block deltas) :
      Pushed parser ev { parser with blocks := parser.blocks.erase (blockIndex ev) } deltas :=
    .closed hkind hfound rfl hcompletes hrunning rfl
  unfold onBlockStop
  dsimp only
  split
  · next id jsonBuf hfound =>
    split
    · next hblank => exact hclosed hfound (.toolUse (by rw [IsInput, if_pos hblank]))
    · next hblank =>
      split
      · next input hinput => exact hclosed hfound (.toolUse (by rw [IsInput, if_neg hblank, hinput]))
      · exact pushed_failProtocol ..
  · next soFar signature hfound => exact hclosed hfound (.thinking soFar signature)
  · next data hfound => exact hclosed hfound (.redactedThinking data)
  · next hfound => exact hclosed hfound .text
  · next hfound => exact hclosed hfound .ignored
  · exact pushed_failProtocol ..

theorem pushed_onMessageDelta (hrunning : parser.terminal = false) (hkind : eventKind ev = "message_delta") :
    Pushed parser ev (kept (parser.onMessageDelta ev) []).1 (kept (parser.onMessageDelta ev) []).2 := by
  refine pushed_kept fun parser' h => ?_
  have hkinds : eventKind ev ≠ "content_block_start" ∧ eventKind ev ≠ "content_block_stop" := by
    rw [hkind]
    decide
  have hpassed (hblocks : parser'.blocks = parser.blocks) (hterminal : parser'.terminal = parser.terminal)
      (hreason : parser'.stopReason = parser.stopReason ∨
        eventKind ev = "message_delta" ∧ (fieldOf ev "delta").getStr "stop_reason" = some parser'.stopReason) :
      Pushed parser ev parser' [] := by
    refine .passed hkinds hblocks (fun index block _ => fed_of_kind ?_) (hterminal.trans hrunning) hreason
      fun _ h => absurd h List.not_mem_nil
    rw [hkind]
    decide
  unfold onMessageDelta at h
  dsimp only at h
  split at h
  · rw [ok_bind] at h
    obtain ⟨noted, hnoted, h⟩ := bind_eq_ok.mp h
    have hsame := (sameBlocks_retainFields hnoted).trans (sameBlocks_absorbUsage h)
    exact hpassed hsame.blocks hsame.terminal (.inl hsame.stopReason)
  · next reason hreason =>
    obtain ⟨retained, hretained, h⟩ := bind_eq_ok.mp h
    rw [pure_bind] at h
    obtain ⟨noted, hnoted, h⟩ := bind_eq_ok.mp h
    have hbefore := sameBlocks_retain hretained
    have hsame := (sameBlocks_retainFields hnoted).trans (sameBlocks_absorbUsage h)
    refine hpassed (hsame.blocks.trans hbefore.blocks) (hsame.terminal.trans hbefore.terminal) (.inr ⟨hkind, ?_⟩)
    rw [hreason, hsame.stopReason]

theorem pushed_onMessageStop (hkind : eventKind ev = "message_stop") :
    Pushed parser ev parser.onMessageStop.1 parser.onMessageStop.2 := by
  unfold onMessageStop
  split
  · exact pushed_failProtocol ..
  · next hblocks =>
    split
    · exact pushed_failProtocol ..
    · next hreason =>
      have hclosed (index : Nat) : parser.blocks[index]? = none := by
        rw [Bool.not_eq_true, Bool.not_eq_false', Std.ExtTreeMap.isEmpty_iff] at hblocks
        rw [hblocks, Std.ExtTreeMap.getElem?_empty]
      have hsplit : (if parser.metadata.isEmpty then [] else [.providerMetadata "anthropic" (.object parser.metadata)]) ++
          [StreamDelta.usage parser.usage, .messageStop parser.stopReason] =
          ((if parser.metadata.isEmpty then [] else [.providerMetadata "anthropic" (.object parser.metadata)]) ++
            [.usage parser.usage]) ++ [.messageStop parser.stopReason] := by
        rw [List.append_assoc]
        rfl
      dsimp only
      rw [hsplit]
      refine .finished hkind hclosed (fun h => hreason (String.isEmpty_iff.mpr h)) rfl fun d hd => ?_
      rcases List.mem_append.mp hd with hd | hd
      · split at hd
        · cases hd
        · rw [List.mem_singleton.mp hd]
          rfl
      · rw [List.mem_singleton.mp hd]
        rfl

/-- **What an event does.** -/
theorem pushed_pushEvent (parser : AnthropicStreamParser) (ev : Value) (hrunning : parser.terminal = false) :
    Pushed parser ev (parser.pushEvent ev).1 (parser.pushEvent ev).2 := by
  have hignored (hstart : eventKind ev ≠ "content_block_start") (hdelta : eventKind ev ≠ "content_block_delta")
      (hstop : eventKind ev ≠ "content_block_stop") {parser' : AnthropicStreamParser} {quiet : List StreamDelta}
      (hsame : SameBlocks parser parser') (hquiet : ∀ d ∈ quiet, isQuiet d = true) :
      Pushed parser ev parser' quiet :=
    .passed ⟨hstart, hstop⟩ hsame.blocks (fun index block _ => fed_of_kind hdelta) (hsame.terminal.trans hrunning)
      (.inl hsame.stopReason) hquiet
  unfold pushEvent
  rw [if_neg (by rw [hrunning]; decide)]
  split
  · next hkind =>
    refine pushed_kept fun parser' h => ?_
    obtain ⟨captured, hcaptured, h⟩ := bind_eq_ok.mp h
    refine hignored ?_ ?_ ?_ ((sameBlocks_retainFields hcaptured).trans (sameBlocks_absorbUsage h)) fun d hd => ?_
    · rw [hkind]
      decide
    · rw [hkind]
      decide
    · rw [hkind]
      decide
    · rw [List.mem_singleton.mp hd]
      rfl
  · next hkind => exact pushed_onBlockStart hrunning hkind
  · next hkind => exact pushed_onBlockDelta hrunning hkind
  · next hkind => exact pushed_onBlockStop hrunning hkind
  · next hkind => exact pushed_onMessageDelta hrunning hkind
  · next hkind => exact pushed_onMessageStop hkind
  · exact pushed_terminateWithError parser
  · next hstart hdelta hstop _ _ _ =>
    exact hignored hstart hdelta hstop (.refl parser) fun _ h => absurd h List.not_mem_nil

end AnthropicStreamParser

/-! ### Streams -/

/-- An event, with the deltas that came of it. -/
structure ParserEntry where
  event : Value
  deltas : List StreamDelta

/-- An event is pushed. -/
def ParserStep [JsonText] (parser : AnthropicStreamParser) (e : ParserEntry) (parser' : AnthropicStreamParser) : Prop :=
  parser.pushEvent e.event = (parser', e.deltas)

def eventsOf (log : List ParserEntry) : List Value := log.map (·.event)

def deltasOf (log : List ParserEntry) : List StreamDelta := log.flatMap (·.deltas)

variable {e : ParserEntry} {log : List ParserEntry}

theorem eventsOf_append :
    eventsOf (log ++ [e]) = eventsOf log ++ [e.event] := by
  unfold eventsOf
  rw [List.map_append]
  rfl

theorem deltasOf_append :
    deltasOf (log ++ [e]) = deltasOf log ++ e.deltas := by
  unfold deltasOf
  rw [List.flatMap_append, List.flatMap_singleton]

/-- The start of a call. -/
def startsCall (id : String) : StreamDelta → Bool
  | .toolCallStart other _ => other = id
  | _ => false

/-- The input of a call. -/
def answersCall (id : String) : StreamDelta → Bool
  | .toolCallInput other _ => other = id
  | _ => false

/-- How many calls a block is. -/
def callOf (id : String) : BlockState → Nat
  | .toolUse other _ => if other = id then 1 else 0
  | _ => 0

/-! #### What the parser knows -/

/-- The parser has the block under an index that is open, and no other. -/
structure TracksAt (events : List Value) (parser : AnthropicStreamParser) (index : Nat) : Prop where
  opened : ∀ start during, Open events index start during →
    ∃ block, parser.blocks[index]? = some block ∧ Gathers index start during block
  known : ∀ block, parser.blocks[index]? = some block → ∃ start during, Open events index start during

section Tracks

variable {events : List Value} {parser parser' : AnthropicStreamParser} {index : Nat} {ev : Value}

/-- An event that neither starts nor stops a block. -/
theorem TracksAt.fed (h : TracksAt events parser index) (hstarts : ¬ Starts ev index) (hstops : ¬ Stops ev index)
    (hblocks : parser'.blocks[index]? = parser.blocks[index]?.map (BlockState.fed index ev)) :
    TracksAt (events ++ [ev]) parser' index := by
  constructor
  · intro start during hopen
    rcases open_append.mp hopen with ⟨hstart, _⟩ | ⟨_, _, earlier, rfl, hearlier⟩
    · exact absurd hstart hstarts
    · obtain ⟨block, hblock, hgathers⟩ := h.opened start earlier hearlier
      exact ⟨block.fed index ev, by rw [hblocks, hblock, Option.map_some], hgathers.fed ev⟩
  · intro block hblock
    rw [hblocks, Option.map_eq_some_iff] at hblock
    obtain ⟨old, hold, _⟩ := hblock
    obtain ⟨start, during, hopen⟩ := h.known old hold
    exact ⟨start, during ++ [ev], open_append.mpr (.inr ⟨hstarts, hstops, during, rfl, hopen⟩)⟩

/-- What holds of the parser while the stream goes on. -/
structure Running (log : List ParserEntry) (parser : AnthropicStreamParser) : Prop where
  tracks : ∀ index, TracksAt (eventsOf log) parser index
  reason : parser.stopReason ≠ "" → ∃ ev ∈ eventsOf log, eventKind ev = "message_delta" ∧
    (fieldOf ev "delta").getStr "stop_reason" = some parser.stopReason
  calls : ∀ id, (deltasOf log).countP (startsCall id) =
    (deltasOf log).countP (answersCall id) + NumberMap.total (callOf id) parser.blocks
  alive : ∀ d ∈ deltasOf log, isTerminal d = false

variable [JsonText] {deltas : List StreamDelta}

/-- The parser goes on to know the blocks. -/
theorem tracksAt_pushed (h : TracksAt events parser index) (hpushed : Pushed parser ev parser' deltas)
    (hrunning : parser'.terminal = false) : TracksAt (events ++ [ev]) parser' index := by
  have hunfed (hkind : eventKind ev ≠ "content_block_delta") (block : Option BlockState) :
      block.map (BlockState.fed index ev) = block := by
    cases block with
    | none => rfl
    | some block => rw [Option.map_some, fed_of_kind hkind]
  cases hpushed with
  | failed ended _ | finished _ _ _ ended _ =>
    rw [ended] at hrunning
    cases hrunning
  | @opened block kind fresh blocks gathers _ _ =>
    by_cases hindex : blockIndex ev = index
    · subst hindex
      have hget : parser'.blocks[blockIndex ev]? = some block := by
        rw [blocks, NumberMap.get_insert, if_pos rfl]
      constructor
      · intro start during hopen
        rcases open_append.mp hopen with ⟨_, rfl, rfl⟩ | ⟨hstarts, _⟩
        · exact ⟨block, hget, gathers⟩
        · exact absurd ⟨kind, rfl⟩ hstarts
      · exact fun _ _ => ⟨ev, [], open_append.mpr (.inl ⟨⟨kind, rfl⟩, rfl, rfl⟩)⟩
    · refine h.fed (fun hstarts => hindex hstarts.2) (fun hstops => hindex hstops.2) ?_
      rw [blocks, NumberMap.get_insert_of_ne hindex, hunfed (by rw [kind]; decide)]
  | @fed block _ kind found blocks _ _ _ =>
    refine h.fed (fun hstarts => ?_) (fun hstops => ?_) ?_
    · exact absurd (kind.symm.trans hstarts.1) (by decide)
    · exact absurd (kind.symm.trans hstops.1) (by decide)
    · rw [blocks, NumberMap.get_insert]
      by_cases hindex : blockIndex ev = index
      · subst hindex
        rw [if_pos rfl, found, Option.map_some]
      · rw [if_neg hindex]
        cases parser.blocks[index]? with
        | none => rfl
        | some other => rw [Option.map_some, fed_of_index hindex]
  | closed kind found blocks _ _ _ =>
    by_cases hindex : blockIndex ev = index
    · subst hindex
      constructor
      · intro start during hopen
        rcases open_append.mp hopen with ⟨hstart, _⟩ | ⟨_, hstops, _⟩
        · exact absurd (kind.symm.trans hstart.1) (by decide)
        · exact absurd ⟨kind, rfl⟩ hstops
      · intro block hblock
        rw [blocks, NumberMap.get_erase, if_pos rfl] at hblock
        cases hblock
    · refine h.fed (fun hstarts => hindex hstarts.2) (fun hstops => hindex hstops.2) ?_
      rw [blocks, NumberMap.get_erase, if_neg hindex, hunfed (by rw [kind]; decide)]
  | passed kind blocks unfed _ _ _ =>
    refine h.fed (fun hstarts => kind.1 hstarts.1) (fun hstops => kind.2 hstops.1) ?_
    rw [blocks]
    cases hblock : parser.blocks[index]? with
    | none => rfl
    | some block => rw [Option.map_some, unfed index block hblock]

omit [JsonText] in
theorem countP_quiet {P : StreamDelta → Bool} (hP : ∀ d, isQuiet d = true → P d = false) {quiet : List StreamDelta}
    (h : ∀ d ∈ quiet, isQuiet d = true) : quiet.countP P = 0 :=
  List.countP_eq_zero.mpr fun d hd => by rw [hP d (h d hd)]; decide

omit [JsonText] in
theorem startsCall_quiet (id : String) (d : StreamDelta) (h : isQuiet d = true) : startsCall id d = false := by
  cases d <;> first | rfl | cases h

omit [JsonText] in
theorem answersCall_quiet (id : String) (d : StreamDelta) (h : isQuiet d = true) : answersCall id d = false := by
  cases d <;> first | rfl | cases h

omit [JsonText] in
theorem isTerminal_quiet (d : StreamDelta) (h : isQuiet d = true) : isTerminal d = false := by
  cases d <;> first | rfl | cases h

/-- The calls that are open are those which have no input. -/
theorem calls_pushed (hpushed : Pushed parser ev parser' deltas) (hrunning : parser'.terminal = false) (id : String) :
    deltas.countP (startsCall id) + NumberMap.total (callOf id) parser.blocks =
      deltas.countP (answersCall id) + NumberMap.total (callOf id) parser'.blocks := by
  cases hpushed with
  | failed ended _ | finished _ _ _ ended _ =>
    rw [ended] at hrunning
    cases hrunning
  | @opened block kind fresh blocks _ _ _ =>
    rw [blocks, NumberMap.total_insert _ fresh]
    have hcounts : (announced ev block).countP (startsCall id) = callOf id block ∧
        (announced ev block).countP (answersCall id) = 0 := by
      cases block with
      | toolUse other jsonBuf => simp [announced, startsCall, answersCall, callOf, List.countP_cons]
      | text | ignored | thinking _ _ | redactedThinking _ => exact ⟨rfl, rfl⟩
    omega
  | @fed block _ kind found blocks _ _ allQuiet =>
    have hsame : callOf id (block.fed (blockIndex ev) ev) = callOf id block := by cases block <;> rfl
    have hreplaced := NumberMap.total_replace (callOf id) found (w := block.fed (blockIndex ev) ev)
    rw [blocks, countP_quiet (startsCall_quiet id) allQuiet, countP_quiet (answersCall_quiet id) allQuiet]
    omega
  | @closed block _ kind found blocks completes _ _ =>
    rw [blocks, NumberMap.total_erase _ found]
    have hcounts : deltas.countP (startsCall id) = 0 ∧ deltas.countP (answersCall id) = callOf id block := by
      cases completes with
      | toolUse _ => simp [startsCall, answersCall, callOf, List.countP_cons]
      | text | ignored | thinking _ _ | redactedThinking _ => exact ⟨rfl, rfl⟩
    omega
  | passed _ blocks _ _ _ allQuiet =>
    rw [blocks, countP_quiet (startsCall_quiet id) allQuiet, countP_quiet (answersCall_quiet id) allQuiet]

theorem alive_pushed (hpushed : Pushed parser ev parser' deltas) (hrunning : parser'.terminal = false) :
    ∀ d ∈ deltas, isTerminal d = false := by
  cases hpushed with
  | failed ended _ | finished _ _ _ ended _ =>
    rw [ended] at hrunning
    cases hrunning
  | @opened block _ _ _ _ _ _ =>
    intro d hd
    cases block with
    | toolUse _ _ =>
      rw [List.mem_singleton.mp hd]
      rfl
    | text | ignored | thinking _ _ | redactedThinking _ => cases hd
  | fed _ _ _ _ _ allQuiet | passed _ _ _ _ _ allQuiet => exact fun d hd => isTerminal_quiet d (allQuiet d hd)
  | closed _ _ _ completes _ _ =>
    intro d hd
    cases completes with
    | toolUse _ | thinking _ _ | redactedThinking _ =>
      rw [List.mem_singleton.mp hd]
      rfl
    | text | ignored => cases hd

theorem reason_pushed (hpushed : Pushed parser ev parser' deltas) (hrunning : parser'.terminal = false) :
    parser'.stopReason = parser.stopReason ∨
      eventKind ev = "message_delta" ∧ (fieldOf ev "delta").getStr "stop_reason" = some parser'.stopReason := by
  cases hpushed with
  | failed ended _ | finished _ _ _ ended _ =>
    rw [ended] at hrunning
    cases hrunning
  | opened _ _ _ _ _ reason | closed _ _ _ _ _ reason | fed _ _ _ _ reason _ => exact .inl reason
  | passed _ _ _ _ reason _ => exact reason

/-- **The step**, while the stream goes on. -/
theorem Running.pushed {log : List ParserEntry} {e : ParserEntry} (h : Running log parser)
    (hpushed : Pushed parser e.event parser' e.deltas) (hrunning : parser'.terminal = false) :
    Running (log ++ [e]) parser' := by
  refine ⟨fun index => ?_, fun hreason => ?_, fun id => ?_, fun d hd => ?_⟩
  · rw [eventsOf_append]
    exact tracksAt_pushed (h.tracks index) hpushed hrunning
  · rw [eventsOf_append]
    rcases reason_pushed hpushed hrunning with hsame | hnew
    · rw [hsame] at hreason ⊢
      obtain ⟨ev, hev, hfacts⟩ := h.reason hreason
      exact ⟨ev, List.mem_append_left _ hev, hfacts⟩
    · exact ⟨e.event, List.mem_append_right _ (List.mem_singleton.mpr rfl), hnew⟩
  · have hbefore := h.calls id
    have hstep := calls_pushed hpushed hrunning id
    rw [deltasOf_append, List.countP_append, List.countP_append]
    omega
  · rw [deltasOf_append] at hd
    rcases List.mem_append.mp hd with hd | hd
    · exact h.alive d hd
    · exact alive_pushed hpushed hrunning d hd

end Tracks

/-! #### Runs -/

/-- No call is started under the id of one that is open. -/
def DistinctCalls (events : List Value) : Prop :=
  ∀ before ev after index start during, events = before ++ ev :: after → eventKind ev = "content_block_start" →
    blockType ev = some "tool_use" → Open before index start during → blockType start = some "tool_use" →
      blockId start ≠ blockId ev

section Runs

variable [JsonText] {log before after : List ParserEntry} {e : ParserEntry} {parser parser' : AnthropicStreamParser}

/-- What comes of an event. -/
theorem step_cases (h : ParserStep parser e parser') : parser.terminal = true ∧ parser' = parser ∧ e.deltas = [] ∨
    parser.terminal = false ∧ Pushed parser e.event parser' e.deltas := by
  unfold ParserStep at h
  cases hterminal : parser.terminal with
  | true =>
    rw [AnthropicStreamParser.pushEvent, if_pos hterminal, Prod.mk.injEq] at h
    exact .inl ⟨rfl, h.1.symm, h.2.symm⟩
  | false =>
    have hpushed := AnthropicStreamParser.pushed_pushEvent parser e.event hterminal
    rw [h] at hpushed
    exact .inr ⟨rfl, hpushed⟩

omit [JsonText] in
theorem running_new : Running [] .new := by
  have hblocks (index : Nat) : AnthropicStreamParser.new.blocks[index]? = none := Std.ExtTreeMap.getElem?_empty
  refine ⟨fun index => ⟨?_, fun block hblock => ?_⟩, fun h => absurd rfl h, fun id => ?_,
    fun _ h => absurd h List.not_mem_nil⟩
  · rintro start during ⟨_, heq, _⟩
    exact absurd heq.symm (List.append_ne_nil_of_right_ne_nil _ (List.cons_ne_nil _ _))
  · rw [hblocks] at hblock
    cases hblock
  · have hzero : NumberMap.total (callOf id) AnthropicStreamParser.new.blocks = 0 := by
      refine NumberMap.total_eq_zero.mpr fun index block hblock => ?_
      rw [hblocks] at hblock
      cases hblock
    rw [hzero]
    rfl

/-- **The run**, while the stream goes on. -/
theorem running_of_run (hrun : Path ParserStep .new log parser) (hrunning : parser.terminal = false) :
    Running log parser := by
  refine hrun.invariant_log (P := fun log parser => parser.terminal = false → Running log parser)
    (fun _ => running_new) (fun pre e a b hstep ha hb => ?_) hrunning
  rcases step_cases hstep with ⟨hterminal, rfl, _⟩ | ⟨hterminal, hpushed⟩
  · rw [hterminal] at hb
    cases hb
  · exact (ha hterminal).pushed hpushed hb

/-- A stream that has ended says so. -/
theorem ended_of_run (hrun : Path ParserStep .new log parser) (hended : parser.terminal = true) :
    ∃ d ∈ deltasOf log, isTerminal d = true := by
  refine hrun.invariant_log (P := fun log parser => parser.terminal = true → ∃ d ∈ deltasOf log, isTerminal d = true)
    (by rintro ⟨⟩) (fun pre e a b hstep ha hb => ?_) hended
  rw [deltasOf_append]
  rcases step_cases hstep with ⟨hterminal, rfl, _⟩ | ⟨hterminal, hpushed⟩
  · obtain ⟨d, hd, hends⟩ := ha hterminal
    exact ⟨d, List.mem_append_left _ hd, hends⟩
  · generalize e.deltas = deltas at hpushed
    cases hpushed with
    | failed _ _ => exact ⟨_, List.mem_append_right _ (List.mem_append_right _ List.mem_cons_self), rfl⟩
    | finished _ _ _ _ _ => exact ⟨_, List.mem_append_right _ (List.mem_append_right _ List.mem_cons_self), rfl⟩
    | opened _ _ _ _ running _ | closed _ _ _ _ running _ | fed _ _ _ running _ _ | passed _ _ _ running _ _ =>
      rw [running] at hb
      cases hb

/-- What the parser knew when an event had something to say. -/
theorem exists_pushed (hrun : Path ParserStep .new (before ++ e :: after) parser) (hne : e.deltas ≠ []) :
    ∃ a b, Path ParserStep .new before a ∧ a.terminal = false ∧ Running before a ∧ Pushed a e.event b e.deltas := by
  obtain ⟨a, hbefore, hafter⟩ := hrun.exists_mid
  cases hafter with
  | @cons _ b _ _ _ hstep _ =>
    rcases step_cases hstep with ⟨_, _, hnil⟩ | ⟨hterminal, hpushed⟩
    · exact absurd hnil hne
    · exact ⟨a, b, hbefore, hterminal, running_of_run hbefore hterminal, hpushed⟩

/-! #### Ends -/

variable {d : StreamDelta} {deltas post pre : List StreamDelta}

omit [JsonText] in
theorem last_of_alive {last : StreamDelta}
    (halive : ∀ other ∈ deltas, isTerminal other = false) (hsplit : deltas ++ [last] = pre ++ d :: post)
    (hd : isTerminal d = true) : post = [] := by
  rcases List.eq_nil_or_concat post with rfl | ⟨earlier, final, rfl⟩
  · rfl
  · rw [List.concat_eq_append, ← List.cons_append, ← List.append_assoc] at hsplit
    obtain ⟨hdeltas, _⟩ := List.append_inj' hsplit rfl
    have hmem : d ∈ deltas := by
      rw [hdeltas]
      exact List.mem_append_right _ List.mem_cons_self
    rw [halive d hmem] at hd
    cases hd

/-- A stream ends once. -/
theorem endsOnce_of_run (hrun : Path ParserStep .new log parser) :
    ∀ pre d post, deltasOf log = pre ++ d :: post → isTerminal d = true → post = [] := by
  have hnone {deltas : List StreamDelta} (halive : ∀ d ∈ deltas, isTerminal d = false) :
      ∀ pre d post, deltas = pre ++ d :: post → isTerminal d = true → post = [] := by
    rintro pre d post rfl hd
    rw [halive d (List.mem_append_right _ List.mem_cons_self)] at hd
    cases hd
  refine (hrun.invariant_log (P := fun log parser => (parser.terminal = false → Running log parser) ∧
      ∀ pre d post, deltasOf log = pre ++ d :: post → isTerminal d = true → post = [])
    ⟨fun _ => running_new, hnone fun _ h => absurd h List.not_mem_nil⟩ fun pre e a b hstep ⟨ha, hends⟩ => ?_).2
  rw [deltasOf_append]
  rcases step_cases hstep with ⟨hterminal, rfl, hnil⟩ | ⟨hterminal, hpushed⟩
  · refine ⟨fun hb => ?_, ?_⟩
    · rw [hterminal] at hb
      cases hb
    · rw [hnil, List.append_nil]
      exact hends
  · have hrunning := ha hterminal
    refine ⟨fun hb => hrunning.pushed hpushed hb, ?_⟩
    have hgoes (hb : b.terminal = false) :
        ∀ pre' d post, deltasOf pre ++ e.deltas = pre' ++ d :: post → isTerminal d = true → post = [] := by
      refine hnone fun d hd => ?_
      rcases List.mem_append.mp hd with hd | hd
      · exact hrunning.alive d hd
      · exact alive_pushed hpushed hb d hd
    have halive {quiet : List StreamDelta} (hquiet : ∀ d ∈ quiet, isQuiet d = true) :
        ∀ d ∈ deltasOf pre ++ quiet, isTerminal d = false := by
      intro d hd
      rcases List.mem_append.mp hd with hd | hd
      · exact hrunning.alive d hd
      · exact isTerminal_quiet d (hquiet d hd)
    intro pre' d post hsplit hd
    generalize e.deltas = deltas at hpushed hsplit hgoes
    cases hpushed with
    | failed _ allQuiet =>
      rw [← List.append_assoc] at hsplit
      exact last_of_alive (halive allQuiet) hsplit hd
    | finished _ _ _ _ allQuiet =>
      rw [← List.append_assoc] at hsplit
      exact last_of_alive (halive allQuiet) hsplit hd
    | opened _ _ _ _ running _ | closed _ _ _ _ running _ | fed _ _ _ running _ _ | passed _ _ _ running _ _ =>
      exact hgoes running pre' d post hsplit hd

/-! #### Inputs and reasoning -/

variable {index : Nat}

omit [JsonText] in
/-- The block that the parser has under an index. -/
theorem Running.gathers (h : Running log parser) {block : BlockState}
    (hblock : parser.blocks[index]? = some block) :
    ∃ start during, Open (eventsOf log) index start during ∧ Gathers index start during block := by
  obtain ⟨start, during, hopen⟩ := (h.tracks index).known block hblock
  obtain ⟨found, hfound, hgathers⟩ := (h.tracks index).opened start during hopen
  cases hblock.symm.trans hfound
  exact ⟨start, during, hopen, hgathers⟩

variable {ev : Value}

/-- What completes a block comes when the block stops. -/
theorem exists_completes
    (hpushed : Pushed parser ev parser' deltas) (hd : d ∈ deltas) (hloud : isQuiet d = false)
    (halive : isTerminal d = false) (hstart : ∀ id name, d ≠ .toolCallStart id name) :
    ∃ block, eventKind ev = "content_block_stop" ∧ parser.blocks[blockIndex ev]? = some block ∧
      Completes block deltas := by
  have hquiet {quiet : List StreamDelta} (hall : ∀ d ∈ quiet, isQuiet d = true) (hd : d ∈ quiet) : False := by
    rw [hall d hd] at hloud
    cases hloud
  cases hpushed with
  | failed _ allQuiet | finished _ _ _ _ allQuiet =>
    rcases List.mem_append.mp hd with hd | hd
    · exact (hquiet allQuiet hd).elim
    · rw [List.mem_singleton.mp hd] at halive
      cases halive
  | @opened block _ _ _ _ _ _ =>
    cases block with
    | toolUse id _ => exact absurd (List.mem_singleton.mp hd) (hstart id _)
    | text | ignored | thinking _ _ | redactedThinking _ => cases hd
  | fed _ _ _ _ _ allQuiet | passed _ _ _ _ _ allQuiet => exact (hquiet allQuiet hd).elim
  | @closed block _ kind found _ completes _ _ => exact ⟨block, kind, found, completes⟩

/-- The input of a call. -/
theorem exists_input (hrun : Path ParserStep .new (before ++ e :: after) parser) {id : String} {input : Value}
    (hmem : .toolCallInput id input ∈ e.deltas) : ∃ a : AnthropicStreamParser, ∃ index start during,
      Path ParserStep .new before a ∧ a.terminal = false ∧ Running before a ∧
      Open (eventsOf before) index start during ∧ blockType start = some "tool_use" ∧ blockId start = id ∧ Stops e.event index ∧
      e.deltas = [.toolCallInput id input] ∧ IsInput (inputText index during) input ∧
      a.blocks[index]? = some (.toolUse id (inputText index during)) := by
  obtain ⟨a, b, hbefore, hterminal, hrunning, hpushed⟩ := exists_pushed hrun (List.ne_nil_of_mem hmem)
  obtain ⟨block, hkind, hfound, hcompletes⟩ := exists_completes hpushed hmem rfl rfl (by rintro _ _ ⟨⟩)
  obtain ⟨start, during, hopen, hgathers⟩ := hrunning.gathers hfound
  generalize hdeltas : e.deltas = deltas at hcompletes hmem
  cases hcompletes with
  | toolUse isInput =>
    cases List.mem_singleton.mp hmem
    cases hgathers with
    | toolUse type =>
      exact ⟨a, _, start, during, hbefore, hterminal, hrunning, hopen, type, rfl, ⟨hkind, rfl⟩, rfl, isInput, hfound⟩
  | thinking _ _ | redactedThinking _ => cases List.mem_singleton.mp hmem
  | text | ignored => cases hmem

/-- The calls that are open have different ids. -/
theorem calls_le_one (hrun : Path ParserStep .new log parser) (hdistinct : DistinctCalls (eventsOf log))
    (hrunning : parser.terminal = false) (id : String) : NumberMap.total (callOf id) parser.blocks ≤ 1 := by
  refine hrun.invariant_log (P := fun log parser => DistinctCalls (eventsOf log) → parser.terminal = false →
    Running log parser ∧ NumberMap.total (callOf id) parser.blocks ≤ 1) (fun _ _ => ⟨running_new, ?_⟩)
    (fun pre e a b hstep ha hdistinct hb => ?_) hdistinct hrunning |>.2
  · have hnew := running_new.calls id
    exact le_of_eq_of_le (Nat.add_left_cancel hnew).symm (Nat.zero_le 1)
  · rcases step_cases hstep with ⟨hterminal, rfl, _⟩ | ⟨hterminal, hpushed⟩
    · rw [hterminal] at hb
      cases hb
    · rw [eventsOf_append] at hdistinct
      obtain ⟨hrunning, hle⟩ := ha (fun before ev after index start during hsplit =>
        hdistinct before ev (after ++ [e.event]) index start during
          (by rw [hsplit, List.append_assoc, List.cons_append])) hterminal
      refine ⟨hrunning.pushed hpushed hb, ?_⟩
      generalize e.deltas = deltas at hpushed
      cases hpushed with
      | failed ended _ | finished _ _ _ ended _ =>
        rw [ended] at hb
        cases hb
      | @opened block kind fresh blocks gathers _ _ =>
        rw [blocks, NumberMap.total_insert _ fresh]
        by_cases hcall : callOf id block = 0
        · omega
        · have hothers : NumberMap.total (callOf id) a.blocks = 0 := by
            refine NumberMap.total_eq_zero.mpr fun index other hother => ?_
            obtain ⟨start, during, hopen, hgathers⟩ := hrunning.gathers hother
            cases gathers with
            | toolUse type =>
              cases hgathers with
              | toolUse type' =>
                have hne := hdistinct _ _ [] index start during rfl kind type hopen type'
                unfold callOf at hcall ⊢
                by_cases hid : blockId e.event = id
                · exact if_neg fun hsame => hne (hsame.trans hid.symm)
                · exact absurd (if_neg hid) hcall
              | text _ | thinking _ | redactedThinking _ | ignored _ _ => rfl
            | text _ | thinking _ | redactedThinking _ | ignored _ _ => exact absurd rfl hcall
          have hone : callOf id block ≤ 1 := by
            unfold callOf
            split
            · split <;> omega
            · omega
          omega
      | @fed block _ kind found blocks _ _ _ =>
        have hsame : callOf id (block.fed (blockIndex e.event) e.event) = callOf id block := by cases block <;> rfl
        have hreplaced := NumberMap.total_replace (callOf id) found (w := block.fed (blockIndex e.event) e.event)
        rw [blocks]
        omega
      | closed _ found blocks _ _ _ =>
        have herased := NumberMap.total_erase (callOf id) found
        rw [blocks]
        omega
      | passed _ blocks _ _ _ _ =>
        rw [blocks]
        exact hle

omit [JsonText] in
/-- A delta comes of an event. -/
theorem exists_entry (h : deltasOf log = pre ++ d :: post) :
    ∃ before e after pre' post', log = before ++ e :: after ∧ e.deltas = pre' ++ d :: post' ∧
      pre = deltasOf before ++ pre' := by
  induction log generalizing pre with
  | nil => exact absurd h.symm (List.append_ne_nil_of_right_ne_nil _ (List.cons_ne_nil _ _))
  | cons first rest ih =>
    have hsplit : first.deltas ++ deltasOf rest = pre ++ d :: post := h
    rcases List.append_eq_append_iff.mp hsplit with ⟨later, rfl, hrest⟩ | ⟨later, hfirst, hpost⟩
    · obtain ⟨before, e, after, pre', post', rfl, he, rfl⟩ := ih hrest
      exact ⟨first :: before, e, after, pre', post', rfl, he, (List.append_assoc _ _ _).symm⟩
    · cases later with
      | nil =>
        rw [List.append_nil] at hfirst
        obtain ⟨before, e, after, pre', post', rfl, he, hpre⟩ := @ih [] hpost.symm
        refine ⟨first :: before, e, after, pre', post', rfl, he, ?_⟩
        rw [← hfirst]
        show first.deltas = first.deltas ++ deltasOf before ++ pre'
        rw [List.append_assoc, ← hpre, List.append_nil]
      | cons other later =>
        rw [List.cons_append, List.cons.injEq] at hpost
        obtain ⟨rfl, _⟩ := hpost
        exact ⟨[], first, rest, pre, later, rfl, hfirst, rfl⟩

/-! #### The whole stream -/

/-- A stream that stops. -/
theorem finished_of_mem {reason : String}
    (hpushed : Pushed parser ev parser' deltas) (hmem : .messageStop reason ∈ deltas) :
    (∀ index : Nat, parser.blocks[index]? = none) ∧ reason ≠ "" ∧ parser.stopReason = reason ∧
      ∀ id, deltas.countP (startsCall id) = 0 ∧ deltas.countP (answersCall id) = 0 := by
  have hquiet {quiet : List StreamDelta} (hall : ∀ d ∈ quiet, isQuiet d = true) : .messageStop reason ∉ quiet :=
    fun h => Bool.false_ne_true (hall _ h)
  have hends (hrunning : parser'.terminal = false) : False := by
    have halive := alive_pushed hpushed hrunning _ hmem
    cases halive
  cases hpushed with
  | failed _ allQuiet =>
    rcases List.mem_append.mp hmem with hmem | hmem
    · exact absurd hmem (hquiet allQuiet)
    · cases List.mem_singleton.mp hmem
  | finished _ closed hne _ allQuiet =>
    rcases List.mem_append.mp hmem with hmem | hmem
    · exact absurd hmem (hquiet allQuiet)
    · cases List.mem_singleton.mp hmem
      refine ⟨closed, hne, rfl, fun id => ⟨?_, ?_⟩⟩
      · rw [List.countP_append, countP_quiet (startsCall_quiet id) allQuiet]
        rfl
      · rw [List.countP_append, countP_quiet (answersCall_quiet id) allQuiet]
        rfl
  | opened _ _ _ _ running _ | closed _ _ _ _ running _ | fed _ _ _ running _ _ | passed _ _ _ running _ _ =>
    exact (hends running).elim

omit [JsonText] in
theorem nil_of_only {d' : StreamDelta} (h : pre ++ d :: post = [d']) : pre = [] := by
  cases pre with
  | nil => rfl
  | cons first rest =>
    rw [List.cons_append, List.cons.injEq] at h
    exact absurd h.2 (List.append_ne_nil_of_right_ne_nil _ (List.cons_ne_nil _ _))

omit [JsonText] in
theorem distinct_before (h : DistinctCalls (eventsOf (before ++ e :: after))) : DistinctCalls (eventsOf before) := by
  intro earlier ev later index start during hsplit
  refine h earlier ev (later ++ e.event :: eventsOf after) index start during ?_
  unfold eventsOf at hsplit ⊢
  rw [List.map_append, hsplit, List.append_assoc]
  rfl

/-- What the deltas of a stream say. -/
structure Faithful (log : List ParserEntry) : Prop where
  /-- One delta at most ends the stream, and it is the last one. -/
  ends : ∀ pre d post, deltasOf log = pre ++ d :: post → isTerminal d = true → post = []
  /-- A stream stops when every block has stopped, for a reason that was given. -/
  complete : ∀ before e after reason, log = before ++ e :: after → .messageStop reason ∈ e.deltas →
    (∀ earlier start later index, eventsOf before = earlier ++ start :: later → Starts start index →
      ∃ ev ∈ later, Stops ev index) ∧
    reason ≠ "" ∧ ∃ ev ∈ eventsOf before, eventKind ev = "message_delta" ∧
      (fieldOf ev "delta").getStr "stop_reason" = some reason
  /-- An input answers a call that has none yet. -/
  answers : ∀ pre id input post, deltasOf log = pre ++ .toolCallInput id input :: post →
    pre.countP (answersCall id) < pre.countP (startsCall id)
  /-- There is one such call, where no call starts under the id of one that is open. -/
  answersOne : DistinctCalls (eventsOf log) → ∀ pre id input post,
    deltasOf log = pre ++ .toolCallInput id input :: post →
      pre.countP (startsCall id) = pre.countP (answersCall id) + 1
  /-- When the stream stops, no call is left. -/
  answered : ∀ pre reason post id, deltasOf log = pre ++ .messageStop reason :: post →
    pre.countP (startsCall id) = pre.countP (answersCall id)
  /-- An input is what the fragments of its block are. -/
  input : ∀ before e after id input, log = before ++ e :: after → .toolCallInput id input ∈ e.deltas →
    e.deltas = [.toolCallInput id input] ∧ ∃ index start during, Open (eventsOf before) index start during ∧
      blockType start = some "tool_use" ∧ blockId start = id ∧ Stops e.event index ∧
      IsInput (inputText index during) input
  /-- A block of thinking that stops is complete. -/
  thinking : ∀ before e after index start during, log = before ++ e :: after →
    (∀ d ∈ deltasOf before, isTerminal d = false) → Open (eventsOf before) index start during →
    blockType start = some "thinking" → Stops e.event index →
      e.deltas = [.reasoningComplete (thinkingText index during) (lastSignature index during) none]
  /-- What is complete is such a block, or one that is redacted. -/
  reasoning : ∀ before e after soFar signature data, log = before ++ e :: after →
    .reasoningComplete soFar signature data ∈ e.deltas → e.deltas = [.reasoningComplete soFar signature data] ∧
      ∃ index start during, Open (eventsOf before) index start during ∧ Stops e.event index ∧
        (blockType start = some "thinking" ∨ blockType start = some "redacted_thinking")

/-- A block of thinking that stops. -/
theorem deltas_of_thinking (hrun : Path ParserStep .new (before ++ e :: after) parser)
    (halive : ∀ d ∈ deltasOf before, isTerminal d = false) {start : Value} {during : List Value}
    (hopen : Open (eventsOf before) index start during) (htype : blockType start = some "thinking")
    (hstops : Stops e.event index) :
    e.deltas = [.reasoningComplete (thinkingText index during) (lastSignature index during) none] := by
  obtain ⟨a, hbefore, hafter⟩ := hrun.exists_mid
  cases hafter with
  | @cons _ b _ _ _ hstep _ =>
    have hterminal : a.terminal = false := by
      rw [← Bool.not_eq_true]
      intro hended
      obtain ⟨d, hd, hends⟩ := ended_of_run hbefore hended
      rw [halive d hd] at hends
      cases hends
    obtain ⟨block, hblock, hgathers⟩ := ((running_of_run hbefore hterminal).tracks index).opened start during hopen
    obtain ⟨hkind, rfl⟩ := hstops
    have hstopped : ∃ b', a.onBlockStop e.event = (b',
        [.reasoningComplete (thinkingText (blockIndex e.event) during) (lastSignature (blockIndex e.event) during) none]) := by
      unfold AnthropicStreamParser.onBlockStop
      dsimp only
      rw [hblock]
      cases hgathers with
      | thinking _ => exact ⟨_, rfl⟩
      | text type | redactedThinking type | toolUse type =>
        rw [type] at htype
        exact absurd (Option.some.inj htype) (by decide)
      | ignored type_eq unknown =>
        rw [type_eq, Option.some.injEq] at htype
        exact absurd (htype ▸ unknown) (by decide)
    obtain ⟨b', hb'⟩ := hstopped
    have hpush : a.pushEvent e.event = a.onBlockStop e.event := by
      unfold AnthropicStreamParser.pushEvent
      rw [if_neg (by rw [hterminal]; decide), hkind]
      rfl
    rw [ParserStep, hpush, hb', Prod.mk.injEq] at hstep
    exact hstep.2.symm

/-- **The deltas of a stream say what its events do**, whatever the events are. -/
theorem stream_faithful (hrun : Path ParserStep .new log parser) : Faithful log where
  ends := endsOnce_of_run hrun
  complete := by
    rintro before e after reason rfl hmem
    obtain ⟨a, b, _, _, hrunning, hpushed⟩ := exists_pushed hrun (List.ne_nil_of_mem hmem)
    obtain ⟨hclosed, hne, rfl, _⟩ := finished_of_mem hpushed hmem
    refine ⟨fun earlier start later index hsplit hstart => ?_, hne, hrunning.reason hne⟩
    refine @stopped_of_not_open earlier later index start hstart fun start' later' hopen => ?_
    rw [← hsplit] at hopen
    obtain ⟨block, hblock, _⟩ := (hrunning.tracks index).opened start' later' hopen
    rw [hclosed index] at hblock
    cases hblock
  answers := by
    intro pre id input post hsplit
    obtain ⟨before, e, after, pre', post', rfl, he, rfl⟩ := exists_entry hsplit
    have hmem : .toolCallInput id input ∈ e.deltas := he ▸ List.mem_append_right _ List.mem_cons_self
    obtain ⟨a, index, start, during, _, _, hrunning, _, _, _, _, honly, _, hfound⟩ := exists_input hrun hmem
    obtain rfl := nil_of_only (he.symm.trans honly)
    have hcalls := hrunning.calls id
    have hone := NumberMap.total_erase (callOf id) hfound
    have hcall : callOf id (.toolUse id (inputText index during)) = 1 := if_pos rfl
    rw [List.append_nil]
    omega
  answersOne := by
    intro hdistinct pre id input post hsplit
    obtain ⟨before, e, after, pre', post', rfl, he, rfl⟩ := exists_entry hsplit
    have hmem : .toolCallInput id input ∈ e.deltas := he ▸ List.mem_append_right _ List.mem_cons_self
    obtain ⟨a, index, start, during, hbefore, hterminal, hrunning, _, _, _, _, honly, _, hfound⟩ := exists_input hrun hmem
    obtain rfl := nil_of_only (he.symm.trans honly)
    have hcalls := hrunning.calls id
    have hone := NumberMap.total_erase (callOf id) hfound
    have hcall : callOf id (.toolUse id (inputText index during)) = 1 := if_pos rfl
    have hle := calls_le_one hbefore (distinct_before hdistinct) hterminal id
    rw [List.append_nil]
    omega
  answered := by
    intro pre reason post id hsplit
    obtain ⟨before, e, after, pre', post', rfl, he, rfl⟩ := exists_entry hsplit
    have hmem : .messageStop reason ∈ e.deltas := he ▸ List.mem_append_right _ List.mem_cons_self
    obtain ⟨a, b, _, _, hrunning, hpushed⟩ := exists_pushed hrun (List.ne_nil_of_mem hmem)
    obtain ⟨hclosed, _, _, hsilent⟩ := finished_of_mem hpushed hmem
    obtain ⟨hstarts, hanswers⟩ := hsilent id
    have hcalls := hrunning.calls id
    have hzero : NumberMap.total (callOf id) a.blocks = 0 := by
      refine NumberMap.total_eq_zero.mpr fun index block hblock => ?_
      rw [hclosed index] at hblock
      cases hblock
    rw [he, List.countP_append, Nat.add_eq_zero_iff] at hstarts hanswers
    rw [List.countP_append, List.countP_append, hstarts.1, hanswers.1]
    omega
  input := by
    rintro before e after id input rfl hmem
    obtain ⟨_, index, start, during, _, _, _, hopen, htype, hid, hstops, honly, hinput, _⟩ := exists_input hrun hmem
    exact ⟨honly, index, start, during, hopen, htype, hid, hstops, hinput⟩
  thinking := by
    rintro before e after index start during rfl halive hopen htype hstops
    exact deltas_of_thinking hrun halive hopen htype hstops
  reasoning := by
    rintro before e after soFar signature data rfl hmem
    obtain ⟨a, b, _, _, hrunning, hpushed⟩ := exists_pushed hrun (List.ne_nil_of_mem hmem)
    obtain ⟨block, hkind, hfound, hcompletes⟩ := exists_completes hpushed hmem rfl rfl (by rintro _ _ ⟨⟩)
    obtain ⟨start, during, hopen, hgathers⟩ := hrunning.gathers hfound
    generalize e.deltas = deltas at hcompletes hmem
    cases hcompletes with
    | toolUse _ => cases List.mem_singleton.mp hmem
    | text | ignored => cases hmem
    | thinking _ _ =>
      cases List.mem_singleton.mp hmem
      cases hgathers with
      | thinking type => exact ⟨rfl, _, start, during, hopen, ⟨hkind, rfl⟩, .inl type⟩
    | redactedThinking _ =>
      cases List.mem_singleton.mp hmem
      cases hgathers with
      | redactedThinking type => exact ⟨rfl, _, start, during, hopen, ⟨hkind, rfl⟩, .inr type⟩

end Runs

/-! ### Samples -/

/-- The log of some events. -/
def logOf [JsonText] (parser : AnthropicStreamParser) : List Value → List ParserEntry
  | [] => []
  | ev :: rest => ⟨ev, (parser.pushEvent ev).2⟩ :: logOf (parser.pushEvent ev).1 rest

theorem path_logOf [JsonText] (parser : AnthropicStreamParser) (events : List Value) :
    ∃ parser', Path ParserStep parser (logOf parser events) parser' := by
  induction events generalizing parser with
  | nil => exact ⟨parser, .nil parser⟩
  | cons ev rest ih =>
    obtain ⟨parser', hrest⟩ := ih (parser.pushEvent ev).1
    exact ⟨parser', .cons rfl hrest⟩

/-- An event about the block under an index. -/
def blockEvent (kind : String) (index : Nat) (fields : List (String × Value)) : Value :=
  .ofFields ([("type", .string kind), ("index", .number (.posInt index))] ++ fields)

/-- A call starts. -/
def callStart (index : Nat) (id : String) : Value :=
  blockEvent "content_block_start" index
    [("content_block", .ofFields [("type", .string "tool_use"), ("id", .string id), ("name", .string "echo")])]

/-- Thinking starts. -/
def thinkingStart (index : Nat) : Value :=
  blockEvent "content_block_start" index [("content_block", .ofFields [("type", .string "thinking")])]

/-- A block goes on. -/
def blockDelta (index : Nat) (type field text : String) : Value :=
  blockEvent "content_block_delta" index [("delta", .ofFields [("type", .string type), (field, .string text)])]

/-- A block stops. -/
def blockStop (index : Nat) : Value := blockEvent "content_block_stop" index []

/-- A text that is no value. -/
@[reducible] def unreadable : JsonText := ⟨fun _ => none⟩

/-- Two calls have one id, and an input follows both; thinking that never stops is never complete. -/
theorem not_stream_faithful :
    (¬ ∀ (_ : JsonText) (log : List ParserEntry) (parser : AnthropicStreamParser),
      Path ParserStep AnthropicStreamParser.new log parser → ∀ pre id input post,
        deltasOf log = pre ++ .toolCallInput id input :: post →
          pre.countP (startsCall id) = pre.countP (answersCall id) + 1) ∧
    ¬ ∀ (_ : JsonText) (log : List ParserEntry) (parser : AnthropicStreamParser),
      Path ParserStep AnthropicStreamParser.new log parser → ∀ before start after index,
        log = before ++ start :: after → Starts start.event index → blockType start.event = some "thinking" →
          ∃ e ∈ after, ∃ text signature, .reasoningComplete text signature none ∈ e.deltas := by
  let _ : JsonText := unreadable
  constructor
  · intro h
    obtain ⟨parser, hrun⟩ := path_logOf .new [callStart 0 "call", callStart 1 "call", blockStop 0]
    have hdeltas : deltasOf (logOf .new [callStart 0 "call", callStart 1 "call", blockStop 0]) =
        [.toolCallStart "call" "echo", .toolCallStart "call" "echo"] ++ .toolCallInput "call" (.object []) :: [] := by
      decide +kernel
    have hone := h _ _ parser hrun _ _ _ _ hdeltas
    exact absurd hone (by decide +kernel)
  · intro h
    obtain ⟨parser, hrun⟩ := path_logOf .new [thinkingStart 0]
    obtain ⟨e, he, _⟩ := h _ _ parser hrun [] _ [] 0 rfl ⟨by decide +kernel, by decide +kernel⟩ (by decide +kernel)
    cases he

/-- Two blocks of thinking that are interleaved, and a call. -/
def interleaved : List Value :=
  [thinkingStart 0, thinkingStart 1, callStart 2 "call", blockDelta 1 "thinking_delta" "thinking" "b",
    blockDelta 0 "thinking_delta" "thinking" "a", blockDelta 1 "signature_delta" "signature" "s",
    blockDelta 0 "thinking_delta" "thinking" "c", blockStop 1, blockStop 2, blockStop 0]

/-- The deltas of this stream, which are faithful. -/
theorem stream_faithful_sample :
    let _ : JsonText := unreadable
    deltasOf (logOf .new interleaved) =
        [.toolCallStart "call" "echo", .reasoningDelta "b", .reasoningDelta "a", .reasoningDelta "c",
          .reasoningComplete "b" (some "s") none, .toolCallInput "call" (.object []),
          .reasoningComplete "ac" none none] ∧
      Faithful (logOf .new interleaved) := by
  intro _
  obtain ⟨parser, hrun⟩ := path_logOf .new interleaved
  exact ⟨by decide +kernel, stream_faithful hrun⟩

end AikitRuntime.Providers
