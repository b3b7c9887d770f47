import AikitRuntime.Agent.Messages

/-!
# Compaction

A transcript over the token budget keeps its first message and its most recent ones, and what was said between
them becomes one note. The cut starts where the recent messages start, and moves past the messages with tool
results that it meets there: so no result is kept without its use. It moves later, where the policy's documentation
says that it may move earlier: then the transcript keeps fewer recent messages than the policy asks for.
-/

namespace AikitRuntime.Agent

open Durability

/-! ### The policy, and the cut -/

def compactionSummaryMaxChars : Nat := 4000

/-- `CompactionPolicy`. -/
structure CompactionPolicy where
  maxContextTokens : Nat
  keepRecentMessages : Nat
  deriving DecidableEq

/-- `CompactionPolicy::is_enabled`. -/
def CompactionPolicy.isEnabled (policy : CompactionPolicy) : Bool := 0 < policy.maxContextTokens

/-- The bytes that a block is charged for. -/
def ContentBlock.chars : ContentBlock → Nat
  | .text content => content.utf8ByteSize
  | .reasoning content _ _ _ => content.utf8ByteSize
  | .toolResult _ content _ => content.utf8ByteSize
  | .toolUse _ name input => name.utf8ByteSize + (String.ofList (canonicalJson input)).utf8ByteSize
  | .citation content _ _ => content.utf8ByteSize
  | .media .. | .mediaInput _ => 512

/-- `estimate_message_tokens`. -/
def estimateMessageTokens (message : Message) : Nat := (message.content.map ContentBlock.chars).sum / 4 + 4

/-- `estimate_tokens`. -/
def estimateTokens (messages : List Message) : Nat := (messages.map estimateMessageTokens).sum

/-- The id that a block answers. -/
def ContentBlock.answered? : ContentBlock → Option String
  | .toolResult toolUseId _ _ => some toolUseId
  | _ => none

/-- The id that a block uses a tool under. -/
def ContentBlock.used? : ContentBlock → Option String
  | .toolUse id _ _ => some id
  | _ => none

/-- `has_tool_result`. -/
def hasToolResult (message : Message) : Bool := message.content.any fun block => block.answered?.isSome

/-- The loop of `compaction_cut`, on the messages from the cut on. -/
def skipToolResults : List Message → Nat → Nat
  | [], cut => cut
  | message :: rest, cut => if hasToolResult message then skipToolResults rest (cut + 1) else cut

/-- Where the recent messages start. -/
def recentStart (messages : List Message) (policy : CompactionPolicy) : Nat :=
  messages.length - policy.keepRecentMessages

/-- `compaction_cut`. -/
def compactionCut (messages : List Message) (policy : CompactionPolicy) : Option Nat :=
  if !policy.isEnabled || estimateTokens messages ≤ policy.maxContextTokens then none
  else
    let start := recentStart messages policy
    let cut := skipToolResults (messages.drop start) start
    if cut ≤ 1 || messages.length ≤ cut then none else some cut

/-! ### The note -/

/-- `Message::user`. -/
def Message.user (text : String) : Message := { role := .user, content := [.text text] }

/-- `text.chars().take(n)`. -/
def takeChars (n : Nat) (text : String) : String := String.ofList (text.toList.take n)

/-- `text.trim()`, as a text. -/
def trimmed (text : String) : String := String.ofList (trim text.toList)

/-- What a block adds to the digest. -/
def ContentBlock.digest : ContentBlock → String
  | .text content => trimmed content ++ " "
  | .toolUse _ name _ => s!"[tool {name}] "
  | .toolResult _ content _ => s!"[result: {trimmed (takeChars 80 content)}] "
  | _ => ""

/-- `extractive_digest`. -/
def extractiveDigest (dropped : List Message) : String :=
  trimmed (String.join ((dropped.flatMap (·.content)).map ContentBlock.digest))

/-- `summarize_dropped`. -/
def summarizeDropped (dropped : List Message) : Message :=
  let condensed := takeChars 1000 (extractiveDigest dropped)
  .user (s!"[aikit compacted {dropped.length} earlier message(s) to fit the context window. " ++
    s!"Condensed summary of the omitted turns:\n{condensed}]")

/-- `CompactionSummarizer`: the summary of the dropped messages, or nothing where it fails. -/
abbrev CompactionSummarizer : Type := List Message → Option String

/-- The note of `compact_messages_with_summarizer`. -/
def compactionNote (summarizer : Option CompactionSummarizer) (dropped : List Message) : Message :=
  match summarizer.bind (· dropped) with
  | none => summarizeDropped dropped
  | some summary =>
    if isBlank summary then summarizeDropped dropped
    else
      let condensed := takeChars compactionSummaryMaxChars (trimmed summary)
      .user (s!"[aikit compacted {dropped.length} earlier message(s) to fit the context window. " ++
        s!"Model-generated summary of the omitted turns:\n{condensed}]")

/-- `assemble_compacted`. -/
def assembleCompacted (messages : List Message) (cut : Nat) (note : Message) : List Message :=
  messages.take 1 ++ note :: messages.drop cut

/-- `compact_messages_with_summarizer`, and `compact_messages` where there is no summarizer. -/
def compactMessages (messages : List Message) (policy : CompactionPolicy)
    (summarizer : Option CompactionSummarizer) : Option (List Message) := do
  let cut ← compactionCut messages policy
  pure (assembleCompacted messages cut (compactionNote summarizer ((messages.take cut).drop 1)))

/-! ### What the cut is -/

section
variable {messages out : List Message} {policy : CompactionPolicy} {summarizer : Option CompactionSummarizer}
  {cut start : Nat}

/-- **The loop**, by induction on the messages it looks at: it stops at the first message without a result. -/
theorem skipToolResults_spec (rest : List Message) (cut : Nat) :
    cut ≤ skipToolResults rest cut ∧
      (∀ message, rest[skipToolResults rest cut - cut]? = some message → hasToolResult message = false) ∧
        (skipToolResults rest cut = cut ↔ ∀ message, rest.head? = some message → hasToolResult message = false) := by
  induction rest generalizing cut with
  | nil => simp [skipToolResults]
  | cons first rest ih =>
    obtain ⟨hle, hstop, -⟩ := ih (cut + 1)
    by_cases hfirst : hasToolResult first = true
    · rw [skipToolResults, if_pos hfirst]
      refine ⟨by omega, fun message hmessage => hstop message ?_, ?_⟩
      · rw [show skipToolResults rest (cut + 1) - cut = skipToolResults rest (cut + 1) - (cut + 1) + 1 by omega,
          List.getElem?_cons_succ] at hmessage
        exact hmessage
      · constructor
        · intro heq
          omega
        · intro h
          rw [h first rfl] at hfirst
          cases hfirst
    · rw [skipToolResults, if_neg hfirst]
      simp only [Bool.not_eq_true] at hfirst
      simp [hfirst]

/-- What a cut is: past the first message, not past the last, and at a message without results. -/
structure IsCut (messages : List Message) (policy : CompactionPolicy) (cut : Nat) : Prop where
  drops : 1 < cut
  keeps : cut < messages.length
  recent : recentStart messages policy ≤ cut
  clean : ∀ message, messages[cut]? = some message → hasToolResult message = false
  stays : cut = recentStart messages policy ↔
    ∀ message, messages[recentStart messages policy]? = some message → hasToolResult message = false

theorem compactionCut_spec (h : compactionCut messages policy = some cut) : IsCut messages policy cut := by
  unfold compactionCut at h
  split at h
  · cases h
  · dsimp only at h
    split at h
    · cases h
    · next hin =>
      rw [Option.some.injEq] at h
      rw [h, Bool.or_eq_true, decide_eq_true_iff, decide_eq_true_iff] at hin
      obtain ⟨hle, hstop, hstays⟩ := skipToolResults_spec (messages.drop (recentStart messages policy))
        (recentStart messages policy)
      rw [h] at hle hstop hstays
      refine ⟨by omega, by omega, hle, fun message hmessage => hstop message ?_, ?_⟩
      · rw [List.getElem?_drop]
        rwa [Nat.add_sub_cancel' hle]
      · rwa [List.head?_drop] at hstays

/-- **What a compacted transcript is.** -/
theorem compactMessages_eq_some (h : compactMessages messages policy summarizer = some out) :
    ∃ cut text, IsCut messages policy cut ∧ out = messages.take 1 ++ Message.user text :: messages.drop cut := by
  unfold compactMessages at h
  rw [Option.bind_eq_bind, Option.bind_eq_some_iff] at h
  obtain ⟨cut, hcut, hout⟩ := h
  cases hout
  have hnote : ∀ dropped, ∃ text, compactionNote summarizer dropped = Message.user text := by
    intro dropped
    unfold compactionNote
    split
    · exact ⟨_, rfl⟩
    · split
      · exact ⟨_, rfl⟩
      · exact ⟨_, rfl⟩
  obtain ⟨text, htext⟩ := hnote ((messages.take cut).drop 1)
  refine ⟨cut, text, compactionCut_spec hcut, ?_⟩
  rw [assembleCompacted, htext]

/-! ### A transcript -/

/-- A tool is used, answered, used again and answered, and the model goes on. -/
def searchTranscript : List Message :=
  [.user "find it", ⟨.assistant, [.toolUse "call-1" "search" (.object [])]⟩,
    ⟨.user, [.toolResult "call-1" "rows" false]⟩, ⟨.assistant, [.toolUse "call-2" "search" (.object [])]⟩,
    ⟨.user, [.toolResult "call-2" "rows" false]⟩, ⟨.assistant, [.text "found"]⟩]

theorem compactionCut_search : compactionCut searchTranscript ⟨1, 3⟩ = some 3 := by decide +kernel

theorem compactionCut_search_late : compactionCut searchTranscript ⟨1, 2⟩ = some 5 := by decide +kernel

theorem compactMessages_of_cut (summarizer : Option CompactionSummarizer)
    (h : compactionCut messages policy = some cut) : compactMessages messages policy summarizer =
      some (assembleCompacted messages cut (compactionNote summarizer ((messages.take cut).drop 1))) := by
  rw [compactMessages, h]
  rfl

/-! ### The recent messages -/

/-- The first message, one note, and messages that end with the recent ones of the transcript. -/
def KeepsRecent (messages : List Message) (policy : CompactionPolicy) (out : List Message) : Prop :=
  ∃ text tail, out = messages.take 1 ++ Message.user text :: tail ∧ tail <:+ messages ∧
    messages.drop (recentStart messages policy) <:+ tail

theorem length_take_one (h : 0 < messages.length) : (messages.take 1).length = 1 := by
  rw [List.length_take]
  omega

/-- **When the recent messages are kept**: exactly when the first of them has no tool result. -/
theorem compactMessages_keeps_iff (h : compactMessages messages policy summarizer = some out) :
    KeepsRecent messages policy out ↔
      ∀ message, messages[recentStart messages policy]? = some message → hasToolResult message = false := by
  obtain ⟨cut, text, hcut, rfl⟩ := compactMessages_eq_some h
  have hrecent := hcut.recent
  have hkeeps := hcut.keeps
  rw [← hcut.stays]
  constructor
  · rintro ⟨text', tail, heq, -, hsuffix⟩
    have htail : messages.drop cut = tail := by
      have hrest := (List.append_inj heq rfl).2
      exact (List.cons.inj hrest).2
    have hlength := hsuffix.length_le
    rw [← htail, List.length_drop, List.length_drop] at hlength
    omega
  · intro heq
    refine ⟨text, messages.drop cut, rfl, List.drop_suffix _ _, ?_⟩
    exact heq.symm ▸ List.suffix_rfl

/-- Three recent messages that start with a use are kept. -/
theorem compactMessages_keeps_search : ∃ out, KeepsRecent searchTranscript ⟨1, 3⟩ out :=
  ⟨_, (compactMessages_keeps_iff (compactMessages_of_cut none compactionCut_search)).mpr fun message hget => by
    cases hget
    rfl⟩

/-- **Of two recent messages one is dropped**: the first of them holds a result, and the cut moves past it. -/
theorem not_compactMessages_keeps :
    ¬ ∀ (messages : List Message) (policy : CompactionPolicy) (summarizer : Option CompactionSummarizer)
      (out : List Message), compactMessages messages policy summarizer = some out →
        KeepsRecent messages policy out := by
  intro h
  obtain ⟨text, tail, heq, -, hsuffix⟩ := h searchTranscript ⟨1, 2⟩ none _
    (compactMessages_of_cut none compactionCut_search_late)
  have htail : searchTranscript.drop 5 = tail := (List.cons.inj (List.append_inj heq rfl).2).2
  have hlength := hsuffix.length_le
  rw [← htail] at hlength
  exact absurd hlength (by decide)

/-! ### Uses and their results -/

/-- The message holds a use of a tool under the id. -/
def Message.Uses (message : Message) (id : String) : Prop := ∃ block ∈ message.content, block.used? = some id

/-- The message holds a result for the id. -/
def Message.Results (message : Message) (id : String) : Prop := ∃ block ∈ message.content, block.answered? = some id

/-- The result for the id in message `j` answers the use in message `i`: only messages with results are between. -/
structure Replies (messages : List Message) (i j : Nat) (id : String) : Prop where
  later : i < j
  uses : ∃ message, messages[i]? = some message ∧ message.Uses id
  results : ∃ message, messages[j]? = some message ∧ message.Results id
  between : ∀ k, i < k → k ≤ j → ∃ message, messages[k]? = some message ∧ hasToolResult message = true

theorem hasToolResult_of_results {message : Message} {id : String} (h : message.Results id) :
    hasToolResult message = true := by
  obtain ⟨block, hblock, hanswered⟩ := h
  exact List.any_eq_true.mpr ⟨block, hblock, by rw [hanswered]; rfl⟩

/-- A result in the message behind its use. -/
theorem Replies.of_next {i : Nat} {id : String} {use result : Message} (huse : messages[i]? = some use)
    (huses : use.Uses id) (hresult : messages[i + 1]? = some result) (hresults : result.Results id) :
    Replies messages i (i + 1) id := by
  refine ⟨Nat.lt_succ_self i, ⟨use, huse, huses⟩, ⟨result, hresult, hresults⟩, fun k hik hk => ?_⟩
  rw [show k = i + 1 by omega]
  exact ⟨result, hresult, hasToolResult_of_results hresults⟩

/-- Every result answers a use. -/
def Paired (messages : List Message) : Prop :=
  ∀ (j : Nat) (message : Message) (id : String), messages[j]? = some message → message.Results id →
    ∃ i, Replies messages i j id

/-- The first message holds no use. -/
def HeadUsesNothing (messages : List Message) : Prop :=
  ∀ message id, messages.head? = some message → ¬ message.Uses id

theorem not_uses_user (text id : String) : ¬ (Message.user text).Uses id := by
  rintro ⟨block, hblock, hused⟩
  rw [List.mem_singleton.mp hblock] at hused
  cases hused

theorem not_results_user (text id : String) : ¬ (Message.user text).Results id := by
  rintro ⟨block, hblock, hanswered⟩
  rw [List.mem_singleton.mp hblock] at hanswered
  cases hanswered

/-- A result that is kept answers a use that is kept: the cut is at no message with results. -/
theorem Replies.kept {i j : Nat} {id : String} (h : Replies messages i j id) (hcut : IsCut messages policy cut)
    (hj : cut ≤ j) : cut ≤ i := by
  by_contra hlate
  obtain ⟨message, hget, hresult⟩ := h.between cut (by omega) hj
  rw [hcut.clean message hget] at hresult
  cases hresult

/-- The messages behind the note, in a compacted transcript and in the one it was made from. -/
theorem getElem?_compacted (note : Message) (h : 0 < messages.length) (k : Nat) :
    (messages.take 1 ++ note :: messages.drop cut)[k + 2]? = messages[cut + k]? := by
  rw [List.getElem?_append_right (by rw [length_take_one h]; omega), length_take_one h,
    show k + 2 - 1 = k + 1 by omega, List.getElem?_cons_succ, List.getElem?_drop]

/-- **What a compacted transcript keeps of uses and results**, behind its note. -/
structure KeepsPairs (messages out : List Message) : Prop where
  paired : Paired out
  /-- Behind the note is a suffix of the transcript, and what a use in it is answered by is in it. -/
  suffix : ∃ text cut, out = messages.take 1 ++ Message.user text :: messages.drop cut ∧
    ∀ i j id, Replies messages i j id → (i = 0 ∨ cut ≤ i) → cut ≤ j

/-- **Uses and results are kept together**, in every transcript whose results answer uses and whose first message
uses no tool. -/
theorem compactMessages_paired (hpaired : Paired messages) (hhead : HeadUsesNothing messages)
    (h : compactMessages messages policy summarizer = some out) : KeepsPairs messages out := by
  obtain ⟨cut, text, hcut, rfl⟩ := compactMessages_eq_some h
  have hkeeps := hcut.keeps
  have hlength : 0 < messages.length := by omega
  have hnotes : ∀ k message, (messages.take 1 ++ Message.user text :: messages.drop cut)[k]? = some message →
      k < 2 → ∀ id, ¬ message.Results id := by
    intro k message hget hk id hresult
    rcases (by omega : k = 0 ∨ k = 1) with rfl | rfl
    · rw [List.getElem?_append_left (by rw [length_take_one hlength]; omega), List.getElem?_take_of_lt (by omega)]
        at hget
      obtain ⟨i, hi⟩ := hpaired 0 message id hget hresult
      exact absurd hi.later (Nat.not_lt_zero i)
    · rw [List.getElem?_append_right (Nat.le_of_eq (length_take_one hlength)), length_take_one hlength] at hget
      cases hget
      exact not_results_user text id hresult
  constructor
  · intro j message id hget hresult
    obtain ⟨k, rfl⟩ : ∃ k, j = k + 2 := by
      refine ⟨j - 2, ?_⟩
      by_contra hlt
      exact hnotes j message hget (by omega) id hresult
    rw [getElem?_compacted _ hlength] at hget
    obtain ⟨i, hi⟩ := hpaired (cut + k) message id hget hresult
    have hlate := hi.later
    have hcuti := hi.kept hcut (by omega)
    refine ⟨i - cut + 2, by omega, ?_, ⟨message, ?_, hresult⟩, ?_⟩
    · rw [getElem?_compacted _ hlength, show cut + (i - cut) = i by omega]
      exact hi.uses
    · rwa [getElem?_compacted _ hlength]
    · intro l hil hlk
      obtain ⟨m, rfl⟩ : ∃ m, l = m + 2 := ⟨l - 2, by omega⟩
      rw [getElem?_compacted _ hlength]
      exact hi.between (cut + m) (by omega) (by omega)
  · refine ⟨text, cut, rfl, ?_⟩
    rintro i j id hi (rfl | hcuti)
    · obtain ⟨message, hget, huses⟩ := hi.uses
      exact absurd huses (hhead message id (List.head?_eq_getElem? ▸ hget))
    · exact Nat.le_of_lt (Nat.lt_of_le_of_lt hcuti hi.later)

theorem head_search : HeadUsesNothing searchTranscript := by
  intro message id hget
  cases hget
  exact not_uses_user _ id

theorem paired_search : Paired searchTranscript := by
  intro j message id hget hresult
  have hblock := hresult
  match j with
  | 0 | 1 | 3 | 5 =>
    cases hget
    obtain ⟨block, hblock, hanswered⟩ := hresult
    rw [List.mem_singleton.mp hblock] at hanswered
    cases hanswered
  | 2 | 4 =>
    cases hget
    obtain ⟨block, hblock, hanswered⟩ := hblock
    rw [List.mem_singleton.mp hblock] at hanswered
    cases hanswered
    exact ⟨_, .of_next rfl ⟨_, List.mem_singleton_self _, rfl⟩ rfl hresult⟩

theorem compactMessages_paired_search : ∃ out, KeepsPairs searchTranscript out :=
  ⟨_, compactMessages_paired paired_search head_search (compactMessages_of_cut none compactionCut_search)⟩

end

end AikitRuntime.Agent
