import AikitRuntime.Library.Lines
import AikitRuntime.Library.Utf8
import AikitRuntime.Providers.Anthropic

/-!
# The line loop of Anthropic streams

The endpoint sends its events on lines. The loop appends each chunk of the transport to a buffer, and dispatches the
complete lines in it to the parser. A chunk that does not fit in the buffer ends the stream with an error, and so does
the end of the transport before the parser is done.

The limit is tested before the complete lines of the chunk are taken out. So a long chunk of short lines does not fit,
and the same bytes in short chunks do.

## Scope

The transport ends, and does not fail.
-/

namespace AikitRuntime.Providers

open Library Durability Streaming

/-! ### The code -/

def maxSseBufferBytes : Nat := 1024 * 1024

/-- `stream_failure`. -/
def streamFailure (provider model : String) (kind : ProviderErrorKind) (message : String) : StreamDelta :=
  .error message { ErrorInfo.new kind.code with
    provider := some provider
    model := some model
    retryable := kind.isRetryable }

/-- `with_stream_context`. -/
def withStreamContext (provider model : String) : StreamDelta → StreamDelta
  | .error message info =>
    .error message { info with provider := info.provider.or (some provider), model := info.model.or (some model) }
  | delta => delta

/-- `append_sse_chunk`: the buffer with the chunk, where it fits. -/
def appendSseChunk (buffer chunk : List UInt8) : Option (List UInt8) :=
  if maxSseBufferBytes - buffer.length < chunk.length then none else some (buffer ++ chunk)

def sseNewline : UInt8 := 10

/-- `text.strip_prefix(prefix)`. -/
def stripText (first text : List Char) : Option (List Char) :=
  if first.isPrefixOf text then some (text.drop first.length) else none

/-- The message of the error of a chunk that does not fit. -/
def limitMessage : String := "Anthropic SSE event exceeded the size limit"

/-! ### The error of the limit -/

/-- The error of a chunk that does not fit. -/
def IsLimit (delta : StreamDelta) : Prop := ∃ info, delta = .error limitMessage info

/-- The deltas have no such error. -/
def Unlimited (deltas : List StreamDelta) : Prop := ∀ delta ∈ deltas, ¬ IsLimit delta

theorem append_ne {first rest text : String} (h : text.toList.take first.toList.length ≠ first.toList) :
    first ++ rest ≠ text := by
  rintro rfl
  rw [String.toList_append, List.take_left] at h
  exact h rfl

variable {parser : AnthropicStreamParser}

theorem unlimited_terminateWithError {message : String} {info : ErrorInfo} (includes : Bool)
    (h : message ≠ limitMessage) : Unlimited (parser.terminateWithError (.error message info) includes).2 := by
  rintro delta hdelta ⟨other, rfl⟩
  unfold AnthropicStreamParser.terminateWithError at hdelta
  rcases List.mem_append.mp hdelta with hmem | hmem
  · rcases List.mem_append.mp hmem with hmem | hmem
    · split at hmem <;> simp at hmem
    · split at hmem <;> simp at hmem
  · exact h (StreamDelta.error.inj (List.mem_singleton.mp hmem)).1.symm

namespace AnthropicStreamParser

variable {parser : AnthropicStreamParser}

theorem unlimited_failProtocol {message : String} (h : message ≠ limitMessage) :
    Unlimited (parser.failProtocol message).2 := unlimited_terminateWithError true h

variable {deltas : List StreamDelta}

theorem unlimited_kept {result : Except AnthropicStreamParser AnthropicStreamParser}
    (h : Unlimited deltas) : Unlimited (kept result deltas).2 := by
  cases result with
  | error parser => exact unlimited_terminateWithError false (by decide +kernel)
  | ok parser => exact h

theorem unlimited_nil : Unlimited [] := fun _ h => nomatch h

theorem unlimited_singleton {delta : StreamDelta} (h : ∀ message info, delta ≠ .error message info) :
    Unlimited [delta] := by
  rintro other hother ⟨info, rfl⟩
  exact h _ _ (List.mem_singleton.mp hother).symm

theorem unlimited_insertBlock {index bytes items : Nat} {block : BlockState}
    (h : Unlimited deltas) : Unlimited (parser.insertBlock index bytes items block deltas).2 := by
  unfold insertBlock
  exact unlimited_kept h

theorem unlimited_onBlockStart (ev : Value) : Unlimited (parser.onBlockStart ev).2 := by
  unfold onBlockStart
  dsimp only
  split
  · exact unlimited_failProtocol (by rw [String.append_assoc]; exact append_ne (by decide +kernel))
  · split
    · exact unlimited_insertBlock unlimited_nil
    · exact unlimited_insertBlock unlimited_nil
    · exact unlimited_insertBlock unlimited_nil
    · split
      · exact unlimited_failProtocol (by decide +kernel)
      · exact unlimited_insertBlock (unlimited_singleton (by simp))
    · exact unlimited_insertBlock unlimited_nil
    · exact unlimited_failProtocol (by rw [String.append_assoc]; exact append_ne (by decide +kernel))

theorem unlimited_onBlockDelta (ev : Value) : Unlimited (parser.onBlockDelta ev).2 := by
  unfold onBlockDelta
  dsimp only
  split
  · exact unlimited_nil
  · have hfail (what state : String) (h : what.toList ≠ limitMessage.toList.take what.toList.length) :
        Unlimited (parser.failProtocol (what ++ toString (blockIndex ev) ++ state)).2 :=
      unlimited_failProtocol (by rw [String.append_assoc]; exact append_ne h.symm)
    split
    · split
      · exact unlimited_singleton (by simp)
      · exact hfail _ _ (by decide +kernel)
    · split
      · exact unlimited_insertBlock (unlimited_singleton (by simp))
      · exact hfail _ _ (by decide +kernel)
    · split
      · exact unlimited_insertBlock unlimited_nil
      · exact hfail _ _ (by decide +kernel)
    · split
      · exact unlimited_insertBlock unlimited_nil
      · exact hfail _ _ (by decide +kernel)
    · split
      · exact unlimited_singleton (by simp [citationDelta])
      · exact hfail _ _ (by decide +kernel)
    · exact unlimited_nil

theorem unlimited_onBlockStop [JsonText] (ev : Value) : Unlimited (parser.onBlockStop ev).2 := by
  unfold onBlockStop
  dsimp only
  split
  · split
    · exact unlimited_singleton (by simp)
    · split
      · exact unlimited_singleton (by simp)
      · exact unlimited_failProtocol (append_ne (by decide +kernel))
  · exact unlimited_singleton (by simp)
  · exact unlimited_singleton (by simp)
  · exact unlimited_nil
  · exact unlimited_nil
  · exact unlimited_failProtocol (by rw [String.append_assoc]; exact append_ne (by decide +kernel))

theorem unlimited_onMessageStop : Unlimited parser.onMessageStop.2 := by
  unfold onMessageStop
  split
  · exact unlimited_failProtocol (by decide +kernel)
  · split
    · exact unlimited_failProtocol (by decide +kernel)
    · rintro delta hdelta ⟨info, rfl⟩
      rcases List.mem_append.mp hdelta with hmem | hmem
      · split at hmem <;> simp at hmem
      · simp at hmem

/-- No event yields the error of the limit. -/
theorem unlimited_pushEvent [JsonText] (ev : Value) : Unlimited (parser.pushEvent ev).2 := by
  unfold pushEvent
  split
  · exact unlimited_nil
  · split
    · exact unlimited_kept (unlimited_singleton (by simp))
    · exact unlimited_onBlockStart ev
    · exact unlimited_onBlockDelta ev
    · exact unlimited_onBlockStop ev
    · exact unlimited_kept unlimited_nil
    · exact unlimited_onMessageStop
    · exact unlimited_terminateWithError true (by decide +kernel)
    · exact unlimited_nil

end AnthropicStreamParser

variable {deltas : List StreamDelta}

theorem unlimited_append {more : List StreamDelta} (h : Unlimited deltas) (h' : Unlimited more) :
    Unlimited (deltas ++ more) := fun delta hdelta => (List.mem_append.mp hdelta).elim (h delta) (h' delta)

/-- The stream is the error of the limit. -/
def IsLimited (deltas : List StreamDelta) : Prop := ∃ delta, deltas = [delta] ∧ IsLimit delta

theorem not_isLimited (h : Unlimited deltas) : ¬ IsLimited deltas := by
  rintro ⟨delta, rfl, hlimit⟩
  exact h delta List.mem_cons_self hlimit

/-- The parser has nothing that an error would come after. -/
def ReportsNothing (parser : AnthropicStreamParser) : Prop := parser.metadata = [] ∧ parser.usage = noUsage

theorem terminate_of_reportsNothing (h : ReportsNothing parser)
    (error : StreamDelta) :
    (parser.terminateWithError error true).2 = [error] := by
  unfold AnthropicStreamParser.terminateWithError
  rw [h.1, h.2]
  rfl

theorem isLimited_of_context {model : String}
    (h : deltas.map (withStreamContext "anthropic" model) =
      [withStreamContext "anthropic" model (streamFailure "anthropic" model .protocol limitMessage)]) :
    IsLimited deltas := by
  obtain ⟨delta, hdelta, hcontext⟩ := List.map_eq_singleton_iff.mp h
  refine ⟨delta, hdelta, ?_⟩
  cases delta with
  | error message info =>
    obtain ⟨rfl, -⟩ := StreamDelta.error.inj hcontext
    exact ⟨info, rfl⟩
  | _ => cases hcontext

open AnthropicStreamParser

/-! ### The loop -/

section

variable [JsonText] (model : String)

/-- What a line is dispatched as. -/
def onSseLine (parser : AnthropicStreamParser) (lineBytes : List UInt8) : AnthropicStreamParser × List StreamDelta :=
  match stripText "data:".toList (trim (Utf8.lossy lineBytes)) with
  | none => (parser, [])
  | some data =>
    let data := trim data
    if data.isEmpty then (parser, [])
    else
      match JsonText.fromStr (String.ofList data) with
      | some json => parser.pushEvent json
      | none =>
        parser.terminateWithError (streamFailure "anthropic" model .protocol "malformed Anthropic SSE data") true

/-- The parser, what is left in the buffer, and what was yielded. -/
structure Dispatched where
  parser : AnthropicStreamParser
  buffer : List UInt8
  deltas : List StreamDelta

/-- The loop over the complete lines in the buffer. -/
def dispatchLines (parser : AnthropicStreamParser) (buffer : List UInt8) : Dispatched :=
  match h : buffer.findIdx? (· == sseNewline) with
  | none => ⟨parser, buffer, []⟩
  | some pos =>
    let line := onSseLine model parser (buffer.take (pos + 1))
    if line.1.terminal then ⟨line.1, buffer.drop (pos + 1), line.2⟩
    else
      let rest := dispatchLines line.1 (buffer.drop (pos + 1))
      { rest with deltas := line.2 ++ rest.deltas }
termination_by buffer.length
decreasing_by
  obtain ⟨hlt, -⟩ := List.findIdx?_eq_some_iff_getElem.mp h
  rw [List.length_drop]
  omega

/-- The loop over the chunks. -/
def streamLines (parser : AnthropicStreamParser) (buffer : List UInt8) : List (Piece UInt8) → List StreamDelta
  | [] =>
    if parser.terminal then []
    else
      (parser.terminateWithError
        (streamFailure "anthropic" model .protocol "Anthropic stream ended before message_stop") true).2
  | chunk :: chunks =>
    match appendSseChunk buffer chunk.1 with
    | none => (parser.terminateWithError (streamFailure "anthropic" model .protocol limitMessage) true).2
    | some buffer =>
      let lines := dispatchLines model parser buffer
      if lines.parser.terminal then lines.deltas
      else lines.deltas ++ streamLines lines.parser lines.buffer chunks

/-- The stream that `AnthropicProvider::stream` returns. -/
def anthropicStream (chunks : List (Piece UInt8)) : List StreamDelta :=
  (streamLines model .new [] chunks).map (withStreamContext "anthropic" model)

/-! ### Lines -/

variable {model : String} {parser : AnthropicStreamParser}

theorem dispatchLines_unended {buffer : List UInt8} (h : sseNewline ∉ buffer) :
    dispatchLines model parser buffer = ⟨parser, buffer, []⟩ := by
  rw [dispatchLines]
  split
  · rfl
  · next hfind =>
    rw [findIdx?_unended h] at hfind
    cases hfind

/-- A line, and what comes after it. -/
theorem dispatchLines_ended {line rest : List UInt8} (h : sseNewline ∉ line) :
    dispatchLines model parser (line ++ sseNewline :: rest) =
      if (onSseLine model parser (line ++ [sseNewline])).1.terminal then
        ⟨(onSseLine model parser (line ++ [sseNewline])).1, rest, (onSseLine model parser (line ++ [sseNewline])).2⟩
      else
        { dispatchLines model (onSseLine model parser (line ++ [sseNewline])).1 rest with
          deltas := (onSseLine model parser (line ++ [sseNewline])).2 ++
            (dispatchLines model (onSseLine model parser (line ++ [sseNewline])).1 rest).deltas } := by
  have htake : (line ++ sseNewline :: rest).take (line.length + 1) = line ++ [sseNewline] := by
    rw [List.take_append, List.take_of_length_le (Nat.le_succ _), Nat.add_sub_cancel_left]
    rfl
  have hdrop : (line ++ sseNewline :: rest).drop (line.length + 1) = rest := by
    rw [← List.drop_drop, List.drop_left]
    rfl
  rw [dispatchLines]
  split
  · next hfind =>
    rw [findIdx?_ended _ h] at hfind
    cases hfind
  · next pos hfind =>
    rw [findIdx?_ended _ h] at hfind
    cases hfind
    simp only [htake, hdrop]

/-- **More bytes**: the lines that were complete are dispatched first. -/
theorem dispatchLines_append (buffer more : List UInt8) (hrunning : parser.terminal = false) :
    dispatchLines model parser (buffer ++ more) =
      if (dispatchLines model parser buffer).parser.terminal then
        { dispatchLines model parser buffer with buffer := (dispatchLines model parser buffer).buffer ++ more }
      else
        { dispatchLines model (dispatchLines model parser buffer).parser
            ((dispatchLines model parser buffer).buffer ++ more) with
          deltas := (dispatchLines model parser buffer).deltas ++
            (dispatchLines model (dispatchLines model parser buffer).parser
              ((dispatchLines model parser buffer).buffer ++ more)).deltas } := by
  -- By induction on the number of bytes, a line at a time.
  generalize hn : buffer.length = n
  induction n using Nat.strongRecOn generalizing parser buffer with
  | ind n ih =>
    by_cases hmem : sseNewline ∈ buffer
    · obtain ⟨line, rest, rfl, hline⟩ := exists_ended hmem
      have hlt : rest.length < n := by
        rw [← hn, List.length_append, List.length_cons]
        omega
      rw [List.append_assoc, List.cons_append, dispatchLines_ended hline, dispatchLines_ended hline]
      cases hterminal : (onSseLine model parser (line ++ [sseNewline])).1.terminal with
      | true => simp [hterminal]
      | false =>
        rw [if_neg Bool.false_ne_true, if_neg Bool.false_ne_true, ih _ hlt rest hterminal rfl]
        split <;> simp_all
    · rw [dispatchLines_unended hmem]
      simp [hrunning]

/-- Of complete lines nothing is left. -/
theorem dispatchLines_buffer (buffer : List UInt8) :
    ((dispatchLines model parser buffer).parser.terminal = false → sseNewline ∉ (dispatchLines model parser buffer).buffer) ∧
      (dispatchLines model parser buffer).buffer.length ≤ buffer.length := by
  generalize hn : buffer.length = n
  induction n using Nat.strongRecOn generalizing parser buffer with
  | ind n ih =>
    by_cases hmem : sseNewline ∈ buffer
    · obtain ⟨line, rest, rfl, hline⟩ := exists_ended hmem
      have hlt : rest.length < n := by
        rw [← hn, List.length_append, List.length_cons]
        omega
      rw [dispatchLines_ended hline]
      cases hterminal : (onSseLine model parser (line ++ [sseNewline])).1.terminal with
      | true => exact ⟨fun h => Bool.noConfusion (hterminal.symm.trans h), Nat.le_of_lt hlt⟩
      | false =>
        obtain ⟨hunended, hle⟩ := @ih _ hlt (onSseLine model parser (line ++ [sseNewline])).1 rest rfl
        exact ⟨hunended, Nat.le_trans hle (Nat.le_of_lt hlt)⟩
    · rw [dispatchLines_unended hmem]
      exact ⟨fun _ => hmem, Nat.le_of_eq hn⟩

/-- What the bytes yield where the limit is not in the way. -/
def wholeStream (model : String) (parser : AnthropicStreamParser) (bytes : List UInt8) : List StreamDelta :=
  (dispatchLines model parser bytes).deltas ++ streamLines model (dispatchLines model parser bytes).parser [] []

/-- **Where all bytes fit in the buffer, the chunks do not matter.** -/
theorem streamLines_whole {chunks : List (Piece UInt8)} {buffer : List UInt8} (hrunning : parser.terminal = false)
    (hbuffer : sseNewline ∉ buffer) (hfits : buffer.length + (joined chunks).length ≤ maxSseBufferBytes) :
    streamLines model parser buffer chunks = wholeStream model parser (buffer ++ joined chunks) := by
  induction chunks generalizing parser buffer with
  | nil =>
    rw [show joined [] = ([] : List UInt8) from rfl, List.append_nil, wholeStream, dispatchLines_unended hbuffer]
    rfl
  | cons chunk chunks ih =>
    rw [joined_cons, List.length_append] at hfits
    have happend : appendSseChunk buffer chunk.1 = some (buffer ++ chunk.1) := by
      unfold appendSseChunk
      rw [if_neg (by omega)]
    have hstep : streamLines model parser buffer (chunk :: chunks) =
        if (dispatchLines model parser (buffer ++ chunk.1)).parser.terminal then
          (dispatchLines model parser (buffer ++ chunk.1)).deltas
        else (dispatchLines model parser (buffer ++ chunk.1)).deltas ++
          streamLines model (dispatchLines model parser (buffer ++ chunk.1)).parser
            (dispatchLines model parser (buffer ++ chunk.1)).buffer chunks := by
      rw [streamLines, happend]
    rw [joined_cons, ← List.append_assoc, wholeStream, dispatchLines_append _ _ hrunning, hstep]
    obtain ⟨hunended, hle⟩ := @dispatchLines_buffer _ model parser (buffer ++ chunk.1)
    cases hterminal : (dispatchLines model parser (buffer ++ chunk.1)).parser.terminal with
    | true =>
      rw [if_pos rfl, if_pos rfl]
      simp [streamLines, hterminal]
    | false =>
      rw [if_neg Bool.false_ne_true, if_neg Bool.false_ne_true, ih hterminal (hunended hterminal), wholeStream,
        List.append_assoc]
      rw [List.length_append] at hle
      omega

/-! ### The limit -/

theorem unlimited_onSseLine (line : List UInt8) : Unlimited (onSseLine model parser line).2 := by
  unfold onSseLine
  split
  · exact unlimited_nil
  · dsimp only
    split
    · exact unlimited_nil
    · split
      · exact unlimited_pushEvent _
      · exact unlimited_terminateWithError true (by decide +kernel)

theorem unlimited_dispatchLines (buffer : List UInt8) : Unlimited (dispatchLines model parser buffer).deltas := by
  generalize hn : buffer.length = n
  induction n using Nat.strongRecOn generalizing parser buffer with
  | ind n ih =>
    by_cases hmem : sseNewline ∈ buffer
    · obtain ⟨line, rest, rfl, hline⟩ := exists_ended hmem
      rw [dispatchLines_ended hline]
      split
      · exact unlimited_onSseLine _
      · refine unlimited_append (unlimited_onSseLine _) (ih rest.length ?_ rest rfl)
        rw [← hn, List.length_append, List.length_cons]
        omega
    · rw [dispatchLines_unended hmem]
      exact unlimited_nil

/-- Bytes that are not limited do not yield the error. -/
theorem unlimited_wholeStream (bytes : List UInt8) : Unlimited (wholeStream model parser bytes) := by
  refine unlimited_append (unlimited_dispatchLines bytes) ?_
  unfold streamLines
  split
  · exact unlimited_nil
  · exact unlimited_terminateWithError true (by decide +kernel)

/-- Complete lines that yield nothing, and leave nothing to report. -/
inductive Silent (model : String) : AnthropicStreamParser → List UInt8 → Prop where
  | nil {parser : AnthropicStreamParser} (reports : ReportsNothing parser) : Silent model parser []
  | line {parser : AnthropicStreamParser} {line rest : List UInt8} (reports : ReportsNothing parser)
    (unbroken : sseNewline ∉ line) (running : (onSseLine model parser (line ++ [sseNewline])).1.terminal = false)
    (yields : (onSseLine model parser (line ++ [sseNewline])).2 = [])
    (silent : Silent model (onSseLine model parser (line ++ [sseNewline])).1 rest) :
    Silent model parser (line ++ sseNewline :: rest)

/-- Behind silent lines there is one that does not fit in the buffer with its end. -/
def Overlong (model : String) (parser : AnthropicStreamParser) (bytes : List UInt8) : Prop :=
  ∃ before line rest, bytes = before ++ line ++ rest ∧ Silent model parser before ∧ sseNewline ∉ line ∧
    line.length = maxSseBufferBytes ∧ rest ≠ []

variable {bytes : List UInt8}

theorem Silent.reports (h : Silent model parser bytes) : ReportsNothing parser := by
  cases h with
  | nil reports => exact reports
  | line reports => exact reports

/-- What is dispatched of silent lines: nothing is yielded, and the lines that are left are silent. -/
theorem Silent.dispatch {before line rest buffer more : List UInt8} (h : Silent model parser before)
    (hrunning : parser.terminal = false) (hline : sseNewline ∉ line) (hlength : line.length = maxSseBufferBytes)
    (hbuffer : buffer.length ≤ maxSseBufferBytes) (heq : buffer ++ more = before ++ line ++ rest) :
    (dispatchLines model parser buffer).deltas = [] ∧ (dispatchLines model parser buffer).parser.terminal = false ∧
      ∃ before', Silent model (dispatchLines model parser buffer).parser before' ∧
        (dispatchLines model parser buffer).buffer ++ more = before' ++ line ++ rest := by
  induction h generalizing buffer with
  | @nil parser reports =>
    have hmem : sseNewline ∉ buffer := by
      have hfront : buffer <+: line := by
        refine List.prefix_of_prefix_length_le ⟨more, heq⟩ (List.prefix_append line rest) ?_
        rw [hlength]
        exact hbuffer
      exact fun hmem => hline (hfront.subset hmem)
    rw [dispatchLines_unended hmem]
    exact ⟨rfl, hrunning, [], .nil reports, heq⟩
  | @line parser first lines reports unbroken running yields silent ih =>
    by_cases hmem : sseNewline ∈ buffer
    · obtain ⟨first', lines', rfl, hfirst'⟩ := exists_ended hmem
      rw [List.append_assoc, List.append_assoc, List.append_assoc, List.cons_append, List.cons_append] at heq
      obtain ⟨rfl, hrest⟩ := ended_inj hfirst' unbroken heq
      rw [List.length_append, List.length_cons] at hbuffer
      obtain ⟨hdeltas, hterminal, hleft⟩ := @ih lines' running (by omega) (by rw [hrest, List.append_assoc])
      rw [dispatchLines_ended hfirst', running, if_neg Bool.false_ne_true]
      refine ⟨?_, hterminal, hleft⟩
      rw [yields, hdeltas]
      rfl
    · rw [dispatchLines_unended hmem]
      exact ⟨rfl, hrunning, _, .line reports unbroken running yields silent, heq⟩

/-- **Behind silent lines a line that is too long ends the stream**, however the bytes are cut. -/
theorem streamLines_overlong {chunks : List (Piece UInt8)} {before line rest buffer : List UInt8}
    (h : Silent model parser before) (hrunning : parser.terminal = false) (hline : sseNewline ∉ line)
    (hlength : line.length = maxSseBufferBytes) (hrest : rest ≠ []) (hbuffer : buffer.length ≤ maxSseBufferBytes)
    (heq : buffer ++ joined chunks = before ++ line ++ rest) :
    streamLines model parser buffer chunks = [streamFailure "anthropic" model .protocol limitMessage] := by
  induction chunks generalizing parser before buffer with
  | nil =>
    have hlengths := congrArg List.length heq
    have hpos := List.length_pos_iff.mpr hrest
    rw [show joined [] = ([] : List UInt8) from rfl, List.append_nil, List.length_append, List.length_append] at hlengths
    omega
  | cons chunk chunks ih =>
    rw [streamLines]
    unfold appendSseChunk
    by_cases hfits : maxSseBufferBytes - buffer.length < chunk.1.length
    · rw [if_pos hfits]
      exact terminate_of_reportsNothing h.reports _
    · rw [if_neg hfits]
      rw [joined_cons, ← List.append_assoc] at heq
      have hsmall : (buffer ++ chunk.1).length ≤ maxSseBufferBytes := by
        rw [List.length_append]
        omega
      obtain ⟨hdeltas, hterminal, before', hsilent, hleft⟩ := h.dispatch hrunning hline hlength hsmall heq
      dsimp only
      rw [hterminal, if_neg Bool.false_ne_true, hdeltas, List.nil_append]
      exact ih hsilent hterminal (Nat.le_trans (dispatchLines_buffer _).2 hsmall) hleft

/-- A line alone in a chunk. -/
theorem streamLines_line {line : List UInt8} (hline : sseNewline ∉ line) (hfits : line.length < maxSseBufferBytes)
    (chunks : List (Piece UInt8)) :
    streamLines model parser [] (⟨line ++ [sseNewline], by simp⟩ :: chunks) =
      if (onSseLine model parser (line ++ [sseNewline])).1.terminal then (onSseLine model parser (line ++ [sseNewline])).2
      else (onSseLine model parser (line ++ [sseNewline])).2 ++
        streamLines model (onSseLine model parser (line ++ [sseNewline])).1 [] chunks := by
  have happend : appendSseChunk [] (line ++ [sseNewline]) = some (line ++ [sseNewline]) := by
    unfold appendSseChunk
    rw [if_neg]
    · rfl
    · rw [List.length_append, List.length_singleton, List.length_nil]
      omega
  have hended := @dispatchLines_ended _ model parser line [] hline
  rw [streamLines]
  dsimp only
  rw [happend]
  dsimp only
  rw [hended]
  cases hterminal : (onSseLine model parser (line ++ [sseNewline])).1.terminal with
  | true => simp [hterminal]
  | false =>
    rw [if_neg Bool.false_ne_true, if_neg Bool.false_ne_true, dispatchLines_unended List.not_mem_nil]
    simp [hterminal]

/-- Bytes that end with the error of the limit however they are cut. -/
theorem overlong_of_limited (hrunning : parser.terminal = false)
    (hlong : maxSseBufferBytes < bytes.length)
    (h : ∀ chunks, joined chunks = bytes → IsLimited (streamLines model parser [] chunks)) :
    Overlong model parser bytes := by
  -- By induction on the number of bytes: the first line, alone in its chunk, is silent, or it is too long.
  generalize hn : bytes.length = n
  induction n using Nat.strongRecOn generalizing parser bytes with
  | ind n ih =>
    have hreports : ReportsNothing parser := by
      have hne : bytes ≠ [] := List.ne_nil_of_length_pos (by omega)
      obtain ⟨delta, hdelta, -⟩ := h [⟨bytes, hne⟩] (List.append_nil _)
      have happend : appendSseChunk [] bytes = none := if_pos (by rw [List.length_nil]; omega)
      rw [streamLines] at hdelta
      dsimp only at hdelta
      rw [happend] at hdelta
      have hlength := congrArg List.length hdelta
      unfold AnthropicStreamParser.terminateWithError at hlength
      simp only [List.length_append, List.length_singleton] at hlength
      constructor
      · by_contra hmetadata
        have : parser.metadata.isEmpty = false := by simpa using hmetadata
        simp [this] at hlength
      · by_contra husage
        simp [husage] at hlength
    by_cases hmem : sseNewline ∈ bytes.take maxSseBufferBytes
    · obtain ⟨line, rest, hcut, hline⟩ := exists_ended hmem
      have hbytes : bytes = line ++ sseNewline :: (rest ++ bytes.drop maxSseBufferBytes) := by
        rw [← List.cons_append, ← List.append_assoc, ← hcut, List.take_append_drop]
      generalize rest ++ bytes.drop maxSseBufferBytes = later at hbytes
      have hfits : line.length < maxSseBufferBytes := by
        have := congrArg List.length hcut
        rw [List.length_append, List.length_cons, List.length_take] at this
        omega
      have hlater : later.length < n := by
        rw [← hn, hbytes, List.length_append, List.length_cons]
        omega
      have hrest (chunks : List (Piece UInt8)) (hchunks : joined chunks = later) :=
        h (⟨line ++ [sseNewline], by simp⟩ :: chunks) (by
          rw [joined_cons, hchunks, hbytes, List.append_assoc]
          rfl)
      simp only [streamLines_line hline hfits] at hrest
      have hunlimited := @unlimited_onSseLine _ model parser (line ++ [sseNewline])
      cases hterminal : (onSseLine model parser (line ++ [sseNewline])).1.terminal with
      | true =>
        obtain ⟨chunks, hchunks⟩ := exists_joined later
        have hlimited := hrest chunks hchunks
        rw [hterminal, if_pos rfl] at hlimited
        exact absurd hlimited (not_isLimited hunlimited)
      | false =>
        simp only [hterminal, Bool.false_eq_true, if_false] at hrest
        have hyields : (onSseLine model parser (line ++ [sseNewline])).2 = [] := by
          obtain ⟨chunks, hchunks⟩ := exists_joined later
          obtain ⟨delta, hdelta, hlimit⟩ := hrest chunks hchunks
          rcases List.append_eq_singleton_iff.mp hdelta with ⟨hnil, -⟩ | ⟨hsingle, -⟩
          · exact hnil
          · exact absurd ⟨delta, hsingle, hlimit⟩ (not_isLimited hunlimited)
        simp only [hyields, List.nil_append] at hrest
        have hlaterLong : maxSseBufferBytes < later.length := by
          by_contra hshort
          obtain ⟨chunks, hchunks⟩ := exists_joined later
          have hlimited := hrest chunks hchunks
          rw [streamLines_whole hterminal List.not_mem_nil (by rw [hchunks, List.length_nil]; omega)] at hlimited
          exact not_isLimited (unlimited_wholeStream _) hlimited
        obtain ⟨before, long, after, rfl, hsilent, hlongLine, hlength, hafter⟩ :=
          ih later.length hlater hterminal hlaterLong hrest rfl
        refine ⟨line ++ sseNewline :: before, long, after, ?_, .line hreports hline hterminal hyields hsilent, hlongLine,
          hlength, hafter⟩
        rw [hbytes]
        simp
    · refine ⟨[], bytes.take maxSseBufferBytes, bytes.drop maxSseBufferBytes, ?_, .nil hreports, hmem, ?_, ?_⟩
      · rw [List.nil_append, List.take_append_drop]
      · rw [List.length_take]
        omega
      · exact List.ne_nil_of_length_pos (by rw [List.length_drop]; omega)

/-! ### Chunks -/

/-- **When the chunks do not matter**: the bytes fit in the buffer, or their first lines are silent and the next is too
long for it. -/
theorem chunks_agree_iff (model : String) (bytes : List UInt8) :
    (∀ chunks chunks', joined chunks = bytes → joined chunks' = bytes →
        anthropicStream model chunks = anthropicStream model chunks') ↔
      bytes.length ≤ maxSseBufferBytes ∨ Overlong model .new bytes := by
  constructor
  · intro h
    by_cases hfits : bytes.length ≤ maxSseBufferBytes
    · exact .inl hfits
    · right
      have hne : bytes ≠ [] := List.ne_nil_of_length_pos (by omega)
      -- In one chunk the bytes do not fit.
      have hwhole : streamLines model .new [] [⟨bytes, hne⟩] =
          [streamFailure "anthropic" model .protocol limitMessage] := by
        have happend : appendSseChunk [] bytes = none := if_pos (by rw [List.length_nil]; omega)
        rw [streamLines]
        dsimp only
        rw [happend]
        rfl
      refine overlong_of_limited rfl (Nat.lt_of_not_le hfits) fun chunks hchunks => ?_
      have hagree := h chunks [⟨bytes, hne⟩] hchunks (List.append_nil _)
      unfold anthropicStream at hagree
      rw [hwhole] at hagree
      exact isLimited_of_context hagree
  · rintro (hfits | ⟨before, line, rest, rfl, hsilent, hline, hlength, hrest⟩) chunks chunks' hchunks hchunks'
    · unfold anthropicStream
      rw [streamLines_whole rfl List.not_mem_nil (by rw [hchunks, List.length_nil]; omega),
        streamLines_whole rfl List.not_mem_nil (by rw [hchunks', List.length_nil]; omega), hchunks, hchunks']
    · unfold anthropicStream
      rw [streamLines_overlong hsilent rfl hline hlength hrest (Nat.zero_le _) hchunks,
        streamLines_overlong hsilent rfl hline hlength hrest (Nat.zero_le _) hchunks']

end

/-- A long line, and empty lines that are written at once behind it: their chunk does not fit in the buffer, although
each line does. -/
theorem chunks_disagree : ¬ ∀ (json : JsonText) (model : String) (bytes : List UInt8) (chunks chunks' : List (Piece UInt8)),
    joined chunks = bytes → joined chunks' = bytes →
      @anthropicStream json model chunks = @anthropicStream json model chunks' := by
  intro h
  let json : JsonText := ⟨fun _ => none⟩
  obtain ⟨line, hletters⟩ : ∃ line, line = List.replicate 1048500 (0x78 : UInt8) := ⟨_, rfl⟩
  obtain ⟨blank, hblank⟩ : ∃ blank, blank = List.replicate 2999 sseNewline := ⟨_, rfl⟩
  have hline : sseNewline ∉ line := by
    rw [hletters]
    exact fun hmem => absurd (List.eq_of_mem_replicate hmem) (by decide)
  have hlong : line.length = 1048500 := by rw [hletters, List.length_replicate]
  have hmany : blank.length = 2999 := by rw [hblank, List.length_replicate]
  have hlineFits : line.length < maxSseBufferBytes := by
    rw [hlong]
    decide
  have hne : line ≠ [] := List.ne_nil_of_length_pos (by rw [hlong]; decide)
  have hblank_ne : blank ≠ [] := List.ne_nil_of_length_pos (by rw [hmany]; decide)
  have hone : joined [⟨line, hne⟩, ⟨sseNewline :: blank, List.cons_ne_nil _ _⟩] = line ++ sseNewline :: blank := by
    rw [joined_cons, joined_cons]
    exact congrArg (line ++ ·) (List.append_nil _)
  have htwo : joined [⟨line ++ [sseNewline], by simp⟩, ⟨blank, hblank_ne⟩] = line ++ sseNewline :: blank := by
    rw [joined_cons, joined_cons]
    simp [joined]
  have hagree := h json "claude" _ _ _ hone htwo
  unfold anthropicStream at hagree
  have hrefused : @streamLines json "claude" .new [] [⟨line, hne⟩, ⟨sseNewline :: blank, List.cons_ne_nil _ _⟩] =
      [streamFailure "anthropic" "claude" .protocol limitMessage] := by
    have hfirst : appendSseChunk [] line = some line := if_neg (by rw [List.length_nil]; omega)
    have hsecond : appendSseChunk line (sseNewline :: blank) = none := by
      refine if_pos ?_
      rw [hlong, List.length_cons, hmany]
      decide
    rw [streamLines]
    dsimp only
    rw [hfirst]
    dsimp only
    rw [@dispatchLines_unended json "claude" .new line hline, streamLines]
    dsimp only
    rw [hsecond]
    rfl
  have hread : Unlimited
      (@streamLines json "claude" .new [] [⟨line ++ [sseNewline], by simp⟩, ⟨blank, hblank_ne⟩]) := by
    rw [@streamLines_line json "claude" .new line hline hlineFits]
    have hdeltas := @unlimited_onSseLine json "claude" .new (line ++ [sseNewline])
    split
    · exact hdeltas
    · next hrunning =>
      refine unlimited_append hdeltas ?_
      rw [@streamLines_whole json "claude" _ _ _ (Bool.not_eq_true _ ▸ hrunning) List.not_mem_nil
        (by rw [joined_cons]; simp [joined, hmany, maxSseBufferBytes])]
      exact @unlimited_wholeStream json _ _ _
  rw [hrefused] at hagree
  exact not_isLimited hread (isLimited_of_context hagree.symm)

end AikitRuntime.Providers
