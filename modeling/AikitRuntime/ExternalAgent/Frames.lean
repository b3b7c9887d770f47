import AikitRuntime.ExternalAgent.JsonRpc

/-!
# The reader of a connection

What `read_bounded_line` returns depends on the bytes that are left, and not on the pieces they come in: it is the
bytes up to the next newline, where these fit in a frame. So the reader of a connection takes the same lines from a
stream however it is cut.
-/

namespace AikitRuntime.ExternalAgent

open Library Durability

/-! ### One line -/

theorem joined_consume (count : Nat) (available : Piece UInt8) (pieces : List (Piece UInt8)) :
    joined (consume count available pieces) = available.1.drop count ++ joined pieces := by
  unfold consume
  split
  · rfl
  · next h => rw [Decidable.not_not.mp h, List.nil_append]

/-- What is read of a line that ends. -/
structure Ends (failure : Option String) (line : List UInt8) (pieces : List (Piece UInt8)) (text rest : List UInt8) :
    Prop where
  fits : line.length + text.length ≤ maxAgentRpcFrameBytes →
    (readBoundedLine failure line pieces).result = .ok true ∧
      (readBoundedLine failure line pieces).line = line ++ text ∧
      joined (readBoundedLine failure line pieces).left = rest
  exceeds : maxAgentRpcFrameBytes < line.length + text.length →
    (readBoundedLine failure line pieces).result = .error frameExceeded

variable {pieces : List (Piece UInt8)}

theorem readBoundedLine_ends (failure : Option String) (line : List UInt8)
    {text rest : List UInt8}
    (hjoined : joined pieces = text ++ newline :: rest) (htext : newline ∉ text) :
    Ends failure line pieces text rest := by
  induction pieces generalizing line text with
  | nil =>
    have : ([] : List UInt8) = text ++ newline :: rest := hjoined
    simp at this
  | cons available pieces ih =>
    rw [joined_cons] at hjoined
    by_cases hmem : newline ∈ available.1
    · -- The line ends in this piece.
      obtain ⟨before, after, hcut, hbefore⟩ := exists_ended hmem
      rw [hcut, List.append_assoc, List.cons_append] at hjoined
      obtain ⟨rfl, rfl⟩ := ended_inj hbefore htext hjoined
      have hfind : available.1.findIdx? (· == newline) = some before.length := by
        rw [hcut, findIdx?_ended _ hbefore]
      constructor
      · intro hfits
        unfold readBoundedLine
        simp only [hfind, Option.getD_some, Nat.not_lt.mpr hfits, if_false, joined_consume]
        refine ⟨trivial, by rw [hcut, List.take_left], ?_⟩
        rw [hcut, ← List.drop_drop, List.drop_left]
        rfl
      · intro hexceeds
        unfold readBoundedLine
        simp only [hfind, Option.getD_some, hexceeds, if_true]
    · -- All of this piece is in the line.
      have hfind := findIdx?_unended hmem
      obtain ⟨more, rfl, hmore⟩ : ∃ more, text = available.1 ++ more ∧ joined pieces = more ++ newline :: rest := by
        rcases List.append_eq_append_iff.mp hjoined with ⟨more, htext, hrest⟩ | ⟨more, havailable, hrest⟩
        · exact ⟨more, htext, hrest⟩
        · cases more with
          | nil => exact ⟨[], by rw [havailable]; simp, by simpa using hrest.symm⟩
          | cons b more =>
            rw [List.cons_append] at hrest
            refine absurd ?_ hmem
            rw [havailable, ← (List.cons.inj hrest).1]
            simp
      have hstep : ¬ maxAgentRpcFrameBytes < line.length + available.1.length →
          readBoundedLine failure line (available :: pieces) =
            readBoundedLine failure (line ++ available.1) pieces := by
        intro hsmall
        rw [readBoundedLine]
        simp only [hfind, Option.getD_none, hsmall, if_false, List.take_length]
      have hrest := @ih (line ++ available.1) more hmore fun h => htext (List.mem_append_right _ h)
      have hlength : line.length + (available.1 ++ more).length = (line ++ available.1).length + more.length := by
        simp only [List.length_append]
        omega
      constructor
      · intro hfits
        rw [hstep (by simp only [List.length_append] at hfits; omega), ← List.append_assoc]
        exact hrest.fits (hlength ▸ hfits)
      · intro hexceeds
        by_cases hsmall : maxAgentRpcFrameBytes < line.length + available.1.length
        · unfold readBoundedLine
          simp only [hfind, Option.getD_none, hsmall, if_true]
        · rw [hstep hsmall]
          exact hrest.exceeds (hlength ▸ hexceeds)

variable {failure : Option String}

/-- What is read where no line ends, and what is left fits. -/
theorem readBoundedLine_unended {line : List UInt8}
    (h : newline ∉ joined pieces) (hfits : line.length + (joined pieces).length ≤ maxAgentRpcFrameBytes) :
    readBoundedLine failure line pieces =
      ⟨failure.elim (.ok !(line ++ joined pieces).isEmpty) .error, line ++ joined pieces, []⟩ := by
  induction pieces generalizing line with
  | nil =>
    rw [show joined [] = [] from rfl, List.append_nil]
    cases failure <;> rfl
  | cons available pieces ih =>
    rw [joined_cons] at h hfits ⊢
    rw [List.length_append] at hfits
    have hsmall : ¬ maxAgentRpcFrameBytes < line.length + available.1.length := by omega
    rw [readBoundedLine]
    simp only [findIdx?_unended fun hmem => h (List.mem_append_left _ hmem), Option.getD_none, hsmall, if_false,
      List.take_length]
    rw [ih (fun hmem => h (List.mem_append_right _ hmem)) (by rw [List.length_append]; omega), List.append_assoc]

/-- What is read where no line ends, and what is left does not fit. -/
theorem readBoundedLine_unended_exceeds {line : List UInt8}
    (h : newline ∉ joined pieces) (hline : line.length ≤ maxAgentRpcFrameBytes)
    (hexceeds : maxAgentRpcFrameBytes < line.length + (joined pieces).length) :
    (readBoundedLine failure line pieces).result = .error frameExceeded := by
  induction pieces generalizing line with
  | nil =>
    rw [show joined [] = [] from rfl] at hexceeds
    exact absurd hexceeds (by simpa using hline)
  | cons available pieces ih =>
    rw [joined_cons] at h hexceeds
    rw [List.length_append] at hexceeds
    have hfind := findIdx?_unended fun hmem => h (List.mem_append_left _ hmem)
    by_cases hsmall : maxAgentRpcFrameBytes < line.length + available.1.length
    · unfold readBoundedLine
      simp only [hfind, Option.getD_none, hsmall, if_true]
    · rw [readBoundedLine]
      simp only [hfind, Option.getD_none, hsmall, if_false, List.take_length]
      refine ih (fun hmem => h (List.mem_append_right _ hmem)) ?_ ?_
      · rw [List.length_append]
        omega
      · rw [List.length_append]
        omega

/-- A line that was taken is gone. -/
theorem left_lt
    (h : (readBoundedLine failure [] pieces).result = .ok true) :
    (joined (readBoundedLine failure [] pieces).left).length < (joined pieces).length := by
  by_cases hmem : newline ∈ joined pieces
  · obtain ⟨text, rest, hjoined, htext⟩ := exists_ended hmem
    have hends := readBoundedLine_ends failure [] hjoined htext
    by_cases hfits : ([] : List UInt8).length + text.length ≤ maxAgentRpcFrameBytes
    · rw [(hends.fits hfits).2.2, hjoined, List.length_append, List.length_cons]
      omega
    · rw [hends.exceeds (Nat.lt_of_not_le hfits)] at h
      cases h
  · by_cases hfits : ([] : List UInt8).length + (joined pieces).length ≤ maxAgentRpcFrameBytes
    · rw [readBoundedLine_unended hmem hfits] at h ⊢
      refine List.length_pos_of_ne_nil fun hnil => ?_
      rw [hnil] at h
      cases failure <;> simp at h
    · rw [readBoundedLine_unended_exceeds hmem (Nat.zero_le _) (Nat.lt_of_not_le hfits)] at h
      cases h

/-! ### The loop -/

/-- What the reader took, what it dispatched, and why it stopped. -/
structure RpcRead where
  lines : List (List UInt8)
  dispatched : List Value
  reason : String
  deriving DecidableEq

/-- A line, and nothing else yet. -/
def RpcRead.cons (line : List UInt8) (messages : List Value) (read : RpcRead) : RpcRead where
  lines := line :: read.lines
  dispatched := messages ++ read.dispatched
  reason := read.reason

variable [JsonWire]

/-- `run_rpc_reader`. -/
def runRpcReader (failure : Option String) (pieces : List (Piece UInt8)) : RpcRead :=
  match _hresult : (readBoundedLine failure [] pieces).result with
  | .error error => ⟨[], [], "external-agent RPC read failed: " ++ error⟩
  | .ok false => ⟨[], [], "external-agent RPC peer closed stdout"⟩
  | .ok true =>
    let line := (readBoundedLine failure [] pieces).line
    if line.isEmpty then (runRpcReader failure (readBoundedLine failure [] pieces).left).cons line []
    else
      match JsonWire.fromSlice line with
      | .error error => ⟨[line], [], "external-agent RPC emitted invalid JSON: " ++ error⟩
      | .ok message =>
        match dispatchOf message with
        | .error error => ⟨[line], [], error.message⟩
        | .ok _ => (runRpcReader failure (readBoundedLine failure [] pieces).left).cons line [message]
termination_by (joined pieces).length
decreasing_by all_goals exact left_lt _hresult

/-- What comes of a line that was taken. -/
def onLine (line : List UInt8) (rest : RpcRead) : RpcRead :=
  if line.isEmpty then rest.cons line []
  else
    match JsonWire.fromSlice line with
    | .error error => ⟨[line], [], "external-agent RPC emitted invalid JSON: " ++ error⟩
    | .ok message =>
      match dispatchOf message with
      | .error error => ⟨[line], [], error.message⟩
      | .ok _ => rest.cons line [message]

theorem runRpcReader_eq (failure : Option String) (pieces : List (Piece UInt8)) :
    runRpcReader failure pieces =
      match (readBoundedLine failure [] pieces).result with
      | .error error => ⟨[], [], "external-agent RPC read failed: " ++ error⟩
      | .ok false => ⟨[], [], "external-agent RPC peer closed stdout"⟩
      | .ok true => onLine (readBoundedLine failure [] pieces).line
          (runRpcReader failure (readBoundedLine failure [] pieces).left) := by
  rw [runRpcReader]
  split <;> simp_all [onLine]

/-- The reader, where a line ends. -/
theorem runRpcReader_ended (failure : Option String) {text rest : List UInt8}
    (hjoined : joined pieces = text ++ newline :: rest) (htext : newline ∉ text) :
    (text.length ≤ maxAgentRpcFrameBytes ∧ ∃ left, joined left = rest ∧
        runRpcReader failure pieces = onLine text (runRpcReader failure left)) ∨
      (maxAgentRpcFrameBytes < text.length ∧
        runRpcReader failure pieces = ⟨[], [], "external-agent RPC read failed: " ++ frameExceeded⟩) := by
  have hends := readBoundedLine_ends failure [] hjoined htext
  rw [runRpcReader_eq]
  by_cases hfits : text.length ≤ maxAgentRpcFrameBytes
  · obtain ⟨hresult, hline, hleft⟩ := hends.fits (by simpa using hfits)
    refine .inl ⟨hfits, _, hleft, ?_⟩
    rw [hresult, hline]
    rfl
  · refine .inr ⟨Nat.lt_of_not_le hfits, ?_⟩
    rw [hends.exceeds (by simpa using Nat.lt_of_not_le hfits)]

/-- **The reader takes the same from a stream however it is cut.** -/
theorem runRpcReader_congr {pieces' : List (Piece UInt8)}
    (h : joined pieces = joined pieces') : runRpcReader failure pieces = runRpcReader failure pieces' := by
  -- By induction on the number of bytes: each line that is taken leaves fewer of them.
  generalize hn : (joined pieces).length = n
  induction n using Nat.strongRecOn generalizing pieces pieces' with
  | ind n ih =>
    by_cases hmem : newline ∈ joined pieces
    · obtain ⟨text, rest, hjoined, htext⟩ := exists_ended hmem
      rcases runRpcReader_ended failure hjoined htext with ⟨hfits, left, hleft, heq⟩ | ⟨hexceeds, heq⟩
      · rcases runRpcReader_ended failure (h ▸ hjoined) htext with
          ⟨-, left', hleft', heq'⟩ | ⟨hexceeds, -⟩
        · rw [heq, heq', ih rest.length (by rw [← hn, hjoined, List.length_append, List.length_cons]; omega)
            (hleft.trans hleft'.symm) (by rw [hleft])]
        · exact absurd hfits (Nat.not_le.mpr hexceeds)
      · rcases runRpcReader_ended failure (h ▸ hjoined) htext with ⟨hfits, -⟩ | ⟨-, heq'⟩
        · exact absurd hfits (Nat.not_le.mpr hexceeds)
        · rw [heq, heq']
    · rw [runRpcReader_eq, runRpcReader_eq failure pieces']
      have hmem' : newline ∉ joined pieces' := h ▸ hmem
      by_cases hfits : ([] : List UInt8).length + (joined pieces).length ≤ maxAgentRpcFrameBytes
      · rw [readBoundedLine_unended hmem hfits, readBoundedLine_unended hmem' (h ▸ hfits), h]
      · have hexceeds := Nat.lt_of_not_le hfits
        rw [readBoundedLine_unended_exceeds hmem (Nat.zero_le _) hexceeds,
          readBoundedLine_unended_exceeds hmem' (Nat.zero_le _) (h ▸ hexceeds)]

/-! ### Frames -/

/-- A value that comes through: its text is a line of its own, fits in a frame, and is read back. -/
structure Travels (value : Value) : Prop where
  nonempty : JsonWire.toVec value ≠ []
  unbroken : newline ∉ JsonWire.toVec value
  readBack : JsonWire.fromSlice (JsonWire.toVec value) = .ok value
  fits : (JsonWire.toVec value).length ≤ maxAgentRpcFrameBytes

/-- The reader does not stop at the message. -/
def isDispatched (message : Value) : Bool := (dispatchOf message).isOk

/-- The messages before the first at which the reader stops. -/
def passed (values : List Value) : List Value := values.takeWhile isDispatched

/-- Why the reader stops after some messages. -/
def stopReason (failure : Option String) (values : List Value) : String :=
  match (values.drop (passed values).length).map dispatchOf with
  | .error error :: _ => error.message
  | _ => failure.elim "external-agent RPC peer closed stdout" ("external-agent RPC read failed: " ++ ·)

theorem runRpcReader_nil (failure : Option String) (h : joined pieces = []) :
    runRpcReader failure pieces =
      ⟨[], [], failure.elim "external-agent RPC peer closed stdout" ("external-agent RPC read failed: " ++ ·)⟩ := by
  rw [runRpcReader_eq, readBoundedLine_unended (by rw [h]; exact List.not_mem_nil) (by rw [h]; exact Nat.zero_le _), h]
  cases failure <;> rfl

theorem onLine_toVec {value : Value} (h : Travels value) (rest : RpcRead) :
    onLine (JsonWire.toVec value) rest =
      match dispatchOf value with
      | .error error => ⟨[JsonWire.toVec value], [], error.message⟩
      | .ok _ => rest.cons (JsonWire.toVec value) [value] := by
  unfold onLine
  rw [if_neg (by simpa using h.nonempty), h.readBack]

/-- **The frames of some values are read as these values**, up to the first that is not dispatched. -/
theorem runRpcReader_frames {failure : Option String} {values : List Value} {pieces : List (Piece UInt8)}
    (h : ∀ value ∈ values, Travels value) (hjoined : joined pieces = values.flatMap frameOf) :
    runRpcReader failure pieces =
      ⟨(values.take ((passed values).length + 1)).map JsonWire.toVec, passed values, stopReason failure values⟩ := by
  induction values generalizing pieces with
  | nil => exact runRpcReader_nil failure hjoined
  | cons value values ih =>
    have hvalue := h value List.mem_cons_self
    rw [List.flatMap_cons, frameOf, List.append_assoc] at hjoined
    rcases runRpcReader_ended failure hjoined hvalue.unbroken with ⟨-, left, hleft, heq⟩ | ⟨hexceeds, -⟩
    · rw [heq, onLine_toVec hvalue, ih (fun other hother => h other (List.mem_cons_of_mem _ hother)) hleft]
      cases hdispatch : dispatchOf value with
      | error error =>
        have hstops : isDispatched value = false := by rw [isDispatched, hdispatch]; rfl
        simp [passed, stopReason, hstops, hdispatch]
      | ok dispatch =>
        have hpasses : isDispatched value = true := by rw [isDispatched, hdispatch]; rfl
        simp [passed, stopReason, hpasses, RpcRead.cons]
    · exact absurd hvalue.fits (Nat.not_le.mpr hexceeds)

end AikitRuntime.ExternalAgent
