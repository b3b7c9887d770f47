import AikitRuntime.Durability.Canonical
import AikitRuntime.ExternalAgent.Requests

/-!
# Runs of a connection

What holds in every run of a connection: a request is answered by a response to it and once, and what is written are
the frames of the values that were queued. A map whose entries are the requests that are outstanding is kept by the
steps that leave nothing behind, and by no other.
-/

namespace AikitRuntime.ExternalAgent.Connection

open Library Durability Std

variable {s s' : Connection} {e : RpcEvent} {log : List RpcEvent} {dialect : JsonRpcDialect}

/-- The values that were handed to the writer: `send_value` accepted them. -/
def queuedValues (log : List RpcEvent) : List Value :=
  log.filterMap fun
    | .queued _ value => some value
    | _ => none

theorem queuedValues_append (log more : List RpcEvent) :
    queuedValues (log ++ more) = queuedValues log ++ queuedValues more := List.filterMap_append

/-- The frame that the writer is at. -/
def Writer.frame : Writer → List UInt8
  | .writing frame => frame
  | .idle | .failing | .gone => []

/-- The writer has not failed. -/
def IsWriting (s : Connection) : Prop := s.writer ≠ .failing ∧ s.writer ≠ .gone

/-- What is on its way to the agent, or waits for room. -/
def outbound (s : Connection) : List UInt8 × Writer × List (List UInt8) × List Value :=
  (s.written, s.writer, s.queue, s.offers)

theorem take_outbound (id : Int) (receiver : Receiver) : (s.take id receiver).outbound = s.outbound := by
  unfold Connection.take
  split <;> rfl

theorem begin_outbound (method : String) (params : Value) : (s.begin method params).outbound = s.outbound := by
  unfold Connection.begin
  split <;> rfl

theorem register_outbound (n : Nat) (call : Call) : (s.register n call).outbound = s.outbound := by
  unfold Connection.register
  split
  · rfl
  · split
    · rfl
    · exact take_outbound call.id .closed

theorem deliver_outbound (dispatch : Dispatch) : (s.deliver dispatch).outbound = s.outbound := by
  cases dispatch with
  | inbound event => rfl
  | response id response => exact take_outbound id _

theorem stop_outbound (reason : String) : (s.stop reason).outbound = s.outbound := by
  unfold Connection.stop
  split <;> rfl

theorem flatten_concat (written frame : List UInt8) (queue : List (List UInt8)) (added : List UInt8) :
    written ++ frame ++ (queue ++ [added]).flatten = written ++ frame ++ queue.flatten ++ added := by
  rw [List.flatten_append, List.flatten_singleton, List.append_assoc _ queue.flatten]

section

variable [JsonWire]

/-! ### Orderly runs -/

theorem isFull_of_queued {m : Nat} {value : Value} (room : s.HasRoom)
    (h : ((s.setPhase m .waiting).push (frameOf value)).IsFull) : s.queue.length + 1 = maxAgentRpcOutboundQueue := by
  have hlength : maxAgentRpcOutboundQueue ≤ (s.queue ++ [frameOf value]).length := h.1
  rw [List.length_append, List.length_singleton] at hlength
  have := room.1
  omega

/-- **An orderly step keeps the entries and the outstanding requests in agreement.** -/
theorem Tidy.step (hs : s.Tidy) (hstep : Step s e s') (horderly : s.IsOrderly e) : s'.Tidy where
  toKept := hs.toKept.step hstep
  live id n call hid hcall hdropped := by
    rcases hstep.pending hid with hid | ⟨other, hother, hregistered⟩
    · obtain ⟨before, hbefore, -⟩ := hs.listed id n hid
      obtain ⟨other, hother, hmoves⟩ := hs.moves hstep hbefore
      rw [hcall] at hother
      cases hother
      rcases hmoves.dropped hdropped with h | rfl
      · exact hs.live id n before hid hbefore h
      · exact horderly id hid
    · rw [hcall] at hother
      cases hother
      rw [hdropped] at hregistered
      cases hregistered
  roomy hstopped hfull n hsending := by
    have hbefore := hs.sending hstep hsending
    rcases hstep.full hstopped hfull with ⟨hstopped, hfull⟩ | rfl | ⟨caller, value, rfl⟩
    · exact hs.roomy hstopped hfull n (hbefore.resolve_right hstopped.1)
    · cases hstep with
      | drain draining =>
        have hne : s.stopped ≠ none := hs.stopping (by rw [draining]; nofun)
        exact horderly hfull n (hbefore.resolve_right hne)
    · cases hstep with
      | @queue m call _ calls phase room =>
        have hcaller := horderly hstopped (isFull_of_queued room hfull) n (hbefore.resolve_right hstopped.1)
        cases hcaller
        -- It has been handed its frame, and waits for its response.
        obtain ⟨other, other', hother, hphase⟩ := hsending
        replace hother : (s.setPhase n .waiting).calls n = some other := hother
        rw [setPhase_calls calls, Function.update_self] at hother
        cases hother
        cases hphase
      | queueOffer offered room =>
        have hlength : maxAgentRpcOutboundQueue ≤ (s.queue ++ [frameOf value]).length := hfull.1
        rw [List.length_append, List.length_singleton] at hlength
        have hroom := room.1
        exact nomatch horderly hstopped (by omega) n (hbefore.resolve_right hstopped.1)

/-- A step that is not orderly leaves an entry, or a request, behind. -/
theorem Kept.unsound (hs : s.Kept) (hstep : Step s e s') (horderly : ¬ s.IsOrderly e) : ¬ s'.Sound := by
  intro hsound
  cases hstep with
  | @drop n call calls awaits =>
    obtain ⟨id, hid⟩ := Classical.not_forall.mp horderly
    obtain ⟨other, hother, -, hout⟩ := hsound.entries id n (Classical.not_not.mp hid)
    rw [setPhase_calls calls, Function.update_self] at hother
    cases hother
    exact hout
  | @drain reason draining =>
    obtain ⟨hfull, hsome⟩ := Classical.not_imp.mp horderly
    obtain ⟨n, hn⟩ := Classical.not_forall.mp hsome
    obtain ⟨call, value, hcall, hphase⟩ := Classical.not_not.mp hn
    have hstopped : (s.drain reason).IsStopped := ⟨hs.stopping (by rw [draining]; nofun), rfl⟩
    refine hsound.settled hstopped n (.inr ⟨?_, hfull⟩)
    unfold IsSending Connection.drain
    dsimp only
    split
    · rw [hcall]
      exact ⟨_, value, rfl, hphase⟩
    · exact ⟨call, value, hcall, hphase⟩
  | @queue n call value calls phase room =>
    obtain ⟨hstopped, hrest⟩ := Classical.not_imp.mp horderly
    obtain ⟨hlength, hsome⟩ := Classical.not_imp.mp hrest
    obtain ⟨m, hm⟩ := Classical.not_forall.mp hsome
    obtain ⟨⟨other, other', hother, hphase⟩, hne⟩ := Classical.not_imp.mp hm
    refine hsound.settled hstopped m (.inr ⟨⟨other, other', ?_, hphase⟩, ?_, room.2⟩)
    · show (s.setPhase n .waiting).calls m = some other
      rw [setPhase_calls calls, Function.update_of_ne fun heq => hne (by rw [heq])]
      exact hother
    · show maxAgentRpcOutboundQueue ≤ (s.queue ++ [frameOf value]).length
      rw [List.length_append, List.length_singleton]
      exact Nat.le_of_eq hlength.symm
  | @queueOffer value offered room =>
    obtain ⟨hstopped, hrest⟩ := Classical.not_imp.mp horderly
    obtain ⟨hlength, hsome⟩ := Classical.not_imp.mp hrest
    obtain ⟨m, hm⟩ := Classical.not_forall.mp hsome
    obtain ⟨hsending, -⟩ := Classical.not_imp.mp hm
    refine hsound.settled hstopped m (.inr ⟨hsending, ?_, room.2⟩)
    show maxAgentRpcOutboundQueue ≤ (s.queue ++ [frameOf value]).length
    rw [List.length_append, List.length_singleton]
    exact Nat.le_of_eq hlength.symm
  | _ => exact horderly trivial

/-- An orderly step. -/
def OrderlyStep (s : Connection) (e : RpcEvent) (s' : Connection) : Prop := Step s e s' ∧ s.IsOrderly e

theorem tidy_along (h : Path OrderlyStep (start dialect) log s) : s.Tidy :=
  h.invariant (fun _ _ _ _ hstep hs => hs.step hstep.1 hstep.2) (.start dialect)

theorem kept_along (h : Path Step (start dialect) log s) : s.Kept :=
  h.invariant (fun _ _ _ _ hstep hs => hs.step hstep) (.start dialect)

/-! ### Outcomes -/

/-- A response to the request was dispatched. -/
def WasAnswered (log : List RpcEvent) (call : Call) (response : RpcResponse) : Prop :=
  ∃ message, .dispatched message ∈ log ∧ dispatchOf message = .ok (.response call.id response)

/-- Who was answered, or has the response in its channel, was sent it. -/
def Told (log : List RpcEvent) (s : Connection) : Prop :=
  ∀ n call response, s.calls n = some call →
    call.phase = .finished (.answered response) ∨ call.receiver = .sent (.ok response) → WasAnswered log call response

theorem Told.step (hs : s.Kept) (hstep : Step s e s') (h : Told log s) : Told (log ++ [e]) s' := by
  intro n call response hcall hgot
  cases hbefore : s.calls n with
  | none =>
    obtain ⟨hempty, hphase⟩ := hstep.origin hbefore hcall
    rcases hgot with hgot | hgot
    · rcases hphase with hphase | ⟨error, hphase⟩ <;> rw [hphase] at hgot <;> cases hgot
    · rw [hempty] at hgot
      cases hgot
  | some before =>
    obtain ⟨other, hother, hmoves⟩ := hs.moves hstep hbefore
    rw [hcall] at hother
    cases hother
    have hmono (hold : before.phase = .finished (.answered response) ∨ before.receiver = .sent (.ok response)) :
        WasAnswered (log ++ [e]) call response := by
      obtain ⟨message, hmem, hread⟩ := h n before response hbefore hold
      exact ⟨message, List.mem_append_left _ hmem, by rw [hmoves.id]; exact hread⟩
    rcases hgot with hgot | hgot
    · exact hmono (hmoves.answered response hgot)
    · rcases hmoves.received response hgot with hold | ⟨message, rfl, hread⟩
      · exact hmono (.inr hold)
      · exact ⟨message, List.mem_append_right _ List.mem_cons_self, by rw [hmoves.id]; exact hread⟩

theorem told_along (h : Path Step (start dialect) log s) : Told log s := by
  have hstart : Told [] (start dialect) := fun _ _ _ hcall => nomatch hcall
  have hboth : s.Kept ∧ Told log s :=
    @Path.invariant_log _ _ _ (fun log s => s.Kept ∧ Told log s) _ _ _ h ⟨.start dialect, hstart⟩
      fun log e a b hstep h => ⟨h.1.step hstep, h.2.step h.1 hstep⟩
  exact hboth.2

/-- An outcome is the only one. -/
theorem finished_along {n : Nat} {call : Call} {outcome : Outcome} (hs : s.Kept) (h : Path Step s log s')
    (hcall : s.calls n = some call) (hphase : call.phase = .finished outcome) :
    ∃ call', s'.calls n = some call' ∧ call'.phase = .finished outcome := by
  refine (h.invariant (P := fun s => s.Kept ∧ ∃ call, s.calls n = some call ∧ call.phase = .finished outcome)
    ?_ ⟨hs, call, hcall, hphase⟩).2
  rintro a e b - hstep ⟨ha, call, hcall, hphase⟩
  obtain ⟨call', hcall', hmoves⟩ := ha.moves hstep hcall
  exact ⟨ha.step hstep, call', hcall', hmoves.finished outcome hphase⟩

/-- **The requests of a connection.** In every run an outcome is the only one of its request, and a response that is
one carries the request's number. In a run of orderly steps the entries are outstanding requests and nobody is left
waiting after the stop; a step that is not orderly ends that. -/
theorem requests_settled :
    (∀ dialect log s, Path Step (start dialect) log s →
      (∀ n call response, s.calls n = some call → call.phase = .finished (.answered response) →
        WasAnswered log call response) ∧
      (∀ n call outcome more s', s.calls n = some call → call.phase = .finished outcome → Path Step s more s' →
        ∃ call', s'.calls n = some call' ∧ call'.phase = .finished outcome)) ∧
    (∀ dialect log s, Path OrderlyStep (start dialect) log s →
      s.Sound ∧ ∀ e s', Step s e s' → (s'.Sound ↔ s.IsOrderly e)) := by
  refine ⟨fun dialect log s h => ⟨fun n call response hcall hphase => ?_, ?_⟩, fun dialect log s h => ?_⟩
  · exact told_along h n call response hcall (.inl hphase)
  · exact fun n call outcome more s' hcall hphase hmore => finished_along (kept_along h) hmore hcall hphase
  · have hs := tidy_along h
    refine ⟨hs.sound, fun e s' hstep => ⟨fun hsound => ?_, fun horderly => (hs.step hstep horderly).sound⟩⟩
    by_contra horderly
    exact hs.unsound hstep horderly hsound

/-! ### What is written -/

/-- A value that `send_value` does not refuse for its size. -/
abbrev Fits (value : Value) : Prop := (JsonWire.toVec value).length ≤ maxAgentRpcFrameBytes

/-- The values that were handed over are written, or wait for it. -/
structure Carries (log : List RpcEvent) (s : Connection) : Prop where
  written : s.writer ≠ .failing → s.writer ≠ .gone →
    s.written ++ Writer.frame s.writer ++ s.queue.flatten = (queuedValues log).flatMap frameOf
  sending : ∀ n call value, s.calls n = some call → call.phase = .sending value → Fits value
  offers : ∀ value ∈ s.offers, Fits value
  queued : ∀ value ∈ queuedValues log, Fits value

theorem Carries.start (dialect : JsonRpcDialect) : Carries [] (start dialect) where
  written _ _ := rfl
  sending _ _ _ h := nomatch h
  offers _ h := nomatch h
  queued _ h := nomatch h

/-- What waits to be sent was checked. -/
theorem Carries.sending_step (h : Carries log s) (hs : s.Kept) (hstep : Step s e s') {n : Nat} {call : Call} {value : Value}
    (hcall : s'.calls n = some call) (hphase : call.phase = .sending value) : Fits value := by
  cases hbefore : s.calls n with
  | none =>
    obtain ⟨-, hnumbered | ⟨error, hfailed⟩⟩ := hstep.origin hbefore hcall
    · rw [hnumbered] at hphase
      cases hphase
    · rw [hfailed] at hphase
      cases hphase
  | some before =>
    obtain ⟨other, hother, hmoves⟩ := hs.moves hstep hbefore
    rw [hcall] at hother
    cases hother
    rcases hmoves.sending value hphase with hold | ⟨frame, hsend⟩
    · exact h.sending n before value hbefore hold
    · exact (sendValue_eq_ok.mp hsend).2.1

theorem check_outbound (n : Nat) (call : Call) : (s.check n call).outbound = s.outbound := by
  unfold Connection.check
  dsimp only
  split <;> rfl

/-- What a step does to what is on its way. -/
structure Sends (s : Connection) (e : RpcEvent) (s' : Connection) : Prop where
  writes : s'.IsWriting → s.IsWriting
  bytes : s'.IsWriting → s'.written ++ Writer.frame s'.writer ++ s'.queue.flatten =
    s.written ++ Writer.frame s.writer ++ s.queue.flatten ++ (queuedValues [e]).flatMap frameOf
  offers : ∀ value ∈ s'.offers, value ∈ s.offers ∨ Fits value
  queued : ∀ value ∈ queuedValues [e], value ∈ s.offers ∨ ∃ n call, s.calls n = some call ∧ call.phase = .sending value

theorem Sends.of_outbound (h : s'.outbound = s.outbound) (hnone : queuedValues [e] = []) : Sends s e s' := by
  obtain ⟨hwritten, hrest⟩ := Prod.mk.inj h
  obtain ⟨hwriter, hrest⟩ := Prod.mk.inj hrest
  obtain ⟨hqueue, hoffers⟩ := Prod.mk.inj hrest
  constructor
  · unfold IsWriting
    rw [hwriter]
    exact id
  · intro _
    rw [hwritten, hwriter, hqueue, hnone, List.flatMap_nil, List.append_nil]
  · intro value hvalue
    rw [hoffers] at hvalue
    exact .inl hvalue
  · intro value hvalue
    rw [hnone] at hvalue
    cases hvalue

/-- **What a step does to what is on its way.** -/
theorem Step.sends (hstep : Step s e s') : Sends s e s' := by
  cases hstep with
  | begin method params => exact .of_outbound (begin_outbound method params) rfl
  | register calls phase => exact .of_outbound (register_outbound _ _) rfl
  | check calls phase => exact .of_outbound (check_outbound _ _) rfl
  | @queue n call value calls phase room =>
    constructor
    · exact id
    · intro _
      refine (flatten_concat s.written _ s.queue (frameOf value)).trans (congrArg _ ?_)
      exact (List.append_nil _).symm
    · exact fun value hvalue => .inl hvalue
    · intro value' hvalue
      rw [List.mem_singleton.mp hvalue]
      exact .inr ⟨n, call, calls, phase⟩
  | @queueOffer value offered room =>
    constructor
    · exact id
    · intro _
      refine (flatten_concat s.written _ s.queue (frameOf value)).trans (congrArg _ ?_)
      exact (List.append_nil _).symm
    · exact fun value hvalue => .inl (List.mem_of_mem_erase hvalue)
    · intro value' hvalue
      rw [List.mem_singleton.mp hvalue]
      exact .inl offered
  | refuse | receive | expire | drop | drain => exact .of_outbound rfl rfl
  | @offer value frame sends =>
    refine { @Sends.of_outbound s s (.offered value) _ rfl rfl with offers := fun value' hvalue => ?_ }
    rcases List.mem_append.mp hvalue with h | h
    · exact .inl h
    · rw [List.mem_singleton.mp h]
      exact .inr (sendValue_eq_ok.mp sends).2.1
  | @withdrawOffer value offered =>
    exact { @Sends.of_outbound s s (.unoffered value) _ rfl rfl with
      offers := fun value' hvalue => .inl (List.mem_of_mem_erase hvalue) }
  | withdraw => exact .of_outbound (take_outbound _ _) rfl
  | dispatch read => exact .of_outbound (deliver_outbound _) rfl
  | stop reason => exact .of_outbound (stop_outbound reason) rfl
  | @take frame rest idle queue =>
    constructor
    · exact fun _ => ⟨by rw [idle]; nofun, by rw [idle]; nofun⟩
    · intro _
      rw [idle, queue]
      simp [Writer.frame, queuedValues]
    · exact fun value hvalue => .inl hvalue
    · nofun
  | @write frame writing =>
    constructor
    · exact fun _ => ⟨by rw [writing]; nofun, by rw [writing]; nofun⟩
    · intro _
      rw [writing]
      simp [Writer.frame, queuedValues]
    · exact fun value hvalue => .inl hvalue
    · nofun
  | failWrite count writing =>
    constructor
    · exact fun h => absurd rfl h.1
    · exact fun h => absurd rfl h.1
    · exact fun value hvalue => .inl hvalue
    · nofun
  | leave =>
    constructor
    · exact fun h => absurd rfl h.2
    · exact fun h => absurd rfl h.2
    · exact fun value hvalue => .inl hvalue
    · nofun

/-- **A step keeps what the connection carries.** -/
theorem Carries.step (h : Carries log s) (hs : s.Kept) (hstep : Step s e s') : Carries (log ++ [e]) s' := by
  have hsends := hstep.sends
  constructor
  · intro hfailing hgone
    obtain ⟨hfailing', hgone'⟩ := hsends.writes ⟨hfailing, hgone⟩
    rw [hsends.bytes ⟨hfailing, hgone⟩, h.written hfailing' hgone', queuedValues_append, List.flatMap_append]
  · exact fun n call value hcall hphase => h.sending_step hs hstep hcall hphase
  · exact fun value hvalue => (hsends.offers value hvalue).elim (h.offers value) id
  · intro value hvalue
    rw [queuedValues_append] at hvalue
    rcases List.mem_append.mp hvalue with hold | hnew
    · exact h.queued value hold
    · rcases hsends.queued value hnew with hoffer | ⟨n, call, hcall, hphase⟩
      · exact h.offers value hoffer
      · exact h.sending n call value hcall hphase

theorem carries_along (h : Path Step (start dialect) log s) : Carries log s := by
  have hboth : s.Kept ∧ Carries log s :=
    @Path.invariant_log _ _ _ (fun log s => s.Kept ∧ Carries log s) _ _ _ h ⟨.start dialect, .start dialect⟩
      fun log e a b hstep h => ⟨h.1.step hstep, h.2.step h.1 hstep⟩
  exact hboth.2

/-- **What the other side obtains.** Once everything that was queued is written, the reader on the other side obtains
the values in order, up to the first that it does not dispatch, however the bytes are cut. On any bytes the cutting does
not matter, and a line is taken if and only if it fits in a frame. -/
theorem frames_obtained :
    (∀ dialect log s, Path Step (start dialect) log s → s.writer = .idle → s.queue = [] →
      (∀ value ∈ queuedValues log, JsonWire.toVec value ≠ [] ∧ newline ∉ JsonWire.toVec value ∧
        JsonWire.fromSlice (JsonWire.toVec value) = .ok value) →
      ∀ failure pieces, joined pieces = s.written →
        runRpcReader failure pieces =
          ⟨((queuedValues log).take ((passed (queuedValues log)).length + 1)).map JsonWire.toVec,
            passed (queuedValues log), stopReason failure (queuedValues log)⟩) ∧
    (∀ failure pieces pieces', joined pieces = joined pieces' →
      runRpcReader failure pieces = runRpcReader failure pieces') ∧
    (∀ failure pieces text rest, newline ∉ text →
      joined pieces = text ++ newline :: rest ∨ (joined pieces = text ∧ text ≠ [] ∧ rest = [] ∧ failure = none) →
      (((readBoundedLine failure [] pieces).result = .ok true ∧ (readBoundedLine failure [] pieces).line = text ∧
          joined (readBoundedLine failure [] pieces).left = rest) ↔ text.length ≤ maxAgentRpcFrameBytes) ∧
        (maxAgentRpcFrameBytes < text.length →
          (readBoundedLine failure [] pieces).result = .error frameExceeded)) := by
  refine ⟨fun dialect log s h hidle hqueue hlines failure pieces hjoined => ?_,
    fun failure pieces pieces' => runRpcReader_congr, fun failure pieces text rest htext hjoined => ?_⟩
  · have hcarries := carries_along h
    refine runRpcReader_frames (fun value hvalue => ?_) ?_
    · obtain ⟨hnonempty, hunbroken, hread⟩ := hlines value hvalue
      exact ⟨hnonempty, hunbroken, hread, hcarries.queued value hvalue⟩
    · have hwritten := hcarries.written (by rw [hidle]; nofun) (by rw [hidle]; nofun)
      rw [hidle, hqueue] at hwritten
      rw [hjoined, ← hwritten]
      simp [Writer.frame]
  · -- Whether it ends or not, the line is taken or exceeds the limit.
    have hboth : (text.length ≤ maxAgentRpcFrameBytes → (readBoundedLine failure [] pieces).result = .ok true ∧
        (readBoundedLine failure [] pieces).line = text ∧ joined (readBoundedLine failure [] pieces).left = rest) ∧
        (maxAgentRpcFrameBytes < text.length → (readBoundedLine failure [] pieces).result = .error frameExceeded) := by
      rcases hjoined with hjoined | ⟨hjoined, hnonempty, rfl, rfl⟩
      · have hends := readBoundedLine_ends failure [] hjoined htext
        exact ⟨fun h => hends.fits (by simpa using h), fun h => hends.exceeds (by simpa using h)⟩
      · rw [← hjoined] at htext hnonempty ⊢
        refine ⟨fun h => ?_, fun h => ?_⟩
        · rw [readBoundedLine_unended htext (by simpa using h)]
          refine ⟨?_, List.nil_append _, rfl⟩
          simpa using hnonempty
        · exact readBoundedLine_unended_exceeds htext (Nat.zero_le _) (by simpa using h)
    refine ⟨⟨fun htaken => ?_, hboth.1⟩, hboth.2⟩
    by_contra hexceeds
    rw [hboth.2 (Nat.lt_of_not_le hexceeds)] at htaken
    cases htaken.1

end

/-! ### A run -/

/-- What `notify` sends. -/
def notification (dialect : JsonRpcDialect) (method : String) (params : Value) : Value :=
  message dialect (Value.ofFields [("method", .string method), ("params", params)])

/-- What `respond_result` sends. -/
def resultResponse (dialect : JsonRpcDialect) (id result : Value) : Value :=
  message dialect (Value.ofFields [("id", id), ("result", result)])

def pinged : Value := notification .standard "ping" .null

/-- A response to a request that the peer gave a text as its id. -/
def answered : Value := resultResponse .standard (.string "a") (.bool true)

/-- Texts of these values, as `serde_json` writes and reads them. -/
@[reducible] def sampleWire : JsonWire where
  toVec value := utf8 (canonicalJson value)
  fromSlice bytes := okOr ([pinged, answered].find? fun value => utf8 (canonicalJson value) = bytes)
    "expected value at line 1 column 1"

theorem sampleWire_travels {value : Value} (h : value = pinged ∨ value = answered) : @Travels sampleWire value := by
  rcases h with rfl | rfl <;>
    exact @Travels.mk sampleWire _ (by decide +kernel) (by decide +kernel) (by decide +kernel) (by decide +kernel)

/-- A value that is written: the connection is as before, apart from what is written. -/
structure Quiet (s : Connection) : Prop where
  idle : s.writer = .idle
  queue : s.queue = []
  offers : s.offers = []
  stopped : s.stopped = none

/-- What happens until a value is written. -/
def eventsOf (value : Value) : List RpcEvent := [.offered value, .queued none value, .taken, .wrote]

theorem Quiet.run [JsonWire] (h : s.Quiet) {value : Value} (hfits : Fits value) :
    ∃ s', Path Step s (eventsOf value) s' ∧ s'.Quiet ∧ s'.written = s.written ++ frameOf value := by
  have hsend : sendValue s.stopped value = .ok (frameOf value) := sendValue_eq_ok.mpr ⟨h.stopped, hfits, rfl⟩
  have hqueue : s.queue ++ [frameOf value] = frameOf value :: [] := by rw [h.queue]; rfl
  refine ⟨_, .cons (.offer hsend) (.cons (@Step.queueOffer _ _ value ?_ ?_) (.cons (.take h.idle hqueue)
    (.single (.write rfl)))), ?_, rfl⟩
  · exact List.mem_append_right _ List.mem_cons_self
  · refine ⟨?_, ?_⟩
    · rw [h.queue]
      decide
    · rw [h.idle]
      nofun
  · refine ⟨rfl, rfl, ?_, h.stopped⟩
    show (s.offers ++ [value]).erase value = []
    rw [h.offers]
    exact List.erase_cons_head _ _

/-- Two values are written, one after the other. -/
theorem writes_both [JsonWire] {first second : Value} (hfirst : Fits first) (hsecond : Fits second) :
    ∃ s, Path Step (start .standard) (eventsOf first ++ eventsOf second) s ∧ s.Quiet ∧
      s.written = frameOf first ++ frameOf second := by
  have hquiet : (start .standard).Quiet := ⟨rfl, rfl, rfl, rfl⟩
  obtain ⟨s, hrun, hs, hwritten⟩ := hquiet.run hfirst
  obtain ⟨s', hrun', hs', hwritten'⟩ := hs.run hsecond
  refine ⟨s', hrun.append hrun', hs', ?_⟩
  rw [hwritten', hwritten]
  rfl

/-- The written bytes, in two reads. -/
def inTwo (bytes : List UInt8) (h : 5 < bytes.length) : List (Piece UInt8) :=
  [⟨bytes.take 5, by rw [Ne, ← List.length_eq_zero_iff, List.length_take]; omega⟩,
    ⟨bytes.drop 5, by rw [Ne, ← List.length_eq_zero_iff, List.length_drop]; omega⟩]

theorem joined_inTwo {bytes : List UInt8} (h : 5 < bytes.length) : joined (inTwo bytes h) = bytes := by
  show bytes.take 5 ++ (bytes.drop 5 ++ []) = bytes
  rw [List.append_nil, List.take_append_drop]

/-- The other side reads the notification and the response, and stops at the response. -/
theorem frames_obtained_ping : ∃ (log : List RpcEvent) (s : Connection) (pieces : List (Piece UInt8)),
    @Path _ _ (@Step sampleWire) (start .standard) log s ∧ pieces.length = 2 ∧ joined pieces = s.written ∧
      @runRpcReader sampleWire none pieces = ⟨[utf8 (canonicalJson pinged), utf8 (canonicalJson answered)], [pinged],
        "external-agent RPC response omitted a supported id"⟩ := by
  obtain ⟨s, hrun, hs, hwritten⟩ := @writes_both sampleWire pinged answered (by decide +kernel) (by decide +kernel)
  have hlong : 5 < s.written.length := by
    rw [hwritten]
    decide +kernel
  refine ⟨_, s, inTwo s.written hlong, hrun, rfl, joined_inTwo hlong, ?_⟩
  have hread := (@frames_obtained sampleWire).1 .standard _ s hrun hs.idle hs.queue ?_ none (inTwo s.written hlong)
    (joined_inTwo hlong)
  · rw [hread]
    decide +kernel
  · intro value hvalue
    obtain ⟨hnonempty, hunbroken, hreadBack, -⟩ := sampleWire_travels (show value = pinged ∨ value = answered by
      simpa [queuedValues, eventsOf] using hvalue)
    exact ⟨hnonempty, hunbroken, hreadBack⟩

/-- The response comes first, and the reader stops at it. -/
theorem frames_not_all_obtained : ¬ ∀ (wire : JsonWire) dialect log s,
    @Path _ _ (@Step wire) (start dialect) log s → s.writer = .idle → s.queue = [] →
      (∀ value ∈ queuedValues log, wire.toVec value ≠ [] ∧ newline ∉ wire.toVec value ∧
        wire.fromSlice (wire.toVec value) = .ok value) →
      ∀ failure pieces, joined pieces = s.written →
        (@runRpcReader wire failure pieces).lines = (queuedValues log).map wire.toVec := by
  intro h
  obtain ⟨s, hrun, hs, hwritten⟩ := @writes_both sampleWire answered pinged (by decide +kernel) (by decide +kernel)
  have hbytes : s.written = [answered, pinged].flatMap (@frameOf sampleWire) := by
    rw [hwritten]
    simp
  have hlong : 5 < s.written.length := by
    rw [hwritten]
    decide +kernel
  have hread := h sampleWire .standard _ s hrun hs.idle hs.queue ?_ none (inTwo s.written hlong) (joined_inTwo hlong)
  · have htravels : ∀ value ∈ [answered, pinged], @Travels sampleWire value := fun value hvalue =>
      sampleWire_travels (by simpa [or_comm] using hvalue)
    rw [@runRpcReader_frames sampleWire none [answered, pinged] (inTwo s.written hlong) htravels
      ((joined_inTwo hlong).trans hbytes)] at hread
    have hlength := congrArg List.length hread
    revert hlength
    decide +kernel
  · intro value hvalue
    obtain ⟨hnonempty, hunbroken, hreadBack, -⟩ := sampleWire_travels (show value = pinged ∨ value = answered by
      simpa [queuedValues, eventsOf, or_comm] using hvalue)
    exact ⟨hnonempty, hunbroken, hreadBack⟩

/-! ### A request -/

/-- The first request of a connection. -/
def ping (phase : Phase) : Call := ⟨"ping", .null, 1, .empty, phase⟩

/-- The connection, with its first request registered. -/
def pinging (phase : Phase) (queue : List (List UInt8)) : Connection :=
  { start .standard with
    nextId := 2
    begun := 1
    pending := (∅ : ExtTreeMap Int Nat).insert 1 0
    calls := Function.update (fun _ => none) 0 (some (ping phase))
    queue }

theorem pinging_calls (phase : Phase) (queue : List (List UInt8)) :
    (pinging phase queue).calls 0 = some (ping phase) := rfl

theorem pinging_setPhase (phase phase' : Phase) (queue : List (List UInt8)) :
    (pinging phase queue).setPhase 0 phase' = pinging phase' queue := by
  unfold setPhase
  rw [pinging_calls]
  unfold pinging
  dsimp only
  rw [Function.update_idem]
  rfl

theorem register_free {n : Nat} {call : Call} (hstopped : s.stopped = none)
    (hsize : s.pending.size < maxAgentRpcPendingRequests) (hfree : s.pending[call.id]? = none) :
    s.register n call = { s.setPhase n .registered with pending := s.pending.insert call.id n } := by
  unfold register
  rw [hstopped]
  dsimp only
  rw [if_neg (Nat.not_le.mpr hsize), take_of_none hfree]

/-- What happens until the request waits for its response. -/
theorem ping_run : ∃ (log : List RpcEvent) (queue : List (List UInt8)),
    @Path _ _ (@OrderlyStep sampleWire) (start .standard) log (pinging .waiting queue) := by
  have hbegin : (start .standard).begin "ping" .null =
      { pinging .numbered [] with pending := ∅ } := by
    have hvalid : validateMethod "ping" = .ok () := refuseIf_eq_ok.mpr (by decide +kernel)
    unfold begin
    rw [hvalid]
    rfl
  have hregister : ({ pinging .numbered [] with pending := ∅ } : Connection).register 0 (ping .numbered) =
      pinging .registered [] := by
    rw [register_free rfl (by decide) (by simp)]
    exact congrArg (fun s : Connection => { s with pending := (∅ : ExtTreeMap Int Nat).insert 1 0 })
      (pinging_setPhase .numbered .registered [])
  have hcheck : @check (pinging .registered []) sampleWire 0 (ping .registered) =
      pinging (.sending ((ping .registered).payload .standard)) [] := by
    have hsend : @sendValue sampleWire none ((ping .registered).payload .standard) =
        .ok (@frameOf sampleWire ((ping .registered).payload .standard)) :=
      (@sendValue_eq_ok sampleWire _ _ _).mpr ⟨rfl, by decide +kernel, rfl⟩
    unfold check
    dsimp only [pinging, start]
    rw [hsend]
    exact pinging_setPhase _ _ _
  have hroom : HasRoom (pinging (.sending ((ping .registered).payload .standard)) []) := ⟨by decide, nofun⟩
  have hqueue := @Step.queue sampleWire _ _ _ _
    (pinging_calls (.sending ((ping .registered).payload .standard)) []) rfl hroom
  rw [pinging_setPhase] at hqueue
  have hbegun := @Step.begin sampleWire (start .standard) "ping" .null
  have hregistered := @Step.register sampleWire _ _ _
    (show ({ pinging .numbered [] with pending := ∅ } : Connection).calls 0 = some (ping .numbered) from rfl) rfl
  have hchecked := @Step.check sampleWire _ _ _ (pinging_calls .registered []) rfl
  rw [hbegin] at hbegun
  rw [hregister] at hregistered
  rw [hcheck] at hchecked
  exact ⟨_, _, .cons ⟨hbegun, trivial⟩ (.cons ⟨hregistered, trivial⟩ (.cons ⟨hchecked, trivial⟩
    (.single ⟨hqueue, fun hstopped => absurd rfl hstopped.1⟩)))⟩

/-- The response to the first request. -/
def pong : Value := .object [("id", .number (.posInt 1)), ("result", .null)]

theorem requests_settled_ping : ∃ (log : List RpcEvent) (s : Connection),
    (∃ call, s.calls 0 = some call ∧ call.phase = .finished (.answered (.ok .null)) ∧
      WasAnswered log call (.ok .null)) ∧ s.Sound := by
  obtain ⟨log, queue, hrun⟩ := ping_run
  have hread : dispatchOf pong = .ok (.response 1 (.ok .null)) := by rfl
  have hdispatched := @Step.dispatch sampleWire (pinging .waiting queue) pong _ hread
  have htaken : (pinging .waiting queue).take 1 (.sent (.ok (.ok .null))) =
      { (pinging .waiting queue).settle 0 (.sent (.ok (.ok .null))) with
        pending := (pinging .waiting queue).pending.erase 1 } :=
    take_of_some (by simp [pinging]) _
  have hreceived := @Step.receive sampleWire ((pinging .waiting queue).deliver (.response 1 (.ok .null))) 0
    { ping .waiting with receiver := .sent (.ok (.ok .null)) }
    (by
      show ((pinging .waiting queue).take 1 (.sent (.ok (.ok .null)))).calls 0 = _
      rw [htaken]
      rfl)
    rfl nofun
  have hpath := hrun.append (.cons ⟨hdispatched, trivial⟩ (.single ⟨hreceived, trivial⟩))
  have hcalls : (((pinging .waiting queue).deliver (.response 1 (.ok .null))).setPhase 0
      (.finished (.answered (.ok .null)))).calls 0 =
        some ⟨"ping", .null, 1, .sent (.ok (.ok .null)), .finished (.answered (.ok .null))⟩ := by
    show (((pinging .waiting queue).take 1 (.sent (.ok (.ok .null)))).setPhase 0 _).calls 0 = _
    rw [htaken]
    rfl
  exact ⟨_, _, ⟨_, hcalls, rfl, ((@requests_settled sampleWire).1 .standard _ _
    (hpath.mono fun _ _ _ hstep => hstep.1)).1 0 _ _ hcalls rfl⟩,
    ((@requests_settled sampleWire).2 .standard _ _ hpath).1⟩

/-- A request that is dropped while it waits for its response stays in the map. -/
theorem dropped_stays_pending : ¬ ∀ (wire : JsonWire) dialect log s,
    @Path _ _ (@Step wire) (start dialect) log s → s.Sound := by
  intro h
  obtain ⟨log, queue, hrun⟩ := ping_run
  have hdropped := @Step.drop sampleWire _ _ _ (pinging_calls .waiting queue) (.inl rfl)
  rw [pinging_setPhase] at hdropped
  have hsound := h sampleWire .standard _ _ ((hrun.mono fun _ _ _ hstep => hstep.1).append (.single hdropped))
  obtain ⟨call, hcall, -, hout⟩ := hsound.entries 1 0 (by simp [pinging])
  rw [pinging_calls] at hcall
  cases hcall
  exact hout

end AikitRuntime.ExternalAgent.Connection
