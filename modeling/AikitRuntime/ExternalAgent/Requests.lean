import AikitRuntime.ExternalAgent.Connections

/-!
# Requests that are pending

The map of a connection and its requests agree: an entry is a request whose channel nothing came through, and a request
that a response may still come for has its entry. Every step keeps that. A request whose caller dropped it keeps its
entry as well; nobody takes it out again until a response comes or the connection stops.
-/

namespace AikitRuntime.ExternalAgent

open Library Durability Std

/-- A request that may be in the map. -/
def Phase.MayBePending : Phase → Prop
  | .registered | .sending _ | .waiting | .withdrawing _ | .dropped => True
  | .numbered | .finished _ => False

namespace Connection

/-- The map and the requests agree. -/
structure Kept (s : Connection) : Prop where
  fresh : ∀ n, s.begun ≤ n → s.calls n = none
  numbered : ∀ n call, s.calls n = some call → call.phase = .numbered → call.receiver = .empty
  listed : ∀ id n, s.pending[id]? = some n →
    ∃ call, s.calls n = some call ∧ call.id = id ∧ call.receiver = .empty ∧ call.phase.MayBePending
  awaited : ∀ n call, s.calls n = some call → call.phase.IsRegistered → call.receiver = .empty →
    s.pending[call.id]? = some n
  stopping : s.draining ≠ none → s.stopped ≠ none
  drained : s.stopped ≠ none → s.draining = none → ∀ id : Int, s.pending[id]? = none

theorem Kept.start (dialect : JsonRpcDialect) : (start dialect).Kept where
  fresh _ _ := rfl
  numbered _ _ h := nomatch h
  listed id n h := by simp [Connection.start] at h
  awaited _ _ h := nomatch h
  stopping h := absurd rfl h
  drained _ _ _ := by simp [Connection.start]

variable {s : Connection} {n : Nat} {call : Call}

/-! ### Phases -/

theorem setPhase_calls (h : s.calls n = some call) (phase : Phase) :
    (s.setPhase n phase).calls = Function.update s.calls n (some { call with phase }) := by
  unfold setPhase
  rw [h]
  rfl

/-- A request is somewhere else: where it is in the map it may be there, and only who was registered is. -/
theorem Kept.setPhase (hs : s.Kept) (h : s.calls n = some call) (phase : Phase)
    (hnumbered : phase ≠ .numbered) (hregistered : phase.IsRegistered → call.phase.IsRegistered)
    (hpending : phase.MayBePending ∨ ∀ id : Int, s.pending[id]? ≠ some n) : (s.setPhase n phase).Kept := by
  have hcalls := setPhase_calls h phase
  constructor
  · intro k hk
    rw [hcalls, Function.update_of_ne (fun heq => by rw [← heq, hs.fresh k hk] at h; cases h), hs.fresh k hk]
  · intro k other hother hphase
    rw [hcalls] at hother
    by_cases hk : k = n
    · subst hk
      rw [Function.update_self] at hother
      cases hother
      exact absurd hphase hnumbered
    · rw [Function.update_of_ne hk] at hother
      exact hs.numbered k other hother hphase
  · intro id k hk
    obtain ⟨other, hother, hid, hempty, hmay⟩ := hs.listed id k hk
    rw [hcalls]
    by_cases heq : k = n
    · subst heq
      rw [h] at hother
      cases hother
      rw [Function.update_self]
      exact ⟨_, rfl, hid, hempty, hpending.resolve_right fun hnone => hnone id hk⟩
    · rw [Function.update_of_ne heq]
      exact ⟨other, hother, hid, hempty, hmay⟩
  · intro k other hother hphase hempty
    rw [hcalls] at hother
    by_cases hk : k = n
    · subst hk
      rw [Function.update_self] at hother
      cases hother
      exact hs.awaited k call h (hregistered hphase) hempty
    · rw [Function.update_of_ne hk] at hother
      exact hs.awaited k other hother hphase hempty
  · exact hs.stopping
  · exact hs.drained

/-- A request that is not in the map: its channel is not empty, or it cannot be there. -/
theorem Kept.unlisted (hs : s.Kept) (h : s.calls n = some call) (hout : call.receiver ≠ .empty ∨ ¬ call.phase.MayBePending)
    (id : Int) : s.pending[id]? ≠ some n := by
  intro hlisted
  obtain ⟨other, hother, -, hempty, hmay⟩ := hs.listed id n hlisted
  rw [h] at hother
  cases hother
  exact hout.elim (fun hne => hne hempty) fun hnot => hnot hmay

/-! ### Entries -/

variable {id : Int}

theorem take_of_none (h : s.pending[id]? = none) (receiver : Receiver) : s.take id receiver = s := by
  unfold take
  rw [h]

theorem take_of_some (h : s.pending[id]? = some n) (receiver : Receiver) :
    s.take id receiver = { s.settle n receiver with pending := s.pending.erase id } := by
  unfold take
  rw [h]

theorem settle_calls (h : s.calls n = some call) (receiver : Receiver) :
    (s.settle n receiver).calls = Function.update s.calls n (some { call with receiver }) := by
  unfold settle
  rw [h]
  rfl

variable {id' : Int} {m : ExtTreeMap Int Nat}

theorem get_erase_eq_some (h : (m.erase id)[id']? = some n) :
    id ≠ id' ∧ m[id']? = some n := by
  rw [ExtTreeMap.getElem?_erase] at h
  split at h
  · cases h
  · next hne => exact ⟨fun heq => hne (by rw [heq]; exact ReflCmp.compare_self), h⟩

theorem get_erase_of_ne (h : id ≠ id') : (m.erase id)[id']? = m[id']? := by
  rw [ExtTreeMap.getElem?_erase, if_neg fun heq => h (LawfulEqCmp.eq_of_compare heq)]

/-- An entry is taken out. -/
theorem Kept.take (hs : s.Kept) (id : Int) (receiver : Receiver) (hreceiver : receiver ≠ .empty) :
    (s.take id receiver).Kept := by
  cases hid : s.pending[id]? with
  | none =>
    rw [take_of_none hid]
    exact hs
  | some m =>
    rw [take_of_some hid]
    obtain ⟨taken, htaken, htakenId, htakenEmpty, htakenMay⟩ := hs.listed id m hid
    have hcalls := settle_calls htaken receiver
    -- No other entry is of the request that is taken out.
    have hother : ∀ (id' : Int) (k : Nat), (s.pending.erase id)[id']? = some k → k ≠ m := by
      intro id' k hk heq
      obtain ⟨hne, hk⟩ := get_erase_eq_some hk
      obtain ⟨call, hcall, hcallId, -⟩ := hs.listed id' k hk
      rw [heq, htaken] at hcall
      cases hcall
      exact hne (htakenId.symm.trans hcallId)
    constructor
    · intro k hk
      show (s.settle m receiver).calls k = none
      rw [hcalls, Function.update_of_ne (fun heq => by rw [← heq, hs.fresh k hk] at htaken; cases htaken), hs.fresh k hk]
    · intro k call hcall hphase
      replace hcall : (s.settle m receiver).calls k = some call := hcall
      rw [hcalls] at hcall
      by_cases hk : k = m
      · subst hk
        rw [Function.update_self] at hcall
        cases hcall
        rw [show taken.phase = .numbered from hphase] at htakenMay
        exact htakenMay.elim
      · rw [Function.update_of_ne hk] at hcall
        exact hs.numbered k call hcall hphase
    · intro id' k hk
      show ∃ call, (s.settle m receiver).calls k = some call ∧ _
      rw [hcalls, Function.update_of_ne (hother id' k hk)]
      exact hs.listed id' k (get_erase_eq_some hk).2
    · intro k call hcall hphase hempty
      replace hcall : (s.settle m receiver).calls k = some call := hcall
      rw [hcalls] at hcall
      by_cases hk : k = m
      · subst hk
        rw [Function.update_self] at hcall
        cases hcall
        exact absurd hempty hreceiver
      · rw [Function.update_of_ne hk] at hcall
        have hlisted := hs.awaited k call hcall hphase hempty
        refine (get_erase_of_ne fun heq => ?_).trans hlisted
        rw [← heq, hid] at hlisted
        exact hk (Option.some.inj hlisted).symm
    · exact hs.stopping
    · intro hstopped hdraining id'
      rw [hs.drained hstopped hdraining id] at hid
      cases hid

variable {receiver : Receiver}

theorem take_calls_of_unlisted (h : s.pending[id]? ≠ some n) :
    (s.take id receiver).calls n = s.calls n := by
  cases hid : s.pending[id]? with
  | none => rw [take_of_none hid]
  | some m =>
    rw [take_of_some hid]
    exact Function.update_of_ne (fun heq => h (hid.trans (congrArg some heq.symm))) _ _

theorem take_stopped (id : Int) (receiver : Receiver) : (s.take id receiver).stopped = s.stopped := by
  unfold take
  split <;> rfl

theorem take_pending (id : Int) (receiver : Receiver) : (s.take id receiver).pending[id]? = none := by
  cases hid : s.pending[id]? with
  | none => rw [take_of_none hid, hid]
  | some m =>
    rw [take_of_some hid]
    show (s.pending.erase id)[id]? = none
    simp

/-- Where entries are taken out, they are not in the map afterwards. -/
theorem get_of_take (h : (s.take id receiver).pending[id']? = some n) :
    s.pending[id']? = some n := by
  cases hid : s.pending[id]? with
  | none => rwa [take_of_none hid] at h
  | some m =>
    rw [take_of_some hid] at h
    exact (get_erase_eq_some h).2

/-! ### Steps -/

theorem get_insert_eq_some {k : Nat} :
    (m.insert id n)[id']? = some k ↔ (id = id' ∧ n = k) ∨ (id ≠ id' ∧ m[id']? = some k) := by
  rw [ExtTreeMap.getElem?_insert]
  by_cases h : id = id'
  · subst h
    simp
  · rw [if_neg fun heq => h (LawfulEqCmp.eq_of_compare heq)]
    simp [h]

/-- A request that is registered has an entry of its own. -/
theorem Kept.insert (hs : s.Kept) (h : s.calls n = some call) (hphase : call.phase = .numbered)
    (hfree : s.pending[call.id]? = none) (hstopped : s.stopped = none) :
    ({ s.setPhase n .registered with pending := s.pending.insert call.id n } : Connection).Kept := by
  have hcalls := setPhase_calls h .registered
  have hunlisted := hs.unlisted h (.inr (by rw [hphase]; exact id))
  constructor
  · intro k hk
    show (s.setPhase n .registered).calls k = none
    rw [hcalls, Function.update_of_ne (fun heq => by rw [← heq, hs.fresh k hk] at h; cases h), hs.fresh k hk]
  · intro k other hother hnumbered
    replace hother : (s.setPhase n .registered).calls k = some other := hother
    rw [hcalls] at hother
    by_cases hk : k = n
    · subst hk
      rw [Function.update_self] at hother
      cases hother
      cases hnumbered
    · rw [Function.update_of_ne hk] at hother
      exact hs.numbered k other hother hnumbered
  · intro id k hk
    show ∃ other, (s.setPhase n .registered).calls k = some other ∧ _
    rw [hcalls]
    rcases get_insert_eq_some.mp hk with ⟨rfl, rfl⟩ | ⟨-, hk⟩
    · rw [Function.update_self]
      exact ⟨_, rfl, rfl, hs.numbered _ call h hphase, trivial⟩
    · rw [Function.update_of_ne fun heq => hunlisted id (by rw [← heq]; exact hk)]
      exact hs.listed id k hk
  · intro k other hother hregistered hempty
    replace hother : (s.setPhase n .registered).calls k = some other := hother
    rw [hcalls] at hother
    by_cases hk : k = n
    · subst hk
      rw [Function.update_self] at hother
      cases hother
      exact get_insert_eq_some.mpr (.inl ⟨rfl, rfl⟩)
    · rw [Function.update_of_ne hk] at hother
      have hlisted := hs.awaited k other hother hregistered hempty
      refine get_insert_eq_some.mpr (.inr ⟨fun heq => ?_, hlisted⟩)
      rw [← heq, hfree] at hlisted
      cases hlisted
  · exact hs.stopping
  · intro hne
    exact absurd hstopped hne

theorem Kept.register (hs : s.Kept) (h : s.calls n = some call) (hphase : call.phase = .numbered) :
    (s.register n call).Kept := by
  have hunlisted := hs.unlisted h (.inr (by rw [hphase]; exact id))
  have hfinish (outcome : Outcome) : (s.setPhase n (.finished outcome)).Kept :=
    hs.setPhase h _ nofun False.elim (.inr hunlisted)
  unfold Connection.register
  split
  · exact hfinish _
  · next hstopped =>
    split
    · exact hfinish _
    · have htaken : (s.take call.id .closed).Kept := hs.take call.id .closed nofun
      exact htaken.insert ((take_calls_of_unlisted (hunlisted _)).trans h) hphase (take_pending _ _)
        ((take_stopped _ _).trans hstopped)

theorem Kept.begin (hs : s.Kept) (method : String) (params : Value) : (s.begin method params).Kept := by
  have hfresh := hs.fresh s.begun (Nat.le_refl _)
  -- A request that is new: it is not registered, and nothing came for it.
  have hnew (nextId : Int) (call : Call) (hempty : call.receiver = .empty) (hphase : ¬ call.phase.IsRegistered) :
      ({ s with
        nextId
        begun := s.begun + 1
        calls := Function.update s.calls s.begun (some call) } : Connection).Kept := by
    constructor
    · intro k hk
      have hk : s.begun + 1 ≤ k := hk
      exact (Function.update_of_ne (by omega) _ _).trans (hs.fresh k (by omega))
    · intro k other hother hnumbered
      replace hother : Function.update s.calls s.begun (some call) k = some other := hother
      by_cases hk : k = s.begun
      · subst hk
        rw [Function.update_self] at hother
        cases hother
        exact hempty
      · rw [Function.update_of_ne hk] at hother
        exact hs.numbered k other hother hnumbered
    · intro id k hk
      obtain ⟨other, hother, hrest⟩ := hs.listed id k hk
      refine ⟨other, (Function.update_of_ne (fun heq => ?_) _ _).trans hother, hrest⟩
      rw [heq, hfresh] at hother
      cases hother
    · intro k other hother hregistered
      replace hother : Function.update s.calls s.begun (some call) k = some other := hother
      by_cases hk : k = s.begun
      · subst hk
        rw [Function.update_self] at hother
        cases hother
        exact absurd hregistered hphase
      · rw [Function.update_of_ne hk] at hother
        exact hs.awaited k other hother hregistered
    · exact hs.stopping
    · exact hs.drained
  unfold Connection.begin
  split
  · exact hnew s.nextId _ rfl id
  · refine hnew _ _ rfl ?_
    dsimp only
    split <;> exact id

theorem Kept.check [JsonWire] (hs : s.Kept) (h : s.calls n = some call) (hphase : call.phase = .registered) :
    (s.check n call).Kept := by
  unfold Connection.check
  dsimp only
  split
  · exact hs.setPhase h _ nofun False.elim (.inl trivial)
  · exact hs.setPhase h _ nofun (fun _ => by rw [hphase]; trivial) (.inl trivial)

theorem Kept.withdraw (hs : s.Kept) (h : s.calls n = some call) (error : ExternalAgentError) :
    (s.withdraw n call error).Kept := by
  have htake := hs.take call.id .closed nofun
  obtain ⟨now, hnow⟩ : ∃ now, (s.take call.id .closed).calls n = some now := by
    cases hid : s.pending[call.id]? with
    | none =>
      rw [take_of_none hid]
      exact ⟨call, h⟩
    | some m =>
      rw [take_of_some hid]
      show ∃ now, (s.settle m .closed).calls n = some now
      unfold settle
      by_cases hm : n = m
      · subst hm
        exact ⟨_, (Function.update_self _ _ _).trans (by rw [h]; rfl)⟩
      · exact ⟨call, (Function.update_of_ne hm _ _).trans h⟩
  refine htake.setPhase hnow _ nofun False.elim (.inr fun id hid => ?_)
  -- Its own entry, if it had one, was taken out.
  obtain ⟨other, hother, hotherId, -⟩ := hs.listed id n (get_of_take hid)
  rw [h] at hother
  cases hother
  rw [← hotherId, take_pending] at hid
  cases hid

theorem mem_entries (h : s.pending[id]? = some n) : n ∈ s.pending.toList.map Prod.snd :=
  List.mem_map.mpr ⟨(id, n), ExtTreeMap.mem_toList_iff_getElem?_eq_some.mpr h, rfl⟩

theorem exists_of_mem_entries (h : n ∈ s.pending.toList.map Prod.snd) : ∃ id : Int, s.pending[id]? = some n := by
  obtain ⟨⟨id, k⟩, hmem, rfl⟩ := List.mem_map.mp h
  exact ⟨id, ExtTreeMap.mem_toList_iff_getElem?_eq_some.mp hmem⟩

/-- What a request is when the connection was drained: the same, unless it was in the map. -/
theorem drain_calls {reason : String} (h : (s.drain reason).calls n = some call) :
    ∃ before, s.calls n = some before ∧ call.id = before.id ∧ call.phase = before.phase ∧ call.method = before.method ∧
      ((call.receiver = .sent (.error (.protocol reason)) ∧ ∃ id : Int, s.pending[id]? = some n) ∨
        (call = before ∧ ∀ id : Int, s.pending[id]? ≠ some n)) := by
  unfold drain at h
  dsimp only at h
  split at h
  · next hmem =>
    obtain ⟨before, hbefore, rfl⟩ := Option.map_eq_some_iff.mp h
    exact ⟨before, hbefore, rfl, rfl, rfl, .inl ⟨rfl, exists_of_mem_entries hmem⟩⟩
  · next hmem => exact ⟨call, h, rfl, rfl, rfl, .inr ⟨rfl, fun id hid => hmem (mem_entries hid)⟩⟩

theorem Kept.drain (hs : s.Kept) (reason : String) : (s.drain reason).Kept := by
  constructor
  · intro k hk
    unfold Connection.drain
    dsimp only
    rw [hs.fresh k hk]
    split <;> rfl
  · intro k other hother hnumbered
    obtain ⟨before, hbefore, -, hphase, -, ⟨-, id, hid⟩ | ⟨rfl, -⟩⟩ := drain_calls hother
    · exact absurd hid (hs.unlisted hbefore (.inr (by rw [← hphase, hnumbered]; exact False.elim)) id)
    · exact hs.numbered k _ hbefore hnumbered
  · intro id k hk
    simp [Connection.drain] at hk
  · intro k other hother hregistered hempty
    obtain ⟨before, hbefore, -, -, -, ⟨hsent, -⟩ | ⟨rfl, hnone⟩⟩ := drain_calls hother
    · rw [hsent] at hempty
      cases hempty
    · exact absurd (hs.awaited k _ hbefore hregistered hempty) (hnone _)
  · exact fun h => absurd rfl h
  · intro _ _ id
    simp [Connection.drain]

theorem Kept.stop (hs : s.Kept) (reason : String) : (s.stop reason).Kept := by
  unfold Connection.stop
  split
  · exact hs
  · exact { hs with
      stopping := fun _ => nofun
      drained := nofun }

variable {e : RpcEvent} {s' : Connection}

/-- **Every step keeps the map and the requests in agreement.** -/
theorem Kept.step [JsonWire] (hs : s.Kept) (hstep : Step s e s') : s'.Kept := by
  cases hstep with
  | begin method params => exact hs.begin method params
  | register calls phase => exact hs.register calls phase
  | check calls phase => exact hs.check calls phase
  | queue calls phase =>
    have := hs.setPhase calls .waiting nofun (fun _ => by rw [phase]; trivial) (.inl trivial)
    exact { this with }
  | refuse calls phase => exact hs.setPhase calls _ nofun False.elim (.inl trivial)
  | receive calls phase ready => exact hs.setPhase calls _ nofun False.elim (.inr (hs.unlisted calls (.inl ready)))
  | expire calls phase => exact hs.setPhase calls _ nofun False.elim (.inl trivial)
  | withdraw calls phase => exact hs.withdraw calls _
  | drop calls awaits => exact hs.setPhase calls _ nofun False.elim (.inl trivial)
  | offer | queueOffer | withdrawOffer | take | write | failWrite | leave => exact { hs with }
  | @dispatch message dispatch read =>
    cases dispatch with
    | inbound event => exact { hs with }
    | response id response => exact hs.take id _ nofun
  | stop reason => exact hs.stop reason
  | drain draining => exact hs.drain _

/-! ### What a step does to a request -/

theorem sendValue_eq_ok [JsonWire] {stopped : Option String} {value : Value} {frame : List UInt8} :
    sendValue stopped value = .ok frame ↔
      stopped = none ∧ (JsonWire.toVec value).length ≤ maxAgentRpcFrameBytes ∧ frameOf value = frame := by
  unfold sendValue
  cases stopped with
  | some reason => exact ⟨nofun, fun h => nomatch h.1⟩
  | none =>
    dsimp only
    by_cases h : maxAgentRpcFrameBytes < (JsonWire.toVec value).length
    · rw [if_pos h]
      exact ⟨nofun, fun hfits => absurd hfits.2.1 (Nat.not_le.mpr h)⟩
    · rw [if_neg h]
      exact ⟨fun heq => ⟨rfl, Nat.le_of_not_lt h, Except.ok.inj heq⟩, fun heq => congrArg _ heq.2.2⟩

/-- A request, when an entry was taken out: it is the same, or what was taken out is its own. -/
theorem take_calls (id : Int) (receiver : Receiver) (h : s.calls n = some call) :
    (s.take id receiver).calls n = some call ∨
      (s.pending[id]? = some n ∧ (s.take id receiver).calls n = some { call with receiver }) := by
  by_cases hid : s.pending[id]? = some n
  · rw [take_of_some hid]
    exact .inr ⟨hid, (congrFun (settle_calls h receiver) n).trans (Function.update_self _ _ _)⟩
  · exact .inl ((take_calls_of_unlisted hid).trans h)

theorem exists_take_calls (id : Int) (receiver : Receiver) (h : s.calls n = some call) :
    ∃ now, (s.take id receiver).calls n = some now ∧ now.phase = call.phase := by
  rcases take_calls id receiver h with h' | ⟨-, h'⟩
  · exact ⟨call, h', rfl⟩
  · exact ⟨_, h', rfl⟩

theorem begin_calls (h : s.calls n = some call) (hs : s.Kept) (method : String) (params : Value) :
    (s.begin method params).calls n = some call := by
  have hne : n ≠ s.begun := by
    intro heq
    rw [heq, hs.fresh s.begun (Nat.le_refl _)] at h
    cases h
  unfold Connection.begin
  split
  · exact (Function.update_of_ne hne _ _).trans h
  · exact (Function.update_of_ne hne _ _).trans h

theorem setPhase_none {m : Nat} {phase : Phase} (h : s.calls m = none) : (s.setPhase n phase).calls m = none := by
  unfold setPhase
  by_cases hm : m = n
  · subst hm
    exact (Function.update_self _ _ _).trans (by rw [h]; rfl)
  · exact (Function.update_of_ne hm _ _).trans h

theorem take_none (h : s.calls n = none) : (s.take id receiver).calls n = none := by
  cases hid : s.pending[id]? with
  | none =>
    rw [take_of_none hid]
    exact h
  | some m =>
    rw [take_of_some hid]
    show (s.settle m receiver).calls n = none
    unfold settle
    by_cases hm : n = m
    · subst hm
      exact (Function.update_self _ _ _).trans (by rw [h]; rfl)
    · exact (Function.update_of_ne hm _ _).trans h

section

variable [JsonWire]

/-- What a step may do to a request. -/
structure Moves (s : Connection) (e : RpcEvent) (n : Nat) (call call' : Call) : Prop where
  id : call'.id = call.id
  dropped : call'.phase = .dropped → call.phase = .dropped ∨ e = .dropped n
  finished : ∀ outcome, call.phase = .finished outcome → call'.phase = .finished outcome
  answered : ∀ response, call'.phase = .finished (.answered response) →
    call.phase = .finished (.answered response) ∨ call.receiver = .sent (.ok response)
  received : ∀ response, call'.receiver = .sent (.ok response) →
    call.receiver = .sent (.ok response) ∨
      ∃ message, e = .dispatched message ∧ dispatchOf message = .ok (.response call.id response)
  sending : ∀ value, call'.phase = .sending value →
    call.phase = .sending value ∨ ∃ frame, sendValue s.stopped value = .ok frame

theorem Moves.refl (s : Connection) (e : RpcEvent) (n : Nat) (call : Call) : Moves s e n call call where
  id := rfl
  dropped := .inl
  finished _ h := h
  answered _ := .inl
  received _ := .inl
  sending _ := .inl

variable {e : RpcEvent}

/-- A request that is not finished is somewhere else. -/
theorem Moves.phase {phase : Phase} (hfinished : ∀ outcome, call.phase ≠ .finished outcome)
    (hdropped : phase = .dropped → e = .dropped n)
    (hanswered : ∀ response, phase = .finished (.answered response) → call.receiver = .sent (.ok response))
    (hsending : ∀ value, phase = .sending value → ∃ frame, sendValue s.stopped value = .ok frame) :
    Moves s e n call { call with phase } where
  id := rfl
  dropped h := .inr (hdropped h)
  finished outcome h := absurd h (hfinished outcome)
  answered response h := .inr (hanswered response h)
  received _ := .inl
  sending value h := .inr (hsending value h)

variable {m : Nat} {other : Call}

theorem setPhase_moves {phase : Phase} (h : s.calls n = some call)
    (hother : s.calls m = some other) (hmoves : Moves s e n call { call with phase }) :
    ∃ other', (s.setPhase n phase).calls m = some other' ∧ Moves s e m other other' := by
  rw [setPhase_calls h]
  by_cases hm : m = n
  · subst hm
    rw [h] at hother
    cases hother
    exact ⟨_, Function.update_self _ _ _, hmoves⟩
  · exact ⟨other, (Function.update_of_ne hm _ _).trans hother, .refl ..⟩

theorem Kept.take_moves (hs : s.Kept) (id : Int) (receiver : Receiver) {e : RpcEvent} (h : s.calls n = some call)
    (hreceiver : ∀ response, receiver = .sent (.ok response) →
      ∃ message, e = .dispatched message ∧ dispatchOf message = .ok (.response id response)) :
    ∃ call', (s.take id receiver).calls n = some call' ∧ call'.phase = call.phase ∧ Moves s e n call call' := by
  rcases take_calls id receiver h with h' | ⟨hid, h'⟩
  · exact ⟨call, h', rfl, .refl ..⟩
  · obtain ⟨listed, hlisted, hlistedId, -⟩ := hs.listed id n hid
    rw [h] at hlisted
    cases hlisted
    exact ⟨_, h', rfl, { Moves.refl s e n call with
      received := fun response hresponse => .inr (by rw [hlistedId]; exact hreceiver response hresponse) }⟩

/-- A request, when the phase of one of them changes after an entry was taken out. -/
theorem Kept.take_setPhase_moves (hs : s.Kept) {id : Int} {phase : Phase} (h : s.calls n = some call) (hother : s.calls m = some other) (hfinished : ∀ outcome, call.phase ≠ .finished outcome)
    (hphase : phase = .registered ∨ ∃ error, phase = .finished (.failed error)) :
    ∃ other', ((s.take id .closed).setPhase n phase).calls m = some other' ∧ Moves s e m other other' := by
  obtain ⟨now, hnow, hnowPhase⟩ := exists_take_calls id .closed h
  obtain ⟨taken, htaken, htakenPhase, hmoves⟩ :=
    @take_moves s m other _ hs id .closed e hother nofun
  rw [setPhase_calls hnow]
  by_cases hm : m = n
  · subst hm
    rw [h] at hother
    cases hother
    rw [htaken] at hnow
    cases hnow
    refine ⟨_, Function.update_self _ _ _, { hmoves with
      dropped := ?_
      finished := fun outcome houtcome => absurd houtcome (hfinished outcome)
      answered := ?_
      sending := ?_ }⟩
    · rcases hphase with rfl | ⟨error, rfl⟩ <;> nofun
    · rcases hphase with rfl | ⟨error, rfl⟩ <;> nofun
    · rcases hphase with rfl | ⟨error, rfl⟩ <;> nofun
  · exact ⟨taken, (Function.update_of_ne hm _ _).trans htaken, hmoves⟩

theorem drain_moves {reason : String} (h : s.calls n = some call) :
    ∃ call', (s.drain reason).calls n = some call' ∧ Moves s e n call call' := by
  unfold Connection.drain
  dsimp only
  split
  · rw [h]
    exact ⟨_, rfl, { Moves.refl s e n call with received := fun response hresponse => nomatch hresponse }⟩
  · exact ⟨call, h, .refl ..⟩

variable {s' : Connection}

/-- **What a step does to a request.** -/
theorem Kept.moves (hs : s.Kept) (hstep : Step s e s') (hother : s.calls m = some other) :
    ∃ other', s'.calls m = some other' ∧ Moves s e m other other' := by
  have hsame {s' : Connection} (hcalls : s'.calls = s.calls) :
      ∃ other', s'.calls m = some other' ∧ Moves s e m other other' :=
    ⟨other, by rw [hcalls, hother], .refl ..⟩
  cases hstep with
  | begin method params => exact ⟨other, begin_calls hother hs method params, .refl ..⟩
  | @register n call calls phase =>
    have hfinished (outcome : Outcome) : call.phase ≠ .finished outcome := by
      rw [phase]
      nofun
    unfold Connection.register
    split
    · exact setPhase_moves calls hother (.phase hfinished nofun nofun nofun)
    · split
      · exact setPhase_moves calls hother (.phase hfinished nofun nofun nofun)
      · exact hs.take_setPhase_moves calls hother hfinished (.inl rfl)
  | @check n call calls phase =>
    have hfinished (outcome : Outcome) : call.phase ≠ .finished outcome := by
      rw [phase]
      nofun
    unfold Connection.check
    dsimp only
    split
    · exact setPhase_moves calls hother (.phase hfinished nofun nofun nofun)
    · next frame hsent =>
      refine setPhase_moves calls hother (.phase hfinished nofun nofun fun value hvalue => ⟨frame, ?_⟩)
      rwa [← Phase.sending.inj hvalue]
  | queue calls phase => exact setPhase_moves calls hother (.phase (by rw [phase]; nofun) nofun nofun nofun)
  | refuse calls phase => exact setPhase_moves calls hother (.phase (by rw [phase]; nofun) nofun nofun nofun)
  | @receive n call calls phase ready =>
    refine setPhase_moves calls hother (.phase (by rw [phase]; nofun) nofun (fun response heq => ?_) nofun)
    replace heq : call.outcome = .answered response := Phase.finished.inj heq
    unfold Call.outcome at heq
    split at heq
    · next hreceiver => rw [hreceiver, Outcome.answered.inj heq]
    · cases heq
    · cases heq
    · cases heq
  | expire calls phase => exact setPhase_moves calls hother (.phase (by rw [phase]; nofun) nofun nofun nofun)
  | withdraw calls phase => exact hs.take_setPhase_moves calls hother (by rw [phase]; nofun) (.inr ⟨_, rfl⟩)
  | drop calls awaits =>
    refine setPhase_moves calls hother (.phase (fun outcome heq => ?_) (fun _ => rfl) nofun nofun)
    rcases awaits with h | ⟨value, h⟩ <;> rw [h] at heq <;> cases heq
  | offer | queueOffer | withdrawOffer | take | write | failWrite | leave => exact hsame rfl
  | @dispatch message dispatch read =>
    cases dispatch with
    | inbound event => exact hsame rfl
    | response id response =>
      obtain ⟨other', hother', -, hmoves⟩ := hs.take_moves id (.sent (.ok response))
        (e := .dispatched message) hother fun response' heq => ⟨message, rfl, by cases heq; exact read⟩
      exact ⟨other', hother', hmoves⟩
  | stop reason =>
    unfold Connection.stop
    split <;> exact hsame rfl
  | drain => exact drain_moves hother

/-- A request that was not there before has only begun. -/
theorem Step.origin (hstep : Step s e s') (h : s.calls n = none)
    (h' : s'.calls n = some call) :
    call.receiver = .empty ∧ (call.phase = .numbered ∨ ∃ error, call.phase = .finished (.failed error)) := by
  have hnone (hcalls : s'.calls n = none) : call.receiver = .empty ∧
      (call.phase = .numbered ∨ ∃ error, call.phase = .finished (.failed error)) := by
    rw [hcalls] at h'
    cases h'
  cases hstep with
  | begin method params =>
    unfold Connection.begin at h'
    by_cases hn : n = s.begun
    · subst hn
      split at h' <;> dsimp only at h' <;> rw [Function.update_self] at h' <;> cases h'
      · exact ⟨rfl, .inr ⟨_, rfl⟩⟩
      · refine ⟨rfl, ?_⟩
        dsimp only
        split
        · exact .inr ⟨_, rfl⟩
        · exact .inl rfl
    · split at h' <;> dsimp only at h' <;> rw [Function.update_of_ne hn, h] at h' <;> cases h'
  | register calls phase =>
    refine hnone ?_
    unfold Connection.register
    split
    · exact setPhase_none h
    · split
      · exact setPhase_none h
      · exact setPhase_none (take_none h)
  | check calls phase =>
    refine hnone ?_
    unfold Connection.check
    dsimp only
    split <;> exact setPhase_none h
  | queue | refuse | receive | expire | drop => exact hnone (setPhase_none h)
  | withdraw => exact hnone (setPhase_none (take_none h))
  | offer | queueOffer | withdrawOffer | take | write | failWrite | leave => exact hnone h
  | @dispatch message dispatch read =>
    refine hnone ?_
    cases dispatch with
    | inbound event => exact h
    | response id response => exact take_none h
  | stop reason =>
    refine hnone ?_
    unfold Connection.stop
    split <;> exact h
  | drain =>
    refine hnone ?_
    unfold Connection.drain
    dsimp only
    rw [h]
    split <;> rfl

/-- An entry was there before, or its request has just been registered. -/
theorem Step.pending (hstep : Step s e s') {id : Int}
    (h : s'.pending[id]? = some n) :
    s.pending[id]? = some n ∨ ∃ call, s'.calls n = some call ∧ call.phase = .registered := by
  cases hstep with
  | begin method params =>
    unfold Connection.begin at h
    split at h <;> exact .inl h
  | @register m call calls phase =>
    unfold Connection.register at h ⊢
    split
    · next hstopped =>
      rw [hstopped] at h
      exact .inl h
    · next hstopped =>
      rw [hstopped] at h
      by_cases hsize : maxAgentRpcPendingRequests ≤ s.pending.size
      · rw [if_pos hsize] at h
        exact .inl h
      · rw [if_neg hsize] at h ⊢
        dsimp only at h ⊢
        rcases get_insert_eq_some.mp h with ⟨-, rfl⟩ | ⟨-, h⟩
        · obtain ⟨now, hnow, -⟩ := exists_take_calls call.id .closed calls
          refine .inr ⟨{ now with phase := .registered }, ?_, rfl⟩
          rw [setPhase_calls hnow, Function.update_self]
        · exact .inl (get_of_take h)
  | check calls phase =>
    unfold Connection.check at h
    dsimp only at h
    split at h <;> exact .inl h
  | queue | refuse | receive | expire | drop | offer | queueOffer | withdrawOffer | take | write | failWrite | leave =>
    exact .inl h
  | withdraw => exact .inl (get_of_take h)
  | @dispatch message dispatch read =>
    cases dispatch with
    | inbound event => exact .inl h
    | response id response => exact .inl (get_of_take h)
  | stop reason =>
    unfold Connection.stop at h
    split at h <;> exact .inl h
  | drain => simp [Connection.drain] at h

end

/-! ### Runs -/

/-- Whoever stops the connection is done. -/
def IsStopped (s : Connection) : Prop := s.stopped ≠ none ∧ s.draining = none

/-- There is no room in the outbound queue, and the writer is there. -/
def IsFull (s : Connection) : Prop := maxAgentRpcOutboundQueue ≤ s.queue.length ∧ s.writer ≠ .gone

/-- The request waits for room in the outbound queue. -/
def IsSending (s : Connection) (n : Nat) : Prop := ∃ call value, s.calls n = some call ∧ call.phase = .sending value

/-- The caller of the request is still waiting for the outcome. -/
def IsOutstanding (s : Connection) (n : Nat) : Prop := ∃ call, s.calls n = some call ∧ call.phase.IsOutstanding

/-- The request goes on when somebody else does something, or when its time is over. -/
def IsBlocked (s : Connection) (n : Nat) : Prop :=
  (∃ call, s.calls n = some call ∧ call.phase = .waiting ∧ call.receiver = .empty) ∨ (s.IsSending n ∧ s.IsFull)

/-- The entries are the requests that are outstanding, and none of them is left waiting. -/
structure Sound (s : Connection) : Prop where
  entries : ∀ (id : Int) n, s.pending[id]? = some n →
    ∃ call, s.calls n = some call ∧ call.id = id ∧ call.phase.IsOutstanding
  settled : s.IsStopped → ∀ n, ¬ s.IsBlocked n
  capacity : maxAgentRpcPendingRequests ≤ s.pending.size →
    ∃ outstanding : List Nat, outstanding.Nodup ∧ maxAgentRpcPendingRequests ≤ outstanding.length ∧
      ∀ n ∈ outstanding, s.IsOutstanding n

/-- No caller drops a request that is in the map, and the outbound queue is not full, once the connection is stopped,
with a request waiting for room in it. -/
def IsOrderly (s : Connection) : RpcEvent → Prop
  | .dropped n => ∀ id : Int, s.pending[id]? ≠ some n
  | .drained => s.IsFull → ∀ n, ¬ s.IsSending n
  | .queued caller _ =>
    s.IsStopped → s.queue.length + 1 = maxAgentRpcOutboundQueue → ∀ n, s.IsSending n → caller = some n
  | _ => True

/-- What an orderly run keeps. -/
structure Tidy (s : Connection) : Prop extends Kept s where
  live : ∀ (id : Int) n call, s.pending[id]? = some n → s.calls n = some call → call.phase ≠ .dropped
  roomy : s.IsStopped → s.IsFull → ∀ n, ¬ s.IsSending n

theorem Tidy.start (dialect : JsonRpcDialect) : (start dialect).Tidy where
  toKept := .start dialect
  live _ _ _ _ h := nomatch h
  roomy h := absurd rfl h.1

theorem Tidy.sound (hs : s.Tidy) : s.Sound := by
  have hentries : ∀ (id : Int) n, s.pending[id]? = some n →
      ∃ call, s.calls n = some call ∧ call.id = id ∧ call.phase.IsOutstanding := by
    intro id n hid
    obtain ⟨call, hcall, hcallId, -, hmay⟩ := hs.listed id n hid
    refine ⟨call, hcall, hcallId, ?_⟩
    have hlive := hs.live id n call hid hcall
    cases hphase : call.phase with
    | dropped => exact absurd hphase hlive
    | registered | sending | waiting | withdrawing => trivial
    | numbered | finished =>
      rw [hphase] at hmay
      exact hmay
  refine ⟨hentries, fun hstopped n hblocked => ?_, fun hsize => ?_⟩
  · rcases hblocked with ⟨call, hcall, hphase, hempty⟩ | ⟨hsending, hfull⟩
    · have hlisted := hs.awaited n call hcall (by rw [hphase]; trivial) hempty
      rw [hs.drained hstopped.1 hstopped.2] at hlisted
      cases hlisted
    · exact hs.roomy hstopped hfull n hsending
  · refine ⟨s.pending.toList.map Prod.snd, ?_, ?_, ?_⟩
    · -- Two entries of one request have its number.
      have hnodup := (ExtTreeMap.distinct_keys_toList (t := s.pending))
      refine List.pairwise_map.mpr (hnodup.imp_of_mem fun {a b} ha hb hne heq => hne ?_)
      obtain ⟨call, hcall, hcallId, -⟩ := hs.listed a.1 a.2 (ExtTreeMap.mem_toList_iff_getElem?_eq_some.mp ha)
      obtain ⟨call', hcall', hcallId', -⟩ := hs.listed b.1 b.2 (ExtTreeMap.mem_toList_iff_getElem?_eq_some.mp hb)
      rw [heq, hcall'] at hcall
      cases hcall
      rw [← hcallId, ← hcallId']
      exact ReflCmp.compare_self
    · rwa [List.length_map, ExtTreeMap.length_toList]
    · intro n hn
      obtain ⟨id, hid⟩ := exists_of_mem_entries hn
      obtain ⟨call, hcall, -, hout⟩ := hentries id n hid
      exact ⟨call, hcall, hout⟩

theorem take_isStopped (id : Int) : (s.take id receiver).IsStopped ↔ s.IsStopped := by
  unfold take
  split <;> exact Iff.rfl

theorem take_isFull (id : Int) : (s.take id receiver).IsFull ↔ s.IsFull := by
  unfold take
  split <;> exact Iff.rfl

/-- Who waits for room has waited before, or the connection was not stopped. -/
theorem Kept.sending [JsonWire] (hs : s.Kept) (hstep : Step s e s')
    (h : s'.IsSending n) : s.IsSending n ∨ s.stopped = none := by
  obtain ⟨call', value, hcall', hphase⟩ := h
  cases hcall : s.calls n with
  | none =>
    obtain ⟨-, hnumbered | ⟨error, hfailed⟩⟩ := hstep.origin hcall hcall'
    · rw [hnumbered] at hphase
      cases hphase
    · rw [hfailed] at hphase
      cases hphase
  | some call =>
    obtain ⟨other, hother, hmoves⟩ := hs.moves hstep hcall
    rw [hcall'] at hother
    cases hother
    rcases hmoves.sending value hphase with h | ⟨frame, h⟩
    · exact .inl ⟨call, value, hcall, h⟩
    · exact .inr (sendValue_eq_ok.mp h).1

/-- Only two kinds of steps make the queue full in a connection that is stopped. -/
theorem Step.full [JsonWire] (hstep : Step s e s') (hstopped : s'.IsStopped)
    (hfull : s'.IsFull) : (s.IsStopped ∧ s.IsFull) ∨ e = .drained ∨ ∃ caller value, e = .queued caller value := by
  cases hstep with
  | begin method params =>
    unfold Connection.begin at hstopped hfull
    split at hstopped <;> split at hfull <;> exact .inl ⟨hstopped, hfull⟩
  | @register n call calls phase =>
    left
    unfold Connection.register at hstopped hfull
    cases hnone : s.stopped with
    | some reason =>
      rw [hnone] at hstopped hfull
      exact ⟨hstopped, hfull⟩
    | none =>
      rw [hnone] at hstopped
      by_cases hsize : maxAgentRpcPendingRequests ≤ s.pending.size
      · rw [if_pos hsize] at hstopped
        exact absurd hnone hstopped.1
      · rw [if_neg hsize] at hstopped
        exact absurd hnone ((take_isStopped call.id).mp ⟨hstopped.1, hstopped.2⟩).1
  | check calls phase =>
    left
    unfold Connection.check at hstopped hfull
    dsimp only at hstopped hfull
    split at hstopped <;> split at hfull <;> exact ⟨hstopped, hfull⟩
  | queue | queueOffer => exact .inr (.inr ⟨_, _, rfl⟩)
  | drain => exact .inr (.inl rfl)
  | refuse | receive | expire | drop | offer | withdrawOffer => exact .inl ⟨hstopped, hfull⟩
  | @withdraw n call error calls phase =>
    exact .inl ⟨(take_isStopped call.id).mp ⟨hstopped.1, hstopped.2⟩,
      (take_isFull call.id).mp ⟨hfull.1, hfull.2⟩⟩
  | @dispatch message dispatch read =>
    cases dispatch with
    | inbound event => exact .inl ⟨hstopped, hfull⟩
    | response id response => exact .inl ⟨(take_isStopped id).mp hstopped, (take_isFull id).mp hfull⟩
  | stop reason =>
    left
    unfold Connection.stop at hstopped hfull
    cases hnone : s.stopped with
    | some reason' =>
      rw [hnone] at hstopped hfull
      exact ⟨hstopped, hfull⟩
    | none =>
      rw [hnone] at hstopped
      cases hstopped.2
  | take idle queue =>
    refine .inl ⟨hstopped, ?_, ?_⟩
    · have := hfull.1
      rw [queue, List.length_cons]
      exact Nat.le_succ_of_le this
    · rw [idle]
      nofun
  | write writing => exact .inl ⟨hstopped, hfull.1, by rw [writing]; nofun⟩
  | failWrite count writing => exact .inl ⟨hstopped, hfull.1, by rw [writing]; nofun⟩
  | leave => exact absurd rfl hfull.2

end Connection

end AikitRuntime.ExternalAgent
