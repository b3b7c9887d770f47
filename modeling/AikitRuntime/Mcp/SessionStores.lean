import AikitRuntime.Mcp.HttpSessions
import AikitRuntime.Mcp.ServerRuns
import Mathlib.Data.List.Nodup

/-!
# Two stores of HTTP sessions

The tables mirror the maps when, session by session, they keep the same record, the same counter and the same events
(`Mirrored`). The retained events are numbered one after another up to the counter, so that dropping the oldest ones
from a queue is deleting the rows below a number, and reading a queue from a place is reading rows in order.

The stores answer alike as long as a call does not take them apart (`Safe`). What does is a creation that is refused
once sessions were over: the in-memory store has removed them by then, and the transaction rolls them back. And bounds
from 2^63 on are errors in SQLite only, as is an event with the identifier of one that is retained.
-/

namespace AikitRuntime.Mcp

open Durability Library Method HttpTables InMemoryHttpState

/-! ### What is the same -/

/-- The text of a value reads back. -/
def Reads [JsonReader] (data : Value) : Prop := jsonFromStr (jsonText data) = .ok data

/-- The row of a session. -/
def rowOf (session : McpHttpSession) (next : Nat) : HttpSessionRow :=
  ⟨session.connectionId, session.subject, session.tenantId, session.createdAtUnixMs, session.expiresAtUnixMs, next⟩

/-- The row of an event. -/
def eventRow (sessionId : String) (event : McpSseEvent) : SseEventRow :=
  ⟨sessionId, event.sequence, event.eventId, jsonText event.data⟩

/-- The rows of a session's events. -/
def HttpTables.rows (tx : HttpTables) (sessionId : String) : List SseEventRow :=
  tx.events.filter (·.sessionId = sessionId)

/-- The events that are retained when `next` is the next sequence. -/
structure Retains [JsonReader] (next : Nat) (events : List McpSseEvent) : Prop where
  numbered : ∃ start, 1 ≤ start ∧ start + events.length = next ∧
    events.map (·.sequence) = List.range' start events.length
  distinct : (events.map (·.eventId)).Nodup
  reads : ∀ event ∈ events, Reads event.data

/-- What the maps and the tables have of one session. -/
inductive SessionMirrored [JsonReader] (sessionId : String) :
    Option McpHttpSession → Option (List McpSseEvent) → Option Nat → Option HttpSessionRow → List SseEventRow → Prop
  | absent : SessionMirrored sessionId none none none none []
  | present {session : McpHttpSession} {events : List McpSseEvent} {next : Nat} (hid : session.sessionId = sessionId)
      (hretains : Retains next events) :
      SessionMirrored sessionId (some session) (some events) (some next) (some (rowOf session next))
        (events.map (eventRow sessionId))

/-- The tables mirror the maps. -/
def Mirrored [JsonReader] (s : InMemoryHttpState) (tx : HttpTables) : Prop :=
  ∀ k : String, SessionMirrored k s.sessions[k]? s.events[k]? s.nextSequence[k]? tx.sessions[k]? (tx.rows k)

/-- A creation that is refused. -/
def InMemoryHttpState.Refuses (s : InMemoryHttpState) (session : McpHttpSession) (maxSessions : Nat) : Prop :=
  max maxSessions 1 ≤ s.sessions.size ∨ s.sessions.contains session.sessionId ∨
    s.sessions.values.any (·.connectionId = session.connectionId)

/-- Times and counters are below 2^63, and a value can be read back from its text. -/
def HttpStoreCall.Ordinary [JsonReader] (s : InMemoryHttpState) : HttpStoreCall → Prop
  | .create session _ => session.createdAtUnixMs ≤ i64Max ∧ session.expiresAtUnixMs ≤ i64Max
  | .purge nowUnixMs => nowUnixMs ≤ i64Max
  | .append sessionId data _ _ => Reads data ∧ ∀ next, s.nextSequence[sessionId]? = some next → next < i64Max
  | _ => True

/-- A call that does not take the stores apart. -/
def HttpStoreCall.Safe [Digest] (s : InMemoryHttpState) : HttpStoreCall → Prop
  | .create session maxSessions => maxSessions ≤ i64Max ∧
      ((s.purge session.createdAtUnixMs).Refuses session maxSessions → s.expired session.createdAtUnixMs = [])
  | .append sessionId data maxEvents maxEventBytes => (jsonText data).utf8ByteSize ≤ max maxEventBytes 1 →
      ∀ next events, s.nextSequence[sessionId]? = some next → s.events[sessionId]? = some events →
        maxEvents ≤ i64Max ∧
          ∀ event ∈ events, event.eventId ≠ stableIdentifier "mcp_sse" [sessionId, toString next]
  | .replay sessionId lastEventId limit _ => ∀ events, s.events[sessionId]? = some events →
      (∀ last, lastEventId = some last → ∃ event ∈ events, event.eventId = last) → limit ≤ i64Max
  | _ => True

/-! ### Numbered events -/

theorem popFront_eq_drop (max : Nat) (events : List McpSseEvent) :
    popFront max events = events.drop (events.length - max) := by
  induction events with
  | nil => rw [popFront, List.drop_nil]
  | cons event events ih =>
    rw [popFront]
    split
    · rename_i h
      rw [ih, List.length_cons, show events.length + 1 - max = events.length - max + 1 by
        rw [List.length_cons] at h; omega, List.drop_succ_cons]
    · rename_i h
      rw [Nat.sub_eq_zero_of_le (Nat.not_lt.mp h), List.drop_zero]

/-- The events after a number are the ones from a place on. -/
theorem filter_numbered {events : List McpSseEvent} {start : Nat}
    (h : events.map (·.sequence) = List.range' start events.length) (bound : Int) :
    (events.filter fun event => bound < (event.sequence : Int)) = events.drop (bound + 1 - start).toNat := by
  induction events generalizing start with
  | nil => simp
  | cons event events ih =>
    rw [List.map_cons, List.length_cons, List.range'_succ, List.cons.injEq] at h
    obtain ⟨hfirst, hrest⟩ := h
    have hlater := ih hrest
    by_cases hbound : bound < (start : Int)
    · have hzero : (bound + 1 - start).toNat = 0 := by omega
      have hzero' : (bound + 1 - (start + 1 : Nat)).toNat = 0 := by omega
      rw [List.filter_cons_of_pos (by simpa [hfirst] using hbound), hlater, hzero, hzero', List.drop_zero,
        List.drop_zero]
    · have hsucc : (bound + 1 - start).toNat = (bound + 1 - (start + 1 : Nat)).toNat + 1 := by omega
      rw [List.filter_cons_of_neg (by simpa [hfirst] using hbound), hlater, hsucc, List.drop_succ_cons]

section
variable [JsonReader] {next : Nat} {events : List McpSseEvent}

variable {event : McpSseEvent}

theorem Retains.sequence_eq (h : Retains next events) {i : Nat} (hi : events[i]? = some event) :
    (event.sequence : Int) = next - events.length + i ∧ event.sequence < next := by
  obtain ⟨start, -, hnext, hnumbered⟩ := h.numbered
  have hlt := (List.getElem?_eq_some_iff.mp hi).1
  have hget : (events.map (·.sequence))[i]? = some event.sequence := by rw [List.getElem?_map, hi]; rfl
  rw [hnumbered, List.getElem?_range' hlt, Option.some.injEq] at hget
  omega

theorem Retains.sequence_lt (h : Retains next events) (hmem : event ∈ events) :
    event.sequence < next := by
  obtain ⟨i, hi⟩ := List.mem_iff_getElem?.mp hmem
  exact (h.sequence_eq hi).2

theorem Retains.nil : Retains 1 [] := ⟨⟨1, by omega, rfl, rfl⟩, List.nodup_nil, by simp⟩

/-- One more event. -/
theorem Retains.push (h : Retains next events) (hsequence : event.sequence = next)
    (hfresh : ∀ e ∈ events, e.eventId ≠ event.eventId) (hreads : Reads event.data) :
    Retains (next + 1) (events ++ [event]) := by
  obtain ⟨⟨start, hstart, hnext, hnumbered⟩, hdistinct, hall⟩ := h
  refine ⟨⟨start, hstart, ?_, ?_⟩, ?_, fun e he => ?_⟩
  · rw [List.length_append, List.length_singleton]
    omega
  · rw [List.map_append, hnumbered, List.length_append, List.length_singleton, List.range'_1_concat, hnext]
    exact congrArg (List.range' start events.length ++ [·]) hsequence
  · rw [List.map_append, List.nodup_append]
    refine ⟨hdistinct, by simp, fun a ha b hb => ?_⟩
    obtain ⟨e, he, rfl⟩ := List.mem_map.mp ha
    rw [List.map_singleton, List.mem_singleton] at hb
    rw [hb]
    exact hfresh e he
  · rcases List.mem_append.mp he with hold | hnew
    · exact hall e hold
    · rw [List.mem_singleton.mp hnew]
      exact hreads

/-- The newest events. -/
theorem Retains.drop (h : Retains next events) (n : Nat) : Retains next (events.drop n) := by
  obtain ⟨⟨start, hstart, hnext, hnumbered⟩, hdistinct, hall⟩ := h
  refine ⟨⟨start + min n events.length, by omega, ?_, ?_⟩, ?_, fun e he => hall e (List.mem_of_mem_drop he)⟩
  · rw [List.length_drop]
    omega
  · rw [List.map_drop, hnumbered, List.drop_range', List.length_drop]
    by_cases hn : n ≤ events.length
    · rw [Nat.min_eq_left hn]
      simp
    · rw [Nat.sub_eq_zero_of_le (by omega)]
      rfl
  · rw [List.map_drop]
    exact hdistinct.sublist (List.drop_sublist ..)

/-! ### Session by session -/

variable {s : InMemoryHttpState} {tx : HttpTables}

theorem mirrored_new : Mirrored .new .new := fun _ => .absent

variable {session : McpHttpSession} {sessionId : String}

/-- What the stores have of a session that is there. -/
theorem Mirrored.of_session (h : Mirrored s tx)
    (hsession : s.sessions[sessionId]? = some session) :
    ∃ next events, session.sessionId = sessionId ∧ s.nextSequence[sessionId]? = some next ∧
      s.events[sessionId]? = some events ∧ Retains next events ∧
      tx.sessions[sessionId]? = some (rowOf session next) ∧ tx.rows sessionId = events.map (eventRow sessionId) := by
  have hat := h sessionId
  rw [hsession] at hat
  generalize s.nextSequence[sessionId]? = counter at hat ⊢
  generalize s.events[sessionId]? = queue at hat ⊢
  generalize tx.sessions[sessionId]? = row at hat ⊢
  generalize tx.rows sessionId = rows at hat ⊢
  cases hat with
  | present hid hretains => exact ⟨_, _, hid, rfl, rfl, hretains, rfl, rfl⟩

/-- The two stores have the same sessions, and a row has what is known of its session. -/
theorem Mirrored.row_eq (h : Mirrored s tx) (sessionId : String) :
    tx.sessions[sessionId]? =
      s.sessions[sessionId]?.map fun session => rowOf session (s.nextSequence[sessionId]?.getD 1) := by
  have hat := h sessionId
  generalize s.sessions[sessionId]? = session at hat ⊢
  generalize s.nextSequence[sessionId]? = counter at hat ⊢
  generalize s.events[sessionId]? = queue at hat
  generalize tx.sessions[sessionId]? = row at hat ⊢
  generalize tx.rows sessionId = rows at hat
  cases hat <;> rfl

theorem Mirrored.of_absent (h : Mirrored s tx) (habsent : s.sessions[sessionId]? = none) :
    tx.sessions[sessionId]? = none ∧ tx.rows sessionId = [] := by
  have hat := h sessionId
  rw [habsent] at hat
  generalize s.nextSequence[sessionId]? = counter at hat
  generalize s.events[sessionId]? = queue at hat
  generalize tx.sessions[sessionId]? = row at hat ⊢
  generalize tx.rows sessionId = rows at hat ⊢
  cases hat
  exact ⟨rfl, rfl⟩

/-- The tables as maps of the same values. -/
theorem Mirrored.map_eq (h : Mirrored s tx) (gone : McpHttpSession → Bool) (goneRow : HttpSessionRow → Bool)
    (hgone : ∀ session next, goneRow (rowOf session next) = gone session) :
    tx.sessions.map (fun _ => goneRow) = s.sessions.map fun _ => gone := by
  refine Std.ExtTreeMap.ext_getElem? fun k => ?_
  rw [BTreeMap.get_map, BTreeMap.get_map, h.row_eq k, Option.map_map]
  exact congrArg (s.sessions[k]?.map ·) (funext fun session => hgone session _)

theorem Mirrored.size_eq (h : Mirrored s tx) : tx.sessions.size = s.sessions.size := by
  have hmap := congrArg Std.ExtTreeMap.size
    (h.map_eq (fun _ => true) (fun _ => true) fun _ _ => rfl)
  rwa [Std.ExtTreeMap.size_map, Std.ExtTreeMap.size_map] at hmap

theorem Mirrored.contains_eq (h : Mirrored s tx) (sessionId : String) :
    tx.sessions.contains sessionId = s.sessions.contains sessionId := by
  rw [Std.ExtTreeMap.contains_eq_isSome_getElem?, Std.ExtTreeMap.contains_eq_isSome_getElem?, h.row_eq,
    Option.isSome_map]

theorem Mirrored.any_connection (h : Mirrored s tx) (connectionId : String) :
    tx.sessions.values.any (·.connectionId = connectionId) =
      s.sessions.values.any (·.connectionId = connectionId) := by
  rw [Bool.eq_iff_iff, BTreeMap.any_values, BTreeMap.any_values]
  constructor
  · rintro ⟨k, row, hrow, hconnection⟩
    rw [h.row_eq, Option.map_eq_some_iff] at hrow
    obtain ⟨session, hsession, rfl⟩ := hrow
    exact ⟨k, session, hsession, hconnection⟩
  · rintro ⟨k, session, hsession, hconnection⟩
    exact ⟨k, _, by rw [h.row_eq, hsession]; rfl, hconnection⟩

/-! ### Deleting -/

omit [JsonReader] in
theorem get_foldl_remove (keys : List String) (s : InMemoryHttpState) (k : String) :
    (keys.foldl remove s).sessions[k]? = (if k ∈ keys then none else s.sessions[k]?) ∧
      (keys.foldl remove s).events[k]? = (if k ∈ keys then none else s.events[k]?) ∧
      (keys.foldl remove s).nextSequence[k]? =
        (if k ∈ keys then none else s.nextSequence[k]?) := by
  induction keys generalizing s with
  | nil => simp
  | cons key keys ih =>
    obtain ⟨hsessions, hevents, hnext⟩ := ih (s.remove key)
    rw [List.foldl_cons, hsessions, hevents, hnext]
    unfold remove
    dsimp only
    rw [BTreeMap.get_erase, BTreeMap.get_erase, BTreeMap.get_erase]
    by_cases hkey : key = k
    · subst hkey
      simp
    · rw [if_neg hkey, if_neg hkey, if_neg hkey]
      simp [Ne.symm hkey]

variable {now : Nat}

omit [JsonReader] in
theorem mem_expired {k : String} :
    k ∈ s.expired now ↔ ∃ session, s.sessions[k]? = some session ∧ session.Expired now := by
  unfold expired
  constructor
  · intro hmem
    obtain ⟨⟨k', session⟩, hentry, rfl⟩ := List.mem_map.mp hmem
    obtain ⟨hentry, hexpired⟩ := List.mem_filter.mp hentry
    exact ⟨session, BTreeMap.mem_toList.mp hentry, of_decide_eq_true hexpired⟩
  · rintro ⟨session, hsession, hexpired⟩
    exact List.mem_map.mpr ⟨(k, session),
      List.mem_filter.mpr ⟨BTreeMap.mem_toList.mpr hsession, decide_eq_true hexpired⟩, rfl⟩

omit [JsonReader] in
theorem rows_deleteSessions (gone : String → HttpSessionRow → Bool) (k : String) :
    (tx.deleteSessions gone).rows k = if tx.sessions[k]?.any (gone k) then [] else tx.rows k := by
  unfold rows deleteSessions
  dsimp only
  rw [List.filter_filter]
  split
  · rename_i hany
    obtain ⟨row, hrow, hgone⟩ := (Option.any_eq_true _ _).mp hany
    rw [List.filter_eq_nil_iff]
    intro event _
    simp only [Bool.and_eq_true, decide_eq_true_eq, not_and]
    rintro rfl
    rw [hrow]
    simp [hgone]
  · rename_i hany
    refine List.filter_congr fun event _ => ?_
    by_cases hid : event.sessionId = k
    · subst hid
      cases hrow : tx.sessions[event.sessionId]? with
      | none => simp
      | some row =>
        rw [hrow] at hany
        simp_all
    · simp [hid]

/-- The same sessions deleted. -/
theorem Mirrored.delete (h : Mirrored s tx) (keys : List String) (gone : String → HttpSessionRow → Bool)
    (hgone : ∀ (k : String) session next, s.sessions[k]? = some session →
      (gone k (rowOf session next) = true ↔ k ∈ keys)) :
    Mirrored (keys.foldl remove s) (tx.deleteSessions gone) := by
  intro k
  obtain ⟨hsessions, hevents, hnext⟩ := get_foldl_remove keys s k
  rw [hsessions, hevents, hnext, rows_deleteSessions]
  have hget : (tx.deleteSessions gone).sessions[k]? = tx.sessions[k]?.filter fun row => !gone k row := by
    refine Option.ext fun row => ?_
    show (BTreeMap.retain _ _)[k]? = some row ↔ _
    rw [BTreeMap.get_retain, Option.filter_eq_some_iff]
  rw [hget]
  cases hsession : s.sessions[k]? with
  | none =>
    obtain ⟨hrow, hrows⟩ := h.of_absent hsession
    have hat := h k
    rw [hsession, hrow, hrows] at hat
    rw [hrow, hrows]
    generalize s.nextSequence[k]? = counter at hat ⊢
    generalize s.events[k]? = queue at hat ⊢
    cases hat
    simpa using SessionMirrored.absent
  | some session =>
    obtain ⟨next, events, hid, hcounter, hqueue, hretains, hrow, hrows⟩ := h.of_session hsession
    rw [hcounter, hqueue, hrow, hrows]
    by_cases hmem : k ∈ keys
    · have htrue := (hgone k session next hsession).mpr hmem
      simpa [hmem, htrue, Option.filter] using SessionMirrored.absent
    · have hfalse : gone k (rowOf session next) = false := by
        rw [Bool.eq_false_iff]
        exact fun htrue => hmem ((hgone k session next hsession).mp htrue)
      simpa [hmem, hfalse, Option.filter] using SessionMirrored.present hid hretains

omit [JsonReader] in
theorem isOver_rowOf :
    SqliteMcpStore.isOver now (rowOf session next) = true ↔ session.Expired now := by
  unfold SqliteMcpStore.isOver rowOf McpHttpSession.Expired
  simp

theorem Mirrored.purge (h : Mirrored s tx) (now : Nat) :
    Mirrored (s.purge now) (tx.deleteSessions fun _ => SqliteMcpStore.isOver now) := by
  refine h.delete _ _ fun k session next hsession => ?_
  rw [isOver_rowOf, mem_expired, hsession]
  constructor
  · exact fun hexpired => ⟨session, rfl, hexpired⟩
  · rintro ⟨_, heq, hexpired⟩
    cases heq
    exact hexpired

theorem Mirrored.changed_purge (h : Mirrored s tx) (now : Nat) :
    tx.changed (fun _ => SqliteMcpStore.isOver now) = (s.expired now).length := by
  have hmap := h.map_eq (fun session => decide (session.Expired now))
    (SqliteMcpStore.isOver now) fun session next => by
      rw [Bool.eq_iff_iff, isOver_rowOf, decide_eq_true_iff]
  have hcount := congrArg (fun m : BTreeMap Bool => m.toList.countP (·.2)) hmap
  simp only [Std.ExtTreeMap.toList_map, List.countP_map] at hcount
  unfold changed expired
  rw [List.length_map, ← List.countP_eq_length_filter, ← List.countP_eq_length_filter]
  exact hcount

omit [JsonReader] in
theorem changed_id (sessionId : String) :
    tx.changed (fun id _ => id = sessionId) = if tx.sessions.contains sessionId then 1 else 0 := by
  have hcount : tx.changed (fun id _ => id = sessionId) = tx.sessions.keys.count sessionId := by
    unfold changed
    rw [← List.countP_eq_length_filter, ← Std.ExtTreeMap.map_fst_toList_eq_keys, List.count, List.countP_map]
    rfl
  rw [hcount]
  split
  · rename_i hin
    exact List.count_eq_one_of_mem Std.ExtTreeMap.nodup_keys (Std.ExtTreeMap.mem_keys.mpr hin)
  · rename_i hout
    exact List.count_eq_zero_of_not_mem fun hmem => hout (Std.ExtTreeMap.mem_keys.mp hmem)

/-! ### Call by call -/

omit [JsonReader] in
theorem i64FromU64_of_le {n : Nat} (h : n ≤ i64Max) (message : String) : i64FromU64 n message = .ok (n : Int) := by
  unfold i64FromU64
  rw [refuseIf_of_not (Nat.not_lt.mpr h)]
  rfl

omit [JsonReader] in
theorem u64FromI64_cast (n : Nat) (error : ProtocolError) : u64FromI64 (n : Int) error = .ok n := by
  unfold u64FromI64
  rw [refuseIf_of_not (by omega)]
  rfl

theorem matches_load (h : Mirrored s tx) (sessionId : String) :
    Matches Mirrored
      ((mapError ProtocolError.code (InMemoryMcpHttpSessionStore.loadSession sessionId)).run s)
      ((mapError ProtocolError.code (SqliteMcpStore.loadSession sessionId)).run tx) := by
  have hsqlite : (SqliteMcpStore.loadSession sessionId).run tx = .ok s.sessions[sessionId]? tx := by
    unfold SqliteMcpStore.loadSession
    rw [run_read_bind, id_eq, h.row_eq]
    cases hsession : s.sessions[sessionId]? with
    | none => rfl
    | some session =>
      obtain ⟨next, events, rfl, -⟩ := h.of_session hsession
      show (check (some <$> SqliteMcpStore.sessionOf session.sessionId _)).run tx = _
      unfold SqliteMcpStore.sessionOf rowOf
      dsimp only
      rw [u64FromI64_cast, u64FromI64_cast]
      rfl
  rw [run_mapError, run_mapError, hsqlite]
  exact .ok h

theorem matches_delete (h : Mirrored s tx) (sessionId : String) :
    Matches Mirrored
      ((mapError ProtocolError.code (InMemoryMcpHttpSessionStore.deleteSession sessionId)).run s)
      ((mapError ProtocolError.code (SqliteMcpStore.deleteSession sessionId)).run tx) := by
  have hchanged : decide (tx.changed (fun id _ => id = sessionId) = 1) = s.sessions[sessionId]?.isSome := by
    rw [changed_id, h.contains_eq, Std.ExtTreeMap.contains_eq_isSome_getElem?]
    cases s.sessions[sessionId]? <;> rfl
  have hdeleted := h.delete [sessionId] (fun id _ => id = sessionId) fun k session next _ => by
    simp
  rw [run_mapError, run_mapError]
  show Matches Mirrored (.ok s.sessions[sessionId]?.isSome (s.remove sessionId))
    (.ok (decide (tx.changed (fun id _ => id = sessionId) = 1)) (tx.deleteSessions fun id _ => id = sessionId))
  rw [hchanged]
  exact .ok hdeleted

theorem matches_purge (h : Mirrored s tx) (hnow : now ≤ i64Max) :
    Matches Mirrored ((mapError ProtocolError.code (InMemoryMcpHttpSessionStore.purgeExpired now)).run s)
      ((mapError ProtocolError.code (SqliteMcpStore.purgeExpired now)).run tx) := by
  have hsqlite : (SqliteMcpStore.purgeExpired now).run tx =
      .ok (s.expired now).length (tx.deleteSessions fun _ => SqliteMcpStore.isOver now) := by
    unfold SqliteMcpStore.purgeExpired
    rw [i64FromU64_of_le hnow, run_check_bind_ok, run_read_bind, run_modify_bind, h.changed_purge]
    rfl
  rw [run_mapError, run_mapError, hsqlite]
  exact .ok (h.purge now)

/-- One more session. -/
theorem Mirrored.insert (h : Mirrored s tx) (session : McpHttpSession)
    (habsent : s.sessions[session.sessionId]? = none) :
    Mirrored ⟨s.sessions.insert session.sessionId session, s.events.insert session.sessionId [],
        s.nextSequence.insert session.sessionId 1⟩
      { tx with sessions := tx.sessions.insert session.sessionId (rowOf session 1) } := by
  intro k
  dsimp only
  rw [BTreeMap.get_insert, BTreeMap.get_insert, BTreeMap.get_insert, BTreeMap.get_insert]
  by_cases hk : session.sessionId = k
  · subst hk
    rw [if_pos rfl, if_pos rfl, if_pos rfl, if_pos rfl]
    have hrows : rows { tx with sessions := tx.sessions.insert session.sessionId (rowOf session 1) }
        session.sessionId = ([] : List McpSseEvent).map (eventRow session.sessionId) := (h.of_absent habsent).2
    rw [hrows]
    exact .present rfl .nil
  · rw [if_neg hk, if_neg hk, if_neg hk, if_neg hk]
    exact h k

theorem matches_create (h : Mirrored s tx) {maxSessions : Nat}
    (hordinary : (HttpStoreCall.create session maxSessions).Ordinary s) (hmax : maxSessions ≤ i64Max)
    (hsafe : (s.purge session.createdAtUnixMs).Refuses session maxSessions →
      s.expired session.createdAtUnixMs = []) :
    Matches Mirrored
      ((mapError ProtocolError.code (InMemoryMcpHttpSessionStore.createSession session maxSessions)).run s)
      ((mapError ProtocolError.code (SqliteMcpStore.createSession session maxSessions)).run tx) := by
  obtain ⟨hcreated, hexpires⟩ := hordinary
  have hpurged := h.purge session.createdAtUnixMs
  have hbound : max maxSessions 1 ≤ i64Max := Nat.max_le.mpr ⟨hmax, by decide⟩
  have hclean (hrefuses : (s.purge session.createdAtUnixMs).Refuses session maxSessions) :
      s.purge session.createdAtUnixMs = s := by
    unfold purge
    rw [hsafe hrefuses]
    rfl
  rw [run_mapError, run_mapError]
  unfold InMemoryMcpHttpSessionStore.createSession SqliteMcpStore.createSession
  rw [run_modify_bind, run_read_bind, id_eq, i64FromU64_of_le hcreated, run_check_bind_ok,
    i64FromU64_of_le hexpires, run_check_bind_ok, i64FromU64_of_le hbound, run_check_bind_ok, run_transaction,
    run_modify_bind, run_read_bind, id_eq, hpurged.size_eq]
  by_cases hfull : max maxSessions 1 ≤ (s.purge session.createdAtUnixMs).sessions.size
  · rw [refuseIf_of hfull, refuseIf_of (Int.ofNat_le.mpr hfull), hclean (.inl hfull)]
    exact .error h
  · rw [refuseIf_of_not hfull, run_check_bind_ok, refuseIf_of_not (fun hle => hfull (Int.ofNat_le.mp hle)),
      run_check_bind_ok]
    unfold insertSession
    dsimp only
    rw [hpurged.contains_eq, hpurged.any_connection]
    by_cases hkey : (s.purge session.createdAtUnixMs).sessions.contains session.sessionId
    · rw [refuseIf_of (.inl hkey), refuseIf_of hkey, hclean (.inr (.inl hkey))]
      exact .error h
    · by_cases hconnection :
          (s.purge session.createdAtUnixMs).sessions.values.any (·.connectionId = session.connectionId)
      · rw [refuseIf_of (.inr hconnection), refuseIf_of_not hkey, ok_bind, refuseIf_of hconnection,
          hclean (.inr (.inr hconnection))]
        exact .error h
      · rw [refuseIf_of_not (by rintro (hin | hin) <;> contradiction), refuseIf_of_not hkey,
          refuseIf_of_not hconnection]
        rw [Bool.not_eq_true, BTreeMap.contains_eq_false] at hkey
        exact .ok (hpurged.insert session hkey)

/-! ### Appending -/

omit [JsonReader] in
theorem rows_append (row : SseEventRow) (k : String) :
    rows { tx with events := tx.events ++ [row] } k =
      tx.rows k ++ if row.sessionId = k then [row] else [] := by
  unfold rows
  rw [List.filter_append, List.filter_singleton]
  by_cases hk : row.sessionId = k <;> simp [hk]

omit [JsonReader] in
theorem rows_trimEvents (sessionId : String) (keep : Int) (k : String) :
    (tx.trimEvents sessionId keep).rows k =
      if sessionId = k then (tx.rows k).filter fun event => tx.maxSequence sessionId - keep < event.sequence
      else tx.rows k := by
  unfold rows trimEvents
  dsimp only
  rw [List.filter_filter]
  split
  · rename_i hk
    subst hk
    rw [List.filter_filter]
    refine List.filter_congr fun event _ => ?_
    by_cases hid : event.sessionId = sessionId
    · rw [Bool.eq_iff_iff]
      simp only [hid, decide_true, true_and, Bool.and_true, Bool.true_and, Bool.not_eq_true',
        decide_eq_false_iff_not, decide_eq_true_eq, Int.not_le]
    · simp [hid]
  · rename_i hk
    refine List.filter_congr fun event _ => ?_
    by_cases hid : event.sessionId = k
    · subst hid
      simp [Ne.symm hk]
    · simp [hid]

/-- The last number is the largest one. -/
theorem maxSequence_push
    (hrows : tx.rows sessionId = (events ++ [event]).map (eventRow sessionId)) (h : Retains next events)
    (hsequence : event.sequence = next) : tx.maxSequence sessionId = next := by
  have hmax : ((tx.rows sessionId).map (·.sequence)).max? = some (next : Int) := by
    rw [hrows, List.max?_eq_some_iff, List.map_map]
    constructor
    · exact List.mem_map.mpr ⟨event, by simp, by rw [← hsequence]; rfl⟩
    · intro b hb
      obtain ⟨e, he, rfl⟩ := List.mem_map.mp hb
      show (e.sequence : Int) ≤ next
      rcases List.mem_append.mp he with hold | hnew
      · exact Int.ofNat_le.mpr (Nat.le_of_lt (h.sequence_lt hold))
      · exact Int.le_of_eq (by rw [List.mem_singleton.mp hnew, hsequence])
  unfold maxSequence
  show ((tx.rows sessionId).map (·.sequence)).max?.getD 0 = _
  rw [hmax]
  rfl

omit [JsonReader] in
theorem mem_rows
    (hrows : tx.rows sessionId = events.map (eventRow sessionId)) {row : SseEventRow} (hmem : row ∈ tx.events) (hid : row.sessionId = sessionId) :
    ∃ event ∈ events, row = eventRow sessionId event := by
  have hrow : row ∈ tx.rows sessionId := List.mem_filter.mpr ⟨hmem, decide_eq_true hid⟩
  rw [hrows] at hrow
  obtain ⟨event, hevent, heq⟩ := List.mem_map.mp hrow
  exact ⟨event, hevent, heq.symm⟩

/-- One more event. -/
theorem Mirrored.append (h : Mirrored s tx)
    (keep : Nat) (event : McpSseEvent) (hsession : s.sessions[session.sessionId]? = some session)
    (hcounter : s.nextSequence[session.sessionId]? = some next) (hqueue : s.events[session.sessionId]? = some events)
    (hretains : Retains next events) (hsequence : event.sequence = next)
    (hfresh : ∀ e ∈ events, e.eventId ≠ event.eventId) (hreads : Reads event.data) :
    Mirrored
      { s with
        events := s.events.insert session.sessionId (popFront keep (events ++ [event]))
        nextSequence := s.nextSequence.insert session.sessionId (next + 1) }
      ((setNextSequence { tx with events := tx.events ++ [eventRow session.sessionId event] }
        session.sessionId (next + 1)).trimEvents session.sessionId keep) := by
  have hpushed := hretains.push hsequence hfresh hreads
  obtain ⟨hrow, hrows⟩ : tx.sessions[session.sessionId]? = some (rowOf session next) ∧
      tx.rows session.sessionId = events.map (eventRow session.sessionId) := by
    obtain ⟨next', events', -, hnext', hevents', -, hrow, hrows⟩ := h.of_session hsession
    rw [hcounter] at hnext'
    rw [hqueue] at hevents'
    cases hnext'
    cases hevents'
    exact ⟨hrow, hrows⟩
  let added : HttpTables :=
    setNextSequence { tx with events := tx.events ++ [eventRow session.sessionId event] }
      session.sessionId (next + 1)
  have hadded (k : String) : added.rows k =
      tx.rows k ++ if session.sessionId = k then [eventRow session.sessionId event] else [] := rows_append _ _
  have hall : added.rows session.sessionId = (events ++ [event]).map (eventRow session.sessionId) := by
    rw [hadded, if_pos rfl, hrows, List.map_append]
    rfl
  have hget (k : String) : added.sessions[k]? = tx.sessions[k]?.map fun row =>
      if k = session.sessionId then { row with nextEventSequence := (next : Int) + 1 } else row :=
    Std.ExtTreeMap.getElem?_map
  intro k
  show SessionMirrored k s.sessions[k]? (s.events.insert _ _)[k]? (s.nextSequence.insert _ _)[k]? added.sessions[k]?
    ((added.trimEvents session.sessionId keep).rows k)
  rw [BTreeMap.get_insert, BTreeMap.get_insert, rows_trimEvents, hget]
  by_cases hk : session.sessionId = k
  · subst hk
    have hnewest : ((events ++ [event]).map (eventRow session.sessionId)).filter
        (fun row => added.maxSequence session.sessionId - keep < row.sequence) =
          (popFront keep (events ++ [event])).map (eventRow session.sessionId) := by
      obtain ⟨start, hstart, hlast, hnumbered⟩ := hpushed.numbered
      rw [maxSequence_push hall hretains hsequence, popFront_eq_drop, List.filter_map]
      show List.map _ ((events ++ [event]).filter fun e => ((next : Int) - keep) < (e.sequence : Int)) = _
      rw [filter_numbered hnumbered, show ((next : Int) - keep + 1 - start).toNat =
        (events ++ [event]).length - keep by omega]
    rw [if_pos rfl, if_pos rfl, if_pos rfl, hsession, hrow, hall, hnewest]
    simp only [Option.map_some, if_true]
    rw [popFront_eq_drop]
    exact .present rfl (hpushed.drop _)
  · rw [if_neg hk, if_neg hk, if_neg hk, hadded, if_neg hk, List.append_nil]
    simp only [Ne.symm hk, if_false, Option.map_id']
    exact h k

theorem matches_append [Digest] (h : Mirrored s tx) {data : Value}
    {maxEvents maxEventBytes : Nat}
    (hordinary : (HttpStoreCall.append sessionId data maxEvents maxEventBytes).Ordinary s)
    (hsafe : (HttpStoreCall.append sessionId data maxEvents maxEventBytes).Safe s) :
    Matches Mirrored
      ((mapError ProtocolError.code
        (InMemoryMcpHttpSessionStore.appendEvent sessionId data maxEvents maxEventBytes)).run s)
      ((mapError ProtocolError.code
        (SqliteMcpStore.appendEvent sessionId data maxEvents maxEventBytes)).run tx) := by
  obtain ⟨hreads, hroom⟩ := hordinary
  rw [run_mapError, run_mapError]
  unfold InMemoryMcpHttpSessionStore.appendEvent SqliteMcpStore.appendEvent
  dsimp only
  by_cases hlarge : max maxEventBytes 1 < (jsonText data).utf8ByteSize
  · rw [refuseIf_of hlarge, run_check_bind_error, run_check_bind_error]
    exact .error h
  · rw [refuseIf_of_not hlarge, run_check_bind_ok, run_check_bind_ok, run_read_bind, id_eq, run_transaction_read,
      id_eq, Std.ExtTreeMap.contains_eq_isSome_getElem?]
    cases hsession : s.sessions[sessionId]? with
    | none =>
      rw [(h.of_absent hsession).1, refuseIf_of Option.isSome_none, run_check_bind_error, okOr_none, run_transaction_check_error]
      exact .error h
    | some session =>
      obtain ⟨next, events, rfl, hcounter, hqueue, hretains, hrow, hrows⟩ := h.of_session hsession
      obtain ⟨hkeep, hfresh⟩ := hsafe (Nat.not_lt.mp hlarge) next events hcounter hqueue
      have hnext := hroom next hcounter
      have hinserted : tx.insertEvent ⟨session.sessionId, next,
          stableIdentifier "mcp_sse" [session.sessionId, toString next], jsonText data⟩ =
            .ok { tx with events := tx.events ++ [eventRow session.sessionId
              ⟨stableIdentifier "mcp_sse" [session.sessionId, toString next], next, data⟩] } := by
        have hnumber : (tx.events.any fun row => row.sessionId = session.sessionId ∧ row.sequence = next) = false := by
          rw [List.any_eq_false]
          intro row hmem hsame
          obtain ⟨hid, hsequence⟩ := of_decide_eq_true hsame
          obtain ⟨event, hevent, rfl⟩ := mem_rows hrows hmem hid
          exact absurd (Int.ofNat_inj.mp hsequence) (Nat.ne_of_lt (hretains.sequence_lt hevent))
        have hname : (tx.events.any fun row => row.sessionId = session.sessionId ∧
            row.eventId = stableIdentifier "mcp_sse" [session.sessionId, toString next]) = false := by
          rw [List.any_eq_false]
          intro row hmem hsame
          obtain ⟨hid, hsequence⟩ := of_decide_eq_true hsame
          obtain ⟨event, hevent, rfl⟩ := mem_rows hrows hmem hid
          exact hfresh event hevent hsequence
        have hparent : tx.sessions.contains session.sessionId = true := by
          rw [Std.ExtTreeMap.contains_eq_isSome_getElem?, hrow]
          rfl
        unfold insertEvent
        dsimp only
        rw [hnumber, hname, hparent]
        rfl
      have hsmall : saturatingAdd next 1 = next + 1 := by
        have hmax : i64Max < u64Max := by decide
        unfold saturatingAdd
        omega
      have hsmall' : min ((next : Int) + 1) i64Max = next + 1 := by omega
      rw [refuseIf_of_not (by simp), run_check_bind_ok, hrow, okOr_some, run_transaction_check_ok, rowOf]
      dsimp only
      rw [u64FromI64_cast, run_transaction_check_ok, hinserted, run_transaction_check_ok, hsmall', hcounter,
        i64FromU64_of_le (Nat.max_le.mpr ⟨hkeep, by decide⟩)]
      have happended := h.append (max maxEvents 1)
        ⟨stableIdentifier "mcp_sse" [session.sessionId, toString next], next, data⟩ hsession hcounter hqueue hretains
        rfl hfresh hreads
      refine ⟨rfl, ?_⟩
      show Mirrored ⟨s.sessions, s.events.insert session.sessionId (popFront _ (s.events[session.sessionId]?.getD [] ++ _)),
        s.nextSequence.insert session.sessionId (saturatingAdd next 1)⟩ _
      rw [hqueue, hsmall]
      exact happended

/-! ### Replaying -/

/-- The loops collect the same events. -/
theorem collectRows_map (sessionId : String) (maxBytes : Nat) (retained : List McpSseEvent) (retainedBytes : Nat) (h : ∀ event ∈ events, Reads event.data) :
    collectRows maxBytes retained retainedBytes (events.map (eventRow sessionId)) =
      collectEvents maxBytes retained retainedBytes events := by
  induction events generalizing retained retainedBytes with
  | nil => rfl
  | cons event events ih =>
    have hreads : jsonFromStr (jsonText event.data) = .ok event.data := h event List.mem_cons_self
    rw [List.map_cons, collectRows, collectEvents]
    unfold eventRow
    dsimp only
    split
    · rfl
    · rw [u64FromI64_cast, ok_bind, hreads]
      exact ih _ _ fun e he => h e (List.mem_cons_of_mem _ he)

/-- The rows after a number, in order, are the events from a place on. -/
theorem eventsAfter_eq {after : Int} {start : Nat}
    (hrows : tx.rows sessionId = events.map (eventRow sessionId)) (h : Retains next events)
    (hplace : (after + 1 - (next - events.length)).toNat = start) (limit : Nat) :
    tx.eventsAfter sessionId after limit = ((events.drop start).take limit).map (eventRow sessionId) := by
  obtain ⟨first, -, hnext, hnumbered⟩ := h.numbered
  have hfiltered : (tx.events.filter fun event => event.sessionId = sessionId ∧ after < event.sequence) =
      (events.drop start).map (eventRow sessionId) := by
    have hsplit : (tx.events.filter fun event => event.sessionId = sessionId ∧ after < event.sequence) =
        (tx.rows sessionId).filter fun event => after < event.sequence := by
      unfold rows
      rw [List.filter_filter]
      refine List.filter_congr fun event _ => ?_
      rw [Bool.decide_and, Bool.and_comm]
    rw [hsplit, hrows, List.filter_map]
    show List.map _ (events.filter fun event => after < (event.sequence : Int)) = _
    rw [filter_numbered hnumbered, show (after + 1 - first).toNat = start by omega]
  have hsorted : ((events.drop start).map (eventRow sessionId)).Pairwise
      fun a b => decide (a.sequence ≤ b.sequence) = true := by
    obtain ⟨first', -, -, hnumbered'⟩ := (h.drop start).numbered
    have hlt := List.pairwise_lt_range' (s := first') (n := (events.drop start).length)
    rw [← hnumbered', List.pairwise_map] at hlt
    rw [List.pairwise_map]
    exact hlt.imp fun hab => decide_eq_true (Int.ofNat_le.mpr (Nat.le_of_lt hab))
  unfold eventsAfter
  rw [hfiltered, List.mergeSort_of_pairwise hsorted, List.map_take]
  rfl

omit [JsonReader] in
/-- The row that a cursor names. -/
theorem find_cursor
    (hrows : tx.rows sessionId = events.map (eventRow sessionId)) (last : String) :
    (tx.events.find? fun event => event.sessionId = sessionId ∧ event.eventId = last) =
      (events.find? (·.eventId = last)).map (eventRow sessionId) := by
  have hsplit : (tx.events.find? fun event => event.sessionId = sessionId ∧ event.eventId = last) =
      (tx.rows sessionId).find? fun event => event.eventId = last := by
    unfold rows
    rw [List.find?_filter]
    simp only [Bool.decide_and, Bool.decide_eq_true]
  rw [hsplit, hrows, List.find?_map]
  rfl

/-- A replay starts at the same place. -/
theorem Mirrored.replay_start
    (hrows : tx.rows sessionId = events.map (eventRow sessionId)) (h : Retains next events)
    (lastEventId : Option String) :
    (InMemoryMcpHttpSessionStore.replayStart lastEventId (some events) = .error unknownCursor ∧
      SqliteMcpStore.replayAfter tx sessionId lastEventId = .error unknownCursor) ∨
    ∃ start after, InMemoryMcpHttpSessionStore.replayStart lastEventId (some events) = .ok start ∧
      SqliteMcpStore.replayAfter tx sessionId lastEventId = .ok after ∧
      (after + 1 - (next - events.length)).toNat = start ∧
      ∀ last, lastEventId = some last → ∃ event ∈ events, event.eventId = last := by
  cases lastEventId with
  | none =>
    obtain ⟨first, hfirst, hnext, -⟩ := h.numbered
    exact .inr ⟨0, 0, rfl, rfl, by omega, fun _ heq => by cases heq⟩
  | some last =>
    unfold InMemoryMcpHttpSessionStore.replayStart SqliteMcpStore.replayAfter
    dsimp only
    rw [find_cursor hrows]
    cases hindex : events.findIdx? (·.eventId = last) with
    | none =>
      have hnone : events.find? (·.eventId = last) = none := by
        rw [List.find?_eq_none]
        intro event hevent
        rw [List.findIdx?_eq_none_iff] at hindex
        simpa using hindex event hevent
      rw [hnone]
      exact .inl ⟨rfl, rfl⟩
    | some i =>
      obtain ⟨hlt, hfound, hfirst⟩ := List.findIdx?_eq_some_iff_getElem.mp hindex
      have hfind : events.find? (·.eventId = last) = some events[i] :=
        List.find?_eq_some_iff_getElem.mpr ⟨hfound, i, hlt, rfl, fun j hj => by simpa using hfirst j hj⟩
      obtain ⟨hsequence, -⟩ := h.sequence_eq (List.getElem?_eq_getElem hlt)
      rw [hfind]
      refine .inr ⟨i + 1, events[i].sequence, rfl, rfl, by omega, ?_⟩
      intro _ heq
      cases heq
      exact ⟨events[i], List.getElem_mem hlt, of_decide_eq_true hfound⟩

theorem matches_replay [Digest] (h : Mirrored s tx) {lastEventId : Option String}
    {limit maxBytes : Nat} (hsafe : (HttpStoreCall.replay sessionId lastEventId limit maxBytes).Safe s) :
    Matches Mirrored
      ((mapError ProtocolError.code
        (InMemoryMcpHttpSessionStore.replayEvents sessionId lastEventId limit maxBytes)).run s)
      ((mapError ProtocolError.code (SqliteMcpStore.replayEvents sessionId lastEventId limit maxBytes)).run tx) := by
  rw [run_mapError, run_mapError]
  unfold InMemoryMcpHttpSessionStore.replayEvents SqliteMcpStore.replayEvents
  rw [run_read_bind, id_eq, run_read_bind, id_eq, h.contains_eq, Std.ExtTreeMap.contains_eq_isSome_getElem?]
  cases hsession : s.sessions[sessionId]? with
  | none =>
    rw [refuseIf_of Option.isSome_none, run_check_bind_error, run_check_bind_error]
    exact .error h
  | some session =>
    obtain ⟨next, events, rfl, -, hqueue, hretains, -, hrows⟩ := h.of_session hsession
    rw [refuseIf_of_not (by simp), run_check_bind_ok, run_check_bind_ok, hqueue]
    dsimp only
    rcases Mirrored.replay_start hrows hretains lastEventId with
      ⟨hstart, hafter⟩ | ⟨start, after, hstart, hafter, hplace, hknown⟩
    · rw [hstart, hafter, run_check_bind_error, run_check_bind_error]
      exact .error h
    · have hlimit : max limit 1 ≤ i64Max := Nat.max_le.mpr ⟨hsafe events hqueue hknown, by decide⟩
      rw [hstart, hafter, run_check_bind_ok, run_check_bind_ok, i64FromU64_of_le hlimit, run_check_bind_ok,
        eventsAfter_eq hrows hretains hplace, collectRows_map]
      · rw [Option.getD_some]
        cases collectEvents maxBytes [] 0 ((events.drop start).take (max limit 1)) with
        | ok found => exact .ok h
        | error error => exact .error h
      · exact fun event hevent => hretains.reads event (List.mem_of_mem_drop (List.mem_of_mem_take hevent))

/-! ### Every call -/

variable [Digest]

/-- **One call.** -/
theorem matches_httpCall (h : Mirrored s tx) {call : HttpStoreCall} (hordinary : call.Ordinary s)
    (hsafe : call.Safe s) :
    Matches Mirrored ((mapError ProtocolError.code (memoryCall call)).run s)
      ((mapError ProtocolError.code (sqliteCall call)).run tx) := by
  cases call with
  | create session maxSessions => exact (matches_create h hordinary hsafe.1 hsafe.2).mapError_map _
  | load sessionId => exact (matches_load h sessionId).mapError_map _
  | delete sessionId => exact (matches_delete h sessionId).mapError_map _
  | purge nowUnixMs => exact (matches_purge h hordinary).mapError_map _
  | append sessionId data maxEvents maxEventBytes => exact (matches_append h hordinary hsafe).mapError_map _
  | replay sessionId lastEventId limit maxBytes => exact (matches_replay h hsafe).mapError_map _

/-- The answers of the in-memory store to a list of calls, less what errors say. -/
def memoryAnswers (calls : List HttpStoreCall) : List (Except ProtocolErrorCode HttpStoreAnswer) :=
  answers (fun call => mapError ProtocolError.code (memoryCall call)) .new calls

/-- The answers of the SQLite store. -/
def sqliteAnswers (calls : List HttpStoreCall) : List (Except ProtocolErrorCode HttpStoreAnswer) :=
  answers (fun call => mapError ProtocolError.code (sqliteCall call)) .new calls

/-- The in-memory store after a list of calls. -/
def memoryAfter (calls : List HttpStoreCall) : InMemoryHttpState :=
  afterCalls (fun call => mapError ProtocolError.code (memoryCall call)) .new calls

/-- **The stores answer alike in a run of safe calls.** -/
theorem same_answers (calls : List HttpStoreCall)
    (hordinary : ∀ pre call post, calls = pre ++ call :: post → call.Ordinary (memoryAfter pre))
    (hsafe : ∀ pre call post, calls = pre ++ call :: post → call.Safe (memoryAfter pre)) :
    sqliteAnswers calls = memoryAnswers calls :=
  (answers_eq (P := fun call s => call.Ordinary s ∧ call.Safe s)
    (fun _ _ _ hmirrored hP => matches_httpCall hmirrored hP.1 hP.2) calls mirrored_new
    fun pre call post heq => ⟨hordinary pre call post heq, hsafe pre call post heq⟩).symm

end

/-! ### Runs -/

/-- A session of a minute. -/
def briefSession : McpHttpSession := ⟨"brief", "connection-1", "user", none, 1, 60000⟩

/-- A session of a day. -/
def longSession : McpHttpSession := ⟨"long", "connection-2", "user", none, 1, 86400000⟩

/-- A session that comes after a minute. -/
def lateSession : McpHttpSession := ⟨"late", "connection-3", "user", none, 60000, 86400000⟩

/-- A session, an event, and its replay. -/
def replayedCalls : List HttpStoreCall :=
  [.create longSession 2, .append "long" (.bool true) 8 1024, .replay "long" none 8 1024]

theorem reads_true : @Reads (readerOf [.bool true]) (.bool true) := by
  show (readerOf [.bool true]).fromSlice (payloadOf (.bool true)) = _
  have hfind : [Value.bool true].find? (fun message => payloadOf (.bool true) = payloadOf message) =
      some (.bool true) := List.find?_cons_of_pos (decide_eq_true rfl)
  unfold readerOf
  dsimp only
  rw [hfind]

theorem same_answers_replayed :
    @sqliteAnswers (readerOf [.bool true]) sha256 replayedCalls = @memoryAnswers sha256 replayedCalls := by
  let _ : JsonReader := readerOf [.bool true]
  let _ : Digest := sha256
  have hevents : (memoryAfter [.create longSession 2]).events["long"]? = some [] := by decide +kernel
  have hnext : (memoryAfter [.create longSession 2]).nextSequence["long"]? = some 1 := by decide +kernel
  refine same_answers replayedCalls ?_ ?_
  · unfold replayedCalls
    simp only [forall_split_cons, forall_split_nil, and_true]
    refine ⟨⟨by decide, by decide⟩, ⟨reads_true, fun next h => ?_⟩, trivial⟩
    rw [hnext] at h
    cases h
    decide
  · unfold replayedCalls
    simp only [forall_split_cons, forall_split_nil, and_true]
    refine ⟨⟨by decide, fun _ => by decide +kernel⟩, fun _ next events _ h => ?_, fun _ _ _ => by decide⟩
    rw [hevents] at h
    cases h
    exact ⟨by decide, by simp⟩

/-- A refused creation, after the minute of a session is over. -/
def refusedCalls : List HttpStoreCall :=
  [.create briefSession 2, .create longSession 2, .create lateSession 1, .load "brief"]

/-- **What a refused creation removed is gone in one store only.** -/
theorem not_same_answers : ¬ ∀ (_ : JsonReader) (calls : List HttpStoreCall),
    (∀ pre call post, calls = pre ++ call :: post → call.Ordinary (@memoryAfter sha256 pre)) →
      @sqliteAnswers _ sha256 calls = @memoryAnswers sha256 calls := by
  intro h
  let _ : JsonReader := readerOf []
  let _ : Digest := sha256
  have hordinary : ∀ pre call post, refusedCalls = pre ++ call :: post → call.Ordinary (memoryAfter pre) := by
    unfold refusedCalls
    simp only [forall_split_cons, forall_split_nil, and_true]
    exact ⟨⟨by decide, by decide⟩, ⟨by decide, by decide⟩, ⟨by decide, by decide⟩, trivial⟩
  have hdiffers : sqliteAnswers refusedCalls ≠ memoryAnswers refusedCalls := by decide +kernel
  exact hdiffers (h _ refusedCalls hordinary)

end AikitRuntime.Mcp
