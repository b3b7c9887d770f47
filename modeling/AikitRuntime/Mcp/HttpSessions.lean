import AikitRuntime.Library.Simulations
import AikitRuntime.Mcp.Server

/-!
# Stores of HTTP sessions

A Streamable HTTP server keeps its sessions, and the events that it sent to each of them, in an `McpHttpSessionStore`.
There are two. `InMemoryMcpHttpSessionStore` has a map of sessions, a map of queues, and a map of counters.
`SqliteMcpStore` has two tables: a delete takes the events of a session along, an insert keeps the keys unique, and
what creates a session or appends an event is one transaction.

The sessions table is a map of its primary key. The events table is the list of its rows, as they were inserted.
-/

namespace AikitRuntime.Mcp

open Durability Library Method

/-- `McpHttpSession`. -/
structure McpHttpSession where
  sessionId : String
  connectionId : String
  subject : String
  tenantId : Option String
  createdAtUnixMs : Nat
  expiresAtUnixMs : Nat
  deriving DecidableEq

/-- `McpSseEvent`. -/
structure McpSseEvent where
  eventId : String
  sequence : Nat
  data : Value
  deriving DecidableEq

/-- `serde_json::to_string(data)`. -/
def jsonText (data : Value) : String := String.ofList (canonicalJson data)

/-- `serde_json::from_str(text)`. -/
def jsonFromStr [JsonReader] (text : String) : Except String Value :=
  JsonReader.fromSlice text.toUTF8.toList

/-- The answer to bytes that are too many for one event. -/
def oversizedEvent : ProtocolError := .invalid "MCP SSE event exceeds the configured byte limit"

/-- The answer to a call on a session that is not there. -/
def unregisteredSession : ProtocolError := .notFound "MCP HTTP session is not registered"

/-- The answer to a cursor that is not retained. -/
def unknownCursor : ProtocolError := .invalid "Last-Event-ID is not retained for this MCP session"

/-- The answer to a replay that has no room for its first event. -/
def oversizedReplay : ProtocolError := .conflict "persisted MCP SSE event exceeds the replay byte limit"

/-! ### In memory -/

/-- `InMemoryHttpState`. -/
structure InMemoryHttpState where
  sessions : BTreeMap McpHttpSession
  events : BTreeMap (List McpSseEvent)
  nextSequence : BTreeMap Nat

/-- A session whose time is over. One without an expiry is, too. -/
def McpHttpSession.Expired (now : Nat) (session : McpHttpSession) : Prop :=
  session.expiresAtUnixMs = 0 ∨ session.expiresAtUnixMs ≤ now

instance (now : Nat) (session : McpHttpSession) : Decidable (session.Expired now) :=
  inferInstanceAs (Decidable (_ ∨ _))

namespace InMemoryHttpState

/-- A new store. -/
def new : InMemoryHttpState := ⟨∅, ∅, ∅⟩

/-- The sessions that are over. -/
def expired (s : InMemoryHttpState) (now : Nat) : List String :=
  (s.sessions.toList.filter fun entry => entry.2.Expired now).map (·.1)

/-- Remove all there is of a session. -/
def remove (s : InMemoryHttpState) (sessionId : String) : InMemoryHttpState :=
  ⟨s.sessions.erase sessionId, s.events.erase sessionId, s.nextSequence.erase sessionId⟩

/-- Remove what is over. -/
def purge (s : InMemoryHttpState) (now : Nat) : InMemoryHttpState := (s.expired now).foldl remove s

end InMemoryHttpState

/-- `while events.len() > max { events.pop_front(); }`. -/
def popFront (max : Nat) : List McpSseEvent → List McpSseEvent
  | [] => []
  | event :: events => if max < (event :: events).length then popFront max events else event :: events

/-- The loop of `replay_events`, after `retained`. -/
def collectEvents (maxBytes : Nat) (retained : List McpSseEvent) (retainedBytes : Nat) :
    List McpSseEvent → ProtocolResult (List McpSseEvent)
  | [] => .ok retained
  | event :: events =>
    let eventBytes := (jsonText event.data).utf8ByteSize
    if max maxBytes 1 < saturatingAdd retainedBytes eventBytes then
      if retained = [] then .error oversizedReplay else .ok retained
    else collectEvents maxBytes (retained ++ [event]) (saturatingAdd retainedBytes eventBytes) events

/-- A call on the in-memory store. -/
abbrev HttpMethod (α : Type) : Type := Method InMemoryHttpState ProtocolError α

namespace InMemoryMcpHttpSessionStore

/-- `create_session`. -/
def createSession (session : McpHttpSession) (maxSessions : Nat) : HttpMethod Unit := do
  modify (·.purge session.createdAtUnixMs)
  let s ← read id
  check (refuseIf (max maxSessions 1 ≤ s.sessions.size) (.conflict "MCP HTTP session capacity exhausted"))
  check (refuseIf (s.sessions.contains session.sessionId ∨
      s.sessions.values.any (·.connectionId = session.connectionId))
    (.conflict "MCP HTTP session already exists"))
  modify fun s => ⟨s.sessions.insert session.sessionId session, s.events.insert session.sessionId [],
    s.nextSequence.insert session.sessionId 1⟩

/-- `load_session`. -/
def loadSession (sessionId : String) : HttpMethod (Option McpHttpSession) :=
  read fun s => s.sessions[sessionId]?

/-- `delete_session`. -/
def deleteSession (sessionId : String) : HttpMethod Bool := do
  let existed ← read fun s => s.sessions[sessionId]?.isSome
  modify (·.remove sessionId)
  pure existed

/-- `purge_expired`. -/
def purgeExpired (nowUnixMs : Nat) : HttpMethod Nat := do
  let expired ← read (·.expired nowUnixMs)
  modify fun s => expired.foldl InMemoryHttpState.remove s
  pure expired.length

/-- `append_event`. -/
def appendEvent [Digest] (sessionId : String) (data : Value) (maxEvents maxEventBytes : Nat) :
    HttpMethod McpSseEvent := do
  check (refuseIf (max maxEventBytes 1 < (jsonText data).utf8ByteSize) oversizedEvent)
  let s ← read id
  check (refuseIf (s.sessions.contains sessionId = false) unregisteredSession)
  let sequence := s.nextSequence[sessionId]?.getD 1
  let event : McpSseEvent := ⟨stableIdentifier "mcp_sse" [sessionId, toString sequence], sequence, data⟩
  modify fun s =>
    { s with
      events := s.events.insert sessionId
        (popFront (max maxEvents 1) (s.events[sessionId]?.getD [] ++ [event]))
      nextSequence := s.nextSequence.insert sessionId (saturatingAdd sequence 1) }
  pure event

/-- Where a replay starts. -/
def replayStart : Option String → Option (List McpSseEvent) → ProtocolResult Nat
  | none, _ => .ok 0
  | some last, some events => (· + 1) <$> okOr (events.findIdx? (·.eventId = last)) unknownCursor
  | some _, none => .error unknownCursor

/-- `replay_events`. -/
def replayEvents (sessionId : String) (lastEventId : Option String) (limit maxBytes : Nat) :
    HttpMethod (List McpSseEvent) := do
  let s ← read id
  check (refuseIf (s.sessions.contains sessionId = false) unregisteredSession)
  let events := s.events[sessionId]?
  let start ← check (replayStart lastEventId events)
  check (collectEvents maxBytes [] 0 (((events.getD []).drop start).take (max limit 1)))

end InMemoryMcpHttpSessionStore

/-! ### In SQLite -/

/-- A row of `aikit_mcp_http_sessions`, without its primary key. -/
structure HttpSessionRow where
  connectionId : String
  subject : String
  tenantId : Option String
  createdAtUnixMs : Int
  expiresAtUnixMs : Int
  nextEventSequence : Int
  deriving DecidableEq

/-- A row of `aikit_mcp_sse_events`. -/
structure SseEventRow where
  sessionId : String
  sequence : Int
  eventId : String
  dataJson : String
  deriving DecidableEq

/-- The tables of HTTP sessions in `SQLITE_MCP_SCHEMA`. -/
structure HttpTables where
  sessions : BTreeMap HttpSessionRow
  events : List SseEventRow

/-- `i64::try_from`, and what is said when a number does not fit. -/
def i64FromU64 (value : Nat) (message : String) : ProtocolResult Int := do
  refuseIf (i64Max < value) (.invalid message)
  pure value

/-- `u64::try_from`. -/
def u64FromI64 (value : Int) (error : ProtocolError) : ProtocolResult Nat := do
  refuseIf (value < 0) error
  pure value.toNat

/-- `sqlite_error`. -/
def sqliteError (error : String) : ProtocolError := .conflict s!"MCP SQLite error: {error}"

namespace HttpTables

/-- The tables that `SqliteMcpStore::from_connection` leaves of an empty database. -/
def new : HttpTables := ⟨∅, []⟩

/-- `DELETE FROM aikit_mcp_http_sessions WHERE …`: the events of a deleted session go with it. -/
def deleteSessions (tx : HttpTables) (gone : String → HttpSessionRow → Bool) : HttpTables where
  sessions := tx.sessions.retain fun sessionId row => !gone sessionId row
  events := tx.events.filter fun event =>
    match tx.sessions[event.sessionId]? with
    | some row => !gone event.sessionId row
    | none => true

/-- How many rows such a delete changes. -/
def changed (tx : HttpTables) (gone : String → HttpSessionRow → Bool) : Nat :=
  (tx.sessions.toList.filter fun entry => gone entry.1 entry.2).length

/-- `INSERT INTO aikit_mcp_http_sessions`. -/
def insertSession (tx : HttpTables) (sessionId : String) (row : HttpSessionRow) : ProtocolResult HttpTables := do
  refuseIf (tx.sessions.contains sessionId)
    (sqliteError "UNIQUE constraint failed: aikit_mcp_http_sessions.session_id")
  refuseIf (tx.sessions.values.any (·.connectionId = row.connectionId))
    (sqliteError "UNIQUE constraint failed: aikit_mcp_http_sessions.connection_id")
  pure { tx with sessions := tx.sessions.insert sessionId row }

/-- `INSERT INTO aikit_mcp_sse_events`. -/
def insertEvent (tx : HttpTables) (row : SseEventRow) : ProtocolResult HttpTables := do
  refuseIf (tx.events.any fun event => event.sessionId = row.sessionId ∧ event.sequence = row.sequence)
    (sqliteError
      "UNIQUE constraint failed: aikit_mcp_sse_events.session_id, aikit_mcp_sse_events.sequence")
  refuseIf (tx.events.any fun event => event.sessionId = row.sessionId ∧ event.eventId = row.eventId)
    (sqliteError
      "UNIQUE constraint failed: aikit_mcp_sse_events.session_id, aikit_mcp_sse_events.event_id")
  refuseIf (tx.sessions.contains row.sessionId = false) (sqliteError "FOREIGN KEY constraint failed")
  pure { tx with events := tx.events ++ [row] }

/-- `UPDATE aikit_mcp_http_sessions SET next_event_sequence = ?1 WHERE session_id = ?2`. -/
def setNextSequence (tx : HttpTables) (sessionId : String) (next : Int) : HttpTables where
  sessions := tx.sessions.map fun id row => if id = sessionId then { row with nextEventSequence := next } else row
  events := tx.events

/-- `SELECT COALESCE(MAX(sequence), 0) FROM aikit_mcp_sse_events WHERE session_id = ?1`. -/
def maxSequence (tx : HttpTables) (sessionId : String) : Int :=
  ((tx.events.filter (·.sessionId = sessionId)).map (·.sequence)).max?.getD 0

/-- Delete the events of a session but for the `keep` last ones. -/
def trimEvents (tx : HttpTables) (sessionId : String) (keep : Int) : HttpTables where
  sessions := tx.sessions
  events := tx.events.filter fun event =>
    !decide (event.sessionId = sessionId ∧ event.sequence ≤ tx.maxSequence sessionId - keep)

/-- The events of a session after a sequence, in order. -/
def eventsAfter (tx : HttpTables) (sessionId : String) (after : Int) (limit : Int) : List SseEventRow :=
  ((tx.events.filter fun event => event.sessionId = sessionId ∧ after < event.sequence).mergeSort
    fun a b => a.sequence ≤ b.sequence).take limit.toNat

end HttpTables

/-- The loop of `replay_events` over its rows, after `events`. -/
def collectRows [JsonReader] (maxBytes : Nat) (events : List McpSseEvent) (retainedBytes : Nat) :
    List SseEventRow → ProtocolResult (List McpSseEvent)
  | [] => .ok events
  | row :: rows =>
    if max maxBytes 1 < saturatingAdd retainedBytes row.dataJson.utf8ByteSize then
      if events = [] then .error oversizedReplay else .ok events
    else do
      let sequence ← u64FromI64 row.sequence (.invalid "negative MCP SSE sequence")
      let data ← (jsonFromStr row.dataJson).mapError fun error =>
        .invalid s!"invalid persisted MCP SSE event: {error}"
      collectRows maxBytes (events ++ [⟨row.eventId, sequence, data⟩])
        (saturatingAdd retainedBytes row.dataJson.utf8ByteSize) rows

/-- A call on the SQLite store, or what it does in its transaction. -/
abbrev HttpSqliteMethod (α : Type) : Type := Method HttpTables ProtocolError α

namespace SqliteMcpStore

/-- The rows that an expiry deletes: `expires_at_unix_ms = 0 OR expires_at_unix_ms <= ?1`. -/
def isOver (now : Int) (row : HttpSessionRow) : Bool :=
  row.expiresAtUnixMs = 0 ∨ row.expiresAtUnixMs ≤ now

/-- `create_session`. -/
def createSession (session : McpHttpSession) (maxSessions : Nat) : HttpSqliteMethod Unit := do
  let createdAt ← check (i64FromU64 session.createdAtUnixMs "MCP HTTP session timestamp exceeds SQLite i64")
  let expiresAt ← check (i64FromU64 session.expiresAtUnixMs "MCP HTTP session timestamp exceeds SQLite i64")
  let bound ← check (i64FromU64 (max maxSessions 1) "MCP HTTP session bound exceeds SQLite i64")
  transaction do
    modify (·.deleteSessions fun _ => isOver createdAt)
    let tx ← read id
    check (refuseIf (bound ≤ (tx.sessions.size : Int)) (.conflict "MCP HTTP session capacity exhausted"))
    let inserted ← check (tx.insertSession session.sessionId
      ⟨session.connectionId, session.subject, session.tenantId, createdAt, expiresAt, 1⟩)
    set inserted
    pure (.commit ())

/-- A row, read back. -/
def sessionOf (sessionId : String) (row : HttpSessionRow) : ProtocolResult McpHttpSession := do
  let createdAt ← u64FromI64 row.createdAtUnixMs (sqliteError "Integer 0 out of range at index 3")
  let expiresAt ← u64FromI64 row.expiresAtUnixMs (sqliteError "Integer 0 out of range at index 4")
  pure ⟨sessionId, row.connectionId, row.subject, row.tenantId, createdAt, expiresAt⟩

/-- `load_session`. -/
def loadSession (sessionId : String) : HttpSqliteMethod (Option McpHttpSession) := do
  let tx ← read id
  match tx.sessions[sessionId]? with
  | some row => check (some <$> sessionOf sessionId row)
  | none => pure none

/-- `delete_session`. -/
def deleteSession (sessionId : String) : HttpSqliteMethod Bool := do
  let changed ← read (·.changed fun id _ => id = sessionId)
  modify (·.deleteSessions fun id _ => id = sessionId)
  pure (changed = 1)

/-- `purge_expired`. -/
def purgeExpired (nowUnixMs : Nat) : HttpSqliteMethod Nat := do
  let now ← check (i64FromU64 nowUnixMs "MCP HTTP session timestamp exceeds SQLite i64")
  let changed ← read (·.changed fun _ => isOver now)
  modify (·.deleteSessions fun _ => isOver now)
  pure changed

/-- `append_event`. -/
def appendEvent [Digest] (sessionId : String) (data : Value) (maxEvents maxEventBytes : Nat) :
    HttpSqliteMethod McpSseEvent := do
  let dataJson := jsonText data
  check (refuseIf (max maxEventBytes 1 < dataJson.utf8ByteSize) oversizedEvent)
  transaction do
    let tx ← read id
    let row ← check (okOr tx.sessions[sessionId]? unregisteredSession)
    let next := row.nextEventSequence
    let sequence ← check (u64FromI64 next (.invalid "invalid MCP SSE sequence"))
    let eventId := stableIdentifier "mcp_sse" [sessionId, toString sequence]
    let inserted ← check (tx.insertEvent ⟨sessionId, next, eventId, dataJson⟩)
    set (inserted.setNextSequence sessionId (min (next + 1) i64Max))
    let keep ← check (i64FromU64 (max maxEvents 1) "MCP SSE event bound exceeds SQLite i64")
    modify (·.trimEvents sessionId keep)
    pure (.commit ⟨eventId, sequence, data⟩)

/-- The sequence that a replay starts after. -/
def replayAfter (tx : HttpTables) (sessionId : String) : Option String → ProtocolResult Int
  | none => .ok 0
  | some eventId =>
    okOr ((tx.events.find? fun event => event.sessionId = sessionId ∧ event.eventId = eventId).map (·.sequence))
      unknownCursor

/-- `replay_events`. -/
def replayEvents [JsonReader] (sessionId : String) (lastEventId : Option String) (limit maxBytes : Nat) :
    HttpSqliteMethod (List McpSseEvent) := do
  let tx ← read id
  check (refuseIf (tx.sessions.contains sessionId = false) unregisteredSession)
  let after ← check (replayAfter tx sessionId lastEventId)
  let limit ← check (i64FromU64 (max limit 1) "MCP SSE replay limit exceeds SQLite i64")
  check (collectRows maxBytes [] 0 (tx.eventsAfter sessionId after limit))

end SqliteMcpStore

/-! ### Calls -/

/-- A call on a store of HTTP sessions. -/
inductive HttpStoreCall where
  | create (session : McpHttpSession) (maxSessions : Nat)
  | load (sessionId : String)
  | delete (sessionId : String)
  | purge (nowUnixMs : Nat)
  | append (sessionId : String) (data : Value) (maxEvents maxEventBytes : Nat)
  | replay (sessionId : String) (lastEventId : Option String) (limit maxBytes : Nat)

/-- What a call returns. -/
inductive HttpStoreAnswer where
  | created
  | session (session : Option McpHttpSession)
  | deleted (existed : Bool)
  | purged (count : Nat)
  | event (event : McpSseEvent)
  | events (events : List McpSseEvent)
  deriving DecidableEq

open InMemoryMcpHttpSessionStore in
/-- The method of a call on the in-memory store. -/
def memoryCall [Digest] : HttpStoreCall → HttpMethod HttpStoreAnswer
  | .create session maxSessions => (fun _ => .created) <$> createSession session maxSessions
  | .load sessionId => .session <$> loadSession sessionId
  | .delete sessionId => .deleted <$> deleteSession sessionId
  | .purge nowUnixMs => .purged <$> purgeExpired nowUnixMs
  | .append sessionId data maxEvents maxEventBytes => .event <$> appendEvent sessionId data maxEvents maxEventBytes
  | .replay sessionId lastEventId limit maxBytes => .events <$> replayEvents sessionId lastEventId limit maxBytes

open SqliteMcpStore in
/-- The method of a call on the SQLite store. -/
def sqliteCall [Digest] [JsonReader] : HttpStoreCall → HttpSqliteMethod HttpStoreAnswer
  | .create session maxSessions => (fun _ => .created) <$> createSession session maxSessions
  | .load sessionId => .session <$> loadSession sessionId
  | .delete sessionId => .deleted <$> deleteSession sessionId
  | .purge nowUnixMs => .purged <$> purgeExpired nowUnixMs
  | .append sessionId data maxEvents maxEventBytes => .event <$> appendEvent sessionId data maxEvents maxEventBytes
  | .replay sessionId lastEventId limit maxBytes => .events <$> replayEvents sessionId lastEventId limit maxBytes

end AikitRuntime.Mcp
