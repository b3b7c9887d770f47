import AikitRuntime.ExternalAgent.Frames
import AikitRuntime.Library.Paths
import Mathlib.Logic.Function.Basic
import Std.Data.ExtTreeMap

/-!
# A connection to an external agent

`JsonRpcConnection::request` numbers a request, registers it in the map of the pending requests, hands its frame to the
writer, and waits for its response or for its timeout. Callers, the reader, the writer and whoever stops the connection
run at once. A step is what one of them does without being interrupted: it holds one of the locks, or none. A caller
may drop its future at the two places where it awaits something: while its frame waits for room in the outbound queue,
and while it waits for its response.

The sender half of a request's channel is in the map. When an entry is taken out, the response goes through the channel,
or it is closed.

## Scope

Steps are interleaved in any order; a run that the executor would not schedule is a run here as well. All the other
frames (`notify`, `respond_result`, `respond_error`) are values that are offered to the writer.
-/

namespace AikitRuntime.ExternalAgent

open Library Durability Std

/-! ### Requests -/

/-- What came through the channel of a request. -/
inductive Receiver where
  | empty
  | sent (delivered : Except ExternalAgentError RpcResponse)
  | closed

/-- How a request ends: with a response that came for it, or with an error. -/
inductive Outcome where
  | answered (response : RpcResponse)
  | failed (error : ExternalAgentError)

/-- What a request returns. -/
def Outcome.result (method : String) : Outcome → Except ExternalAgentError Value
  | .answered (.ok result) => .ok result
  | .answered (.error error) =>
    .error (.protocol ("external-agent RPC " ++ "`" ++ method ++ "` failed: " ++ error.message))
  | .failed error => .error error

/-- Where a request is. -/
inductive Phase where
  /-- It has a number. -/
  | numbered
  /-- It is in the map, and sends its frame next. -/
  | registered
  /-- It waits for room in the outbound queue. -/
  | sending (value : Value)
  /-- It waits for its response. -/
  | waiting
  /-- It has failed, and takes itself out of the map next. -/
  | withdrawing (error : ExternalAgentError)
  | finished (outcome : Outcome)
  /-- Its caller has dropped it. -/
  | dropped

/-- Its caller is still waiting for the outcome. -/
def Phase.IsOutstanding : Phase → Prop
  | .registered | .sending _ | .waiting | .withdrawing _ => True
  | .numbered | .finished _ | .dropped => False

/-- A response may come for it. -/
def Phase.IsRegistered : Phase → Prop
  | .registered | .sending _ | .waiting => True
  | .numbered | .withdrawing _ | .finished _ | .dropped => False

structure Call where
  method : String
  params : Value
  id : Int
  receiver : Receiver
  phase : Phase

/-- The outcome of a request whose channel has something, or is closed. -/
def Call.outcome (call : Call) : Outcome :=
  match call.receiver with
  | .sent (.ok response) => .answered response
  | .sent (.error error) => .failed error
  | .empty | .closed => .failed (.protocol ("external-agent RPC " ++ "`" ++ call.method ++ "` response channel closed"))

/-- What a request sends. -/
def Call.payload (dialect : JsonRpcDialect) (call : Call) : Value :=
  message dialect (Value.ofFields
    [("id", .number (if 0 ≤ call.id then .posInt call.id.toNat else .negInt (-call.id).toNat)),
      ("method", .string call.method), ("params", call.params)])

/-! ### The connection -/

inductive Writer where
  | idle
  | writing (frame : List UInt8)
  /-- It has failed, and stops the connection. -/
  | failing
  | gone
  deriving DecidableEq

/-- `JsonRpcConnection`, with its callers and its writer. -/
structure Connection where
  dialect : JsonRpcDialect
  nextId : Int
  /-- The requests that are pending. -/
  pending : ExtTreeMap Int Nat
  stopped : Option String
  /-- Whoever stops the connection has yet to take the requests out of the map. -/
  draining : Option String
  inbound : List RpcInbound
  /-- How many requests were made. -/
  begun : Nat
  calls : Nat → Option Call
  /-- Other values that wait for room in the outbound queue. -/
  offers : List Value
  queue : List (List UInt8)
  writer : Writer
  written : List UInt8

/-- `JsonRpcConnection::new`. -/
def Connection.start (dialect : JsonRpcDialect) : Connection where
  dialect := dialect
  nextId := 1
  pending := ∅
  stopped := none
  draining := none
  inbound := []
  begun := 0
  calls := fun _ => none
  offers := []
  queue := []
  writer := .idle
  written := []

namespace Connection

variable (connection : Connection)

/-- A request is somewhere else. -/
def setPhase (n : Nat) (phase : Phase) : Connection :=
  { connection with
    calls := Function.update connection.calls n ((connection.calls n).map fun call => { call with phase }) }

/-- Something goes through the channel of a request, or closes it. -/
def settle (n : Nat) (receiver : Receiver) : Connection :=
  { connection with
    calls := Function.update connection.calls n ((connection.calls n).map fun call => { call with receiver }) }

/-- `fetch_add(1)`, which wraps around. -/
def nextNumber (id : Int) : Int := (id + 1).bmod (2 ^ 64)

/-- The start of `request`, with its number. -/
def begin (method : String) (params : Value) : Connection :=
  match validateMethod method with
  | .error error =>
    { connection with
      begun := connection.begun + 1
      calls := Function.update connection.calls connection.begun
        (some ⟨method, params, 0, .empty, .finished (.failed error)⟩) }
  | .ok () =>
    { connection with
      nextId := nextNumber connection.nextId
      begun := connection.begun + 1
      calls := Function.update connection.calls connection.begun
        (some ⟨method, params, connection.nextId, .empty,
          if connection.nextId ≤ 0 then
            .finished (.failed ⟨.conflict, "external-agent JSON-RPC request id space is exhausted"⟩)
          else .numbered⟩) }

/-- Take an entry out of the map: its channel is closed, or something goes through it. -/
def take (id : Int) (receiver : Receiver) : Connection :=
  match connection.pending[id]? with
  | none => connection
  | some n => { connection.settle n receiver with pending := connection.pending.erase id }

/-- `request`, while it holds the lock of the map. -/
def register (n : Nat) (call : Call) : Connection :=
  match connection.stopped with
  | some reason => connection.setPhase n (.finished (.failed (.protocol reason)))
  | none =>
    if maxAgentRpcPendingRequests ≤ connection.pending.size then
      connection.setPhase n
        (.finished (.failed ⟨.conflict, "external-agent JSON-RPC pending request capacity was reached"⟩))
    else
      -- What was there under the same number is dropped.
      let replaced := connection.take call.id .closed
      { replaced.setPhase n .registered with pending := replaced.pending.insert call.id n }

/-- `send_value` of a request, up to where it waits. -/
def check [JsonWire] (n : Nat) (call : Call) : Connection :=
  let payload := call.payload connection.dialect
  match sendValue connection.stopped payload with
  | .error error => connection.setPhase n (.withdrawing error)
  | .ok _ => connection.setPhase n (.sending payload)

/-- A frame in the outbound queue. -/
def push (frame : List UInt8) : Connection := { connection with queue := connection.queue ++ [frame] }

/-- `remove_pending`, and the end of the request. -/
def withdraw (n : Nat) (call : Call) (error : ExternalAgentError) : Connection :=
  (connection.take call.id .closed).setPhase n (.finished (.failed error))

/-- The part of `dispatch_message` that changes something. -/
def deliver : Dispatch → Connection
  | .inbound event => { connection with inbound := connection.inbound ++ [event] }
  | .response id response => connection.take id (.sent (.ok response))

/-- The first half of `ConnectionState::stop`. -/
def stop (reason : String) : Connection :=
  match connection.stopped with
  | some _ => connection
  | none => { connection with stopped := some reason, draining := some reason }

/-- The second half: every pending request gets an error. -/
def drain (reason : String) : Connection :=
  { connection with
    pending := ∅
    draining := none
    inbound := connection.inbound ++ [.closed reason]
    calls := fun n =>
      if n ∈ connection.pending.toList.map Prod.snd then
        (connection.calls n).map fun call => { call with receiver := .sent (.error (.protocol reason)) }
      else connection.calls n }

end Connection

/-! ### Steps -/

/-- What happens. -/
inductive RpcEvent where
  | begun
  | registered (call : Nat)
  | checked (call : Nat)
  | offered (value : Value)
  | unoffered (value : Value)
  /-- A frame was handed to the writer, by a request or for another value. -/
  | queued (caller : Option Nat) (value : Value)
  | refused (call : Nat)
  | received (call : Nat)
  | expired (call : Nat)
  | withdrawn (call : Nat)
  | dropped (call : Nat)
  | dispatched (message : Value)
  | stopping (reason : String)
  | drained
  | taken
  | wrote
  | writeFailed
  | writerGone

namespace Connection

variable [JsonWire]

/-- The writer may be handed a frame. -/
def HasRoom (connection : Connection) : Prop :=
  connection.queue.length < maxAgentRpcOutboundQueue ∧ connection.writer ≠ .gone

inductive Step : Connection → RpcEvent → Connection → Prop where
  /-- A caller makes a request, which gets its number. -/
  | begin {s : Connection} (method : String) (params : Value) : Step s .begun (s.begin method params)
  /-- It goes into the map of the pending requests, or is refused there. -/
  | register {s : Connection} {n : Nat} {call : Call} (calls : s.calls n = some call)
    (phase : call.phase = .numbered) : Step s (.registered n) (s.register n call)
  /-- Its frame is made, and it waits for room in the outbound queue. -/
  | check {s : Connection} {n : Nat} {call : Call} (calls : s.calls n = some call)
    (phase : call.phase = .registered) : Step s (.checked n) (s.check n call)
  /-- There is room: the frame is handed to the writer. -/
  | queue {s : Connection} {n : Nat} {call : Call} {value : Value} (calls : s.calls n = some call)
    (phase : call.phase = .sending value) (room : s.HasRoom) :
    Step s (.queued (some n) value) ((s.setPhase n .waiting).push (frameOf value))
  /-- The writer is gone, and nothing takes the frame any more. -/
  | refuse {s : Connection} {n : Nat} {call : Call} {value : Value} (calls : s.calls n = some call)
    (phase : call.phase = .sending value) (gone : s.writer = .gone) :
    Step s (.refused n) (s.setPhase n (.withdrawing (.protocol "external-agent RPC writer is closed")))
  /-- Something came through its channel, or the channel is closed. -/
  | receive {s : Connection} {n : Nat} {call : Call} (calls : s.calls n = some call) (phase : call.phase = .waiting)
    (ready : call.receiver ≠ .empty) : Step s (.received n) (s.setPhase n (.finished call.outcome))
  /-- Its timeout has passed before anything came. -/
  | expire {s : Connection} {n : Nat} {call : Call} (calls : s.calls n = some call) (phase : call.phase = .waiting)
    (unready : call.receiver = .empty) :
    Step s (.expired n) (s.setPhase n
      (.withdrawing ⟨.timeout, "external-agent RPC " ++ "`" ++ call.method ++ "` timed out"⟩))
  /-- It has failed, and takes itself out of the map. -/
  | withdraw {s : Connection} {n : Nat} {call : Call} {error : ExternalAgentError} (calls : s.calls n = some call)
    (phase : call.phase = .withdrawing error) : Step s (.withdrawn n) (s.withdraw n call error)
  /-- Its caller drops it where it awaits something. The entry in the map stays. -/
  | drop {s : Connection} {n : Nat} {call : Call} (calls : s.calls n = some call)
    (awaits : call.phase = .waiting ∨ ∃ value, call.phase = .sending value) :
    Step s (.dropped n) (s.setPhase n .dropped)
  /-- `send_value` of a notification or a response takes the value. -/
  | offer {s : Connection} {value : Value} {frame : List UInt8} (sends : sendValue s.stopped value = .ok frame) :
    Step s (.offered value) { s with offers := s.offers ++ [value] }
  /-- There is room for its frame. -/
  | queueOffer {s : Connection} {value : Value} (offered : value ∈ s.offers) (room : s.HasRoom) :
    Step s (.queued none value) { s.push (frameOf value) with offers := s.offers.erase value }
  /-- Its caller drops it, or the writer is gone. -/
  | withdrawOffer {s : Connection} {value : Value} (offered : value ∈ s.offers) :
    Step s (.unoffered value) { s with offers := s.offers.erase value }
  /-- The reader has read a message that it dispatches. -/
  | dispatch {s : Connection} {message : Value} {dispatch : Dispatch} (read : dispatchOf message = .ok dispatch) :
    Step s (.dispatched message) (s.deliver dispatch)
  /-- The reader, the writer or a caller stops the connection. -/
  | stop {s : Connection} (reason : String) : Step s (.stopping reason) (s.stop reason)
  /-- Whoever has stopped it takes every request out of the map. -/
  | drain {s : Connection} {reason : String} (draining : s.draining = some reason) : Step s .drained (s.drain reason)
  /-- The writer takes the next frame. -/
  | take {s : Connection} {frame : List UInt8} {rest : List (List UInt8)} (idle : s.writer = .idle)
    (queue : s.queue = frame :: rest) : Step s .taken { s with queue := rest, writer := .writing frame }
  /-- The whole frame is written. -/
  | write {s : Connection} {frame : List UInt8} (writing : s.writer = .writing frame) :
    Step s .wrote { s with written := s.written ++ frame, writer := .idle }
  /-- Some of it may be written when the write fails. -/
  | failWrite {s : Connection} {frame : List UInt8} (count : Nat) (writing : s.writer = .writing frame) :
    Step s .writeFailed { s with written := s.written ++ frame.take count, writer := .failing }
  /-- The writer ends, once the connection is stopped. -/
  | leave {s : Connection} (failing : s.writer = .failing) (stopped : s.stopped ≠ none) :
    Step s .writerGone { s with writer := .gone }

end Connection

end AikitRuntime.ExternalAgent
