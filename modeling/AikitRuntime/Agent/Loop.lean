import AikitRuntime.Agent.Calls

/-!
# The agent loop

Each turn asks the model, records what it said, runs the calls it made, and records their
results; the loop goes on until the model makes no calls, or until a part of a turn leaves
it. `Vars` is what one turn hands to the next, and `Exit` what the loop is left with.
-/

namespace AikitRuntime.Agent

open Library Durability Streaming Governance

/-- The variables of the loop between two turns. -/
structure Vars where
  turn : Nat
  messages : List Message
  retained : RetainedRunBudget
  usage : Usage

/-- How the loop was left. -/
structure Exit where
  turn : Nat
  usage : Usage
  stop : Stop

/-- The assistant message of a turn: reasoning first, then text, citations and calls. -/
def assistantMessage (cfg : RunConfig) (t : Turn) (calls : List ToolCall) : Message where
  role := .assistant
  content :=
    t.reasoning.map (fun (text, signature, opaqueData) =>
      .reasoning text signature (some cfg.providerName) opaqueData) ++
    (if t.text = "" then [] else [.text t.text]) ++
    t.citations.map (fun (text, source, metadata) => .citation text source metadata) ++
    calls.map fun call => .toolUse call.id call.name call.input

variable [ActivityCodec] (c : RunContext)

/-- The turn up to its stream: the messages it is asked with, the attempt, and the deltas. -/
def openTurn (turn : Nat) (messages : List Message) :
    Flow (List Message × Option Attempt × List StreamDelta) := do
  let compacted ← liftM (perform (.compact messages))
  let messages := compacted.getD messages
  emitOrStop c.trail (.requestStarted turn c.cfg.model messages.length c.cfg.tools.length)
  let request := c.cfg.request messages
  let (attempt, reused) ← beginProviderActivity c turn request
  let deltas ← openStream c turn request attempt reused
  pure (messages, attempt, deltas)

/-- Record the message of a turn, run its calls, and record their results. -/
def runTools (turn : Nat) (messages : List Message) (t : Turn) (calls : List ToolCall) : Flow Vars := do
  let assistant := assistantMessage c.cfg t calls
  liftM (perform (.record (.appendMessage assistant)))
  if calls = [] then
    liftM (perform (.record (.finalText t.text)))
    stopWith (t.modelStopReason.getD "end_turn")
  else do
    let (blocks, retained) ← runCalls c turn calls t.retained
    let results : Message := ⟨.tool, blocks⟩
    liftM (perform (.record (.appendMessage results)))
    pure ⟨turn, messages ++ [assistant, results], retained, t.usage⟩

/-- A turn that is within the limit. -/
def runTurn (turn : Nat) (vars : Vars) : Program (Except Exit Vars) := do
  let opened ← (openTurn c turn vars.messages).run
  match opened with
  | .error stop => pure (.error ⟨turn, vars.usage, stop⟩)
  | .ok (messages, attempt, deltas) => do
    let (t, trigger) ← collect c.cfg turn (Turn.start vars.retained vars.usage) deltas
    let ended ← (do
      let calls ← finishStream c turn attempt t trigger
      runTools c turn messages t calls : Flow Vars).run
    match ended with
    | .error stop => pure (.error ⟨turn, t.usage, stop⟩)
    | .ok vars => pure (.ok vars)

omit [ActivityCodec] in
/-- The turn after the last one. -/
def exceedMaxTurns (turn : Nat) : Program Stop := do
  let failure ← terminalFailure c.trail
    ⟨c.runId, turn, .maxTurns, none, none, "max_turns exceeded"⟩ (.new .maxTurns) "max_turns"
  yieldDelta (.error failure.message failure.info)
  pure (.reason (if failure.info.code = .audit then "audit_failure" else failure.reason) false)

/-- `'agent: loop`, with the number of turns that may still be run. -/
def agentLoop : Nat → Vars → Program Exit
  | remaining, vars => do
    let polled ← stopIfTerminated.run
    match polled with
    | .error stop => pure ⟨vars.turn, vars.usage, stop⟩
    | .ok () =>
      match remaining with
      | 0 => do
        let stop ← exceedMaxTurns c (vars.turn + 1)
        pure ⟨vars.turn + 1, vars.usage, stop⟩
      | remaining + 1 => do
        let ended ← runTurn c (vars.turn + 1) vars
        match ended with
        | .error exit => pure exit
        | .ok vars => agentLoop remaining vars

end AikitRuntime.Agent
