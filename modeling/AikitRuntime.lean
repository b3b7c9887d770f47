import AikitRuntime.Durability.Atomicity
import AikitRuntime.Durability.Executions
import AikitRuntime.Durability.Leases
import AikitRuntime.Durability.Grants
import AikitRuntime.Budget.Accounts
import AikitRuntime.Sessions.Fencing
import AikitRuntime.Journal.Mutations
import AikitRuntime.Journal.Restores
import AikitRuntime.Journal.Refinement
import AikitRuntime.Agent.Outcomes
import AikitRuntime.Agent.Transcripts
import AikitRuntime.Agent.Spans
import AikitRuntime.Governance.Interleaving
import AikitRuntime.Mcp.Strangers
import AikitRuntime.Mcp.Reloading
import AikitRuntime.Mcp.Waiters
import AikitRuntime.Traces.Agreement
import AikitRuntime.A2a.Fencing
import AikitRuntime.Governance.Policy
import AikitRuntime.Mcp.HttpRequests
import AikitRuntime.Providers.AnthropicStreams
import AikitRuntime.Mcp.SessionStores
import AikitRuntime.Governance.Replays
import AikitRuntime.Agent.Compaction
import AikitRuntime.Governance.Snapshots
import AikitRuntime.A2a.Rfc3339
import AikitRuntime.A2a.Persistence
import AikitRuntime.A2a.Replays
import AikitRuntime.A2a.FairBatches
import AikitRuntime.A2a.Listings
import AikitRuntime.ExternalAgent.ConnectionRuns
import AikitRuntime.ExternalAgent.Stderr
import AikitRuntime.Providers.AnthropicLines
import AikitRuntime.Memory.StoreRuns
import AikitRuntime.Sessions.Boundaries
