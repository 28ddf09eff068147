import MultiAgent.Native.Diagnostics.Health
import MultiAgent.Native.Planner.OrderLoop
import MultiAgent.Native.Planner.Paths
import MultiAgent.Native.Planner.RoundTrip
import MultiAgent.Native.Planner.Supervised
import MultiAgent.Native.Recovery.Cancellation
import MultiAgent.Native.Recovery.Eviction
import MultiAgent.Native.Recovery.Markers
import MultiAgent.Native.Recovery.SingleFlight
import MultiAgent.Native.Recovery.Validity
import MultiAgent.Native.Runner.Isolation
import MultiAgent.Native.Scheduler.Containment
import MultiAgent.Native.Strategies.Threading
import MultiAgent.Native.Supervisor.Runs
import MultiAgent.Plugin.AgentCalls
import MultiAgent.Plugin.Ambient
import MultiAgent.Plugin.Budget.Reservations
import MultiAgent.Plugin.Budget.Slots
import MultiAgent.Plugin.CallRecords
import MultiAgent.Plugin.Executor
import MultiAgent.Plugin.Http.Traffic
import MultiAgent.Plugin.Mcp.Serve
import MultiAgent.Plugin.Planning.Capabilities
import MultiAgent.Plugin.Redaction
import MultiAgent.Plugin.Registration
import MultiAgent.Plugin.Retry
import MultiAgent.Plugin.RunRegistry
import MultiAgent.Plugin.Scheduler.Ceiling
import MultiAgent.Plugin.Scheduler.Dispatch
import MultiAgent.Plugin.Scheduler.Finality
import MultiAgent.Plugin.Scheduler.Timeouts
import MultiAgent.Plugin.Scheduler.Tokens
import MultiAgent.Plugin.Service.Isolation
import MultiAgent.Plugin.Sessions.Expiry
import MultiAgent.Plugin.Strategies.Supervision
