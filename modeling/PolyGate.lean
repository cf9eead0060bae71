import PolyGate.Lib.Prog
import PolyGate.Lib.Run
import PolyGate.Lib.RelyGuarantee
import PolyGate.Lib.Session
import PolyGate.Lib.ZSet
import PolyGate.Lib.Except
import PolyGate.Lib.Choice
import PolyGate.Lib.PyFloat
import PolyGate.Lib.Cut
import PolyGate.Lib.PyRepr
import PolyGate.Lib.Json
import PolyGate.Lib.PyStr
import PolyGate.Lib.Lines
import PolyGate.Lib.ReadFloat
import PolyGate.Lib.JsonText
import PolyGate.Lib.Ecma
import PolyGate.Lib.JsonDumps
import PolyGate.Lib.JsonCut
import PolyGate.Lib.JsonRead
import PolyGate.Lib.PyInt
import PolyGate.Lib.PyDict
import PolyGate.Lib.JsonPatch
import PolyGate.Lib.Pydantic
import PolyGate.Automation.Models
import PolyGate.Automation.PolicyModels
import PolyGate.Automation.PolicyJson
import PolyGate.Automation.Redis
import PolyGate.Automation.RedisStore
import PolyGate.Automation.Worker
import PolyGate.Automation.Queue.Sequential
import PolyGate.Automation.Queue.Submission
import PolyGate.Automation.Queue.Recovery
import PolyGate.Automation.Queue.Representation
import PolyGate.Automation.Queue.Concurrent
import PolyGate.Automation.Queue.Terminal
import PolyGate.Automation.Queue.Attempts
import PolyGate.Automation.Queue.Fairness
import PolyGate.Automation.PolicyRepository
import PolyGate.Automation.KubernetesPolicyRepository
import PolyGate.Automation.PolicyManager
import PolyGate.Automation.PolicyApi
import PolyGate.Automation.PolicyRuntime
import PolyGate.Automation.Policy.NextDocument
import PolyGate.Automation.Policy.History
import PolyGate.Automation.Policy.Readiness
import PolyGate.Automation.Policy.Activation
import PolyGate.Automation.Policy.Durability
import PolyGate.Gateway.Policy
import PolyGate.Gateway.LastKnownGood
import PolyGate.Gateway.SamePolicies
import PolyGate.PolicyConvergence
import PolyGate.Gateway.Models
import PolyGate.Gateway.Cost
import PolyGate.Gateway.CircuitBreaker
import PolyGate.Gateway.BreakerLaw
import PolyGate.Gateway.Router
import PolyGate.Gateway.BestProvider
import PolyGate.Gateway.IrrelevantAlternatives
import PolyGate.Gateway.Registry
import PolyGate.Gateway.Adapters
import PolyGate.Gateway.CapabilityGate
import PolyGate.Gateway.TextForms
import PolyGate.Gateway.Decisions
import PolyGate.Gateway.Retry
import PolyGate.Gateway.TwinLoops
import PolyGate.Gateway.Failover
import PolyGate.Gateway.Guardrails
import PolyGate.Gateway.SafeFailover
import PolyGate.Gateway.RetryAccounting
import PolyGate.Gateway.Sse
import PolyGate.Gateway.SseRoundTrip
import PolyGate.Gateway.Downstream
import PolyGate.Gateway.Relay
import PolyGate.Gateway.Settlement
import PolyGate.Gateway.ChatCompletions
import PolyGate.Gateway.CountedOnce
import PolyGate.Gateway.Cache
import PolyGate.Gateway.CompleteKey
import PolyGate.Gateway.CachedAnswers
import PolyGate.Gateway.Probe
import PolyGate.Gateway.SingleProbe
import PolyGate.Web.GatewayClient
import PolyGate.Web.Chunking
import PolyGate.Gateway.AcceptedRequests
import PolyGate.Gateway.ProviderAnswers
import PolyGate.Gateway.FirstChunk
import PolyGate.Web.Conversations
import PolyGate.Web.PrivateHistory
import PolyGate.Automation.Policy.FailedCommit
import PolyGate.Automation.Queue.FairnessWindow
import PolyGate.Automation.Queue.FirstCome
import PolyGate.Gateway.DecisionStore
import PolyGate.Gateway.Simulation
import PolyGate.Gateway.PredictedRouting
import PolyGate.PolicyPreview
import PolyGate.Lib.Dict
import PolyGate.Automation.InMemoryStore
import PolyGate.Automation.StoreProtocol
import PolyGate.Lib.StableSort
import PolyGate.CaseIds
import PolyGate.Automation.CompilePreview
import PolyGate.Lib.PyLiteral
import PolyGate.Lib.ShellWords
import PolyGate.Automation.Snippets
import PolyGate.PreviewOrder
import PolyGate.Authentication
import PolyGate.Gateway.AdapterHeap
import PolyGate.Gateway.ProviderPayload
import PolyGate.Automation.PolicyAdmin
import PolyGate.PolicyDiff
import PolyGate.Lib.Threads
import PolyGate.Gateway.Connections
import PolyGate.Lib.Zod
import PolyGate.Web.Storage
import PolyGate.Web.StorageRoundTrip
import PolyGate.Web.StoredRuns
import PolyGate.Web.PageRuns
import PolyGate.Automation.PolicyFields
import PolyGate.Automation.AdminPage
import PolyGate.Automation.AdminRuns
import PolyGate.Lib.Timed
import PolyGate.Gateway.TimeBudget
import PolyGate.Lib.JsonDialects
import PolyGate.StreamReading
import PolyGate.StreamAgreement
import PolyGate.SentChunks
