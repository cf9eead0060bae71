import PolyGate.Gateway.Cache
import PolyGate.Gateway.Downstream
import PolyGate.Gateway.Policy

/-!
# `Gateway/ChatCompletions.lean` — a request, from the middleware to its response

The middleware `record_chat_request`, the exception handlers of the application and the handler
`chat_completions` of `gateway/app/main.py`. The handler brings together the cache, the routing, the
two ways of calling a provider and what is recorded; the programs of those modules are embedded.

The response is a status, or a stream whose generator has not started.
-/

namespace PolyGate.Gateway.ChatCompletions

open Lib

/-! ## The outside -/

/-- What keeps a request from the handler. -/
inductive Refusal
  /-- an `HTTPException` of `require_client_api_key`, or a `RequestValidationError` -/
  | status (status : Nat)
  | raised

/-- What `chat_completions` reads of an entry, where it is there and valid. -/
structure CachedEntry where
  answer : Option PyStr
  tokens : Option Tokens

inductive Cmd
  /-- authentication and validation -/
  | admitRequest
  /-- `POLICY_RUNTIME.snapshot()` -/
  | policySnapshot
  | failover (c : Failover.Cmd)
  /-- the clocks, the metrics and the decision store -/
  | record (c : Downstream.Cmd)
  | recordCache (result : String)
  /-- `CACHE.get(key)`; an empty entry is none -/
  | cacheGet (key : String)
  | cacheSet (key : String) (answer : PyStr) (tokens : Tokens)
  /-- the body of a JSON response -/
  | render
  /-- `request.state.defer_metrics_to_stream = True` -/
  | deferMetricsToStream
  /-- `getattr(request.state, "metric_outcome", None)` -/
  | metricOutcome

@[reducible] def Cmd.Reply : Cmd → Type
  | .admitRequest => Except Refusal GatewayRequest
  | .policySnapshot => GatewayPolicySnapshot
  | .failover c => c.Reply
  | .record c => c.Reply
  | .cacheGet _ => Option CachedEntry
  | .recordCache _ | .cacheSet _ _ _ | .deferMetricsToStream => Unit
  | .render => Downstream.Saving
  | .metricOutcome => Option String

/-- What is raised in the application. -/
inductive Exc
  | handler (e : Failover.HandlerExc)
  | record (e : Downstream.Exc)
  | key (e : KeyExc)
  | admission
  | cachedEntry
  | render
  | unicodeEncodeError

/-- `isinstance(e, Exception)` -/
def Exc.isException : Exc → Bool
  | .handler .cancelledError => false
  | .record e => e.isException
  | _ => true

abbrev Gw (α : Type) := Prog Cmd Cmd.Reply Exc α

abbrev Event := Prog.Event Cmd Cmd.Reply

/-- What a gateway is run with, and what its adapters read of a response. -/
structure Deployment where
  providers : List Provider
  hexdigest : ByteArray → String
  ttl : TtlSeconds
  requestId : String
  content : AdapterResult → PyStr
  inputTokens : AdapterResult → Int
  outputTokens : AdapterResult → Int
  /-- what an opened stream has sent and will send -/
  sends : OpenedProviderStream → OpenedEvents × Downstream.Ending

inductive Response
  | answer (status : Nat)
  | stream (s : Downstream.Stream)

/-! ## The handler -/

def failover {α : Type} (p : Failover.Gw α) : Gw α :=
  p.embed (fun c => Prog.perform (Cmd.failover c)) .handler

def record {α : Type} (p : Downstream.Gw α) : Gw α :=
  p.embed (fun c => Prog.perform (Cmd.record c)) .record

def setMetricOutcome (outcome : String) : Gw Unit :=
  Prog.perform (Cmd.failover (.setMetricOutcome outcome))

/-- A JSON response. -/
def respond (status : Nat) : Gw Response := do
  match ← Prog.perform Cmd.render with
  | .returned => return .answer status
  | .raised => throw .render

def latencyMs : Gw Int := Prog.perform (Cmd.record .latencyMs)

section
variable (g : Deployment)

/-- A cache hit. -/
def serveCached (entry : CachedEntry) : Gw Response := do
  Prog.perform (Cmd.recordCache "hit")
  setMetricOutcome "cache_hit"
  let latencyMs ← latencyMs
  match entry.tokens with
  | none => throw .cachedEntry
  | some tokens =>
    let card : DecisionCard :=
      ⟨"cache", .cacheHit, true, 0, latencyMs, tokens, g.requestId, 0, none⟩
    record (Downstream.saveDecision g.ttl card .cacheHit "cache" false 0)
    match entry.answer with
    | none => throw .cachedEntry
    | some _ => respond 200

/-- The first choice, with its `except HTTPException`. -/
def firstChoice (ctx : Failover.Context) (forced : Option Provider) : Gw (Provider × Reason) :=
  match forced with
  | some p => return (p, .forced p.name)
  | none => tryCatch (do
      let sel ← failover (Failover.select ctx ctx.providers)
      return (sel.chosen, .selected sel.reason)) fun e => do
        if let .handler (.httpException _ _) := e then setMetricOutcome "routing_error"
        throw e

/-- The rest of `chat_completions` for `stream` false. -/
def serve (key : Option String) (served : Failover.Served AdapterResult) : Gw Response := do
  let inputTokens := g.inputTokens served.result
  let outputTokens := g.outputTokens served.result
  let cost ← record (Prog.ofOutcome (Downstream.costOf served.chosen inputTokens outputTokens))
  let latencyMs ← latencyMs
  let tokens ← record (Prog.ofOutcome (Downstream.tokensOf inputTokens outputTokens))
  let card := served.card cost latencyMs tokens g.requestId served.result.retries
  record (Downstream.saveDecision g.ttl card .success
    (served.triedNames.head?.getD served.chosen.name) false served.failoverCount)
  record (Downstream.recordUsage served.chosen.name inputTokens outputTokens cost)
  match key with
  | some key =>
    if g.content served.result ≠ [] ∧ served.triedNames.length = 1 then
      Prog.perform (Cmd.cacheSet key (g.content served.result) tokens)
  | none => pure ()
  setMetricOutcome "success"
  respond 200

/-- A header value, in Latin-1. -/
def isLatin1 (s : String) : Bool := s.toList.all fun c => c.toNat < 256

/-- The rest of `_stream_response`, from the opened stream on. -/
def serveStream (req : GatewayRequest) (served : Failover.Served OpenedProviderStream) :
    Gw Response := do
  Prog.perform Cmd.deferMetricsToStream
  let (opened, ending) := g.sends served.result
  if isLatin1 served.chosen.name then
    return .stream ⟨⟨opened, served.chosen, served.reason, served.triedNames⟩, ending,
      served.result.retries, Downstream.includeUsage req, g.requestId, g.ttl⟩
  else throw .unicodeEncodeError

/-- What follows a bypass or a miss. -/
def serveRouted (ctx : Failover.Context) (forced : Option Provider) (key : Option String) :
    Gw Response := do
  let (chosen, reason) ← firstChoice ctx forced
  if ctx.req.stream then
    serveStream g ctx.req (← failover (Failover.streamResponse ctx chosen reason))
  else
    serve g key (← failover (Failover.callNonStream ctx chosen reason))

/-- `chat_completions` -/
def chatCompletions (req : GatewayRequest) : Gw Response := do
  let required ← failover (Prog.ofOutcome (req.requiredCapabilities.mapError .typeError))
  let snapshot : GatewayPolicySnapshot ← Prog.perform Cmd.policySnapshot
  let ctx : Failover.Context := ⟨g.providers, req, req.messageDicts, required, snapshot.gateway⟩
  let forced ← failover (Prog.ofOutcome (Failover.forcedProvider ctx))
  match ← Prog.ofOutcome ((requestKey g.hexdigest req forced snapshot.version).mapError .key) with
  | none =>
    Prog.perform (Cmd.recordCache "bypass")
    serveRouted g ctx forced none
  | some key =>
    match ← Prog.perform (Cmd.cacheGet key) with
    | some entry => serveCached g entry
    | none =>
      Prog.perform (Cmd.recordCache "miss")
      serveRouted g ctx forced (some key)

/-! ## Around the handler -/

/-- `call_next`: what the application answers, with its exception handlers. -/
def callNext : Gw Response :=
  tryCatch (do
    match ← Prog.perform Cmd.admitRequest with
    | .error (.status status) => respond status
    | .error .raised => throw .admission
    | .ok req => chatCompletions g req) fun e =>
      match e with
      | .handler (.httpException status _) => respond status
      | .handler (.providerTimeoutError _) => respond 504
      | e => throw e

/-- The outcome of an answer that does not say its own. -/
def outcomeOfStatus (status : Nat) : String :=
  if 400 ≤ status ∧ status < 500 then "client_error"
  else if 500 ≤ status then "server_error"
  else "success"

def recordRequest (outcome : String) : Gw Unit := Prog.perform (Cmd.record (.recordRequest outcome))

/-- `record_chat_request` for a `POST /v1/chat/completions`. -/
def recordChatRequest : Gw Response := do
  let response ← tryCatch (callNext g) fun e => do
    if e.isException then recordRequest "server_error"
    throw e
  match response with
  | .stream s => return .stream s
  | .answer status =>
    let outcome : Option String ← Prog.perform Cmd.metricOutcome
    recordRequest (outcome.getD (outcomeOfStatus status))
    return .answer status

end

end PolyGate.Gateway.ChatCompletions
