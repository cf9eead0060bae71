import PolyGate.Gateway.Decisions
import PolyGate.Gateway.Retry

/-!
# `Gateway/Failover.lean` — trying providers until one answers

The two loops of `gateway/app/main.py`, `_call_non_stream` and the opening of `_stream_response`,
with the selection that precedes them. The loops are duplicated in the source; here they are one
loop with what they differ in as a parameter.

A round is one command that calls the chosen provider, with whatever
`call_provider_with_resilience` or `open_provider_stream_with_resilience` comes to as its answer;
the health map is read anew for each selection. The loop ends because every fallback is a provider
whose name has not been tried.
-/

namespace PolyGate.Gateway.Failover

open Lib

/-! ## The outside -/

inductive Cmd
  /-- `call_provider_with_resilience(chosen, …)` -/
  | callProvider (p : Provider)
  /-- `open_provider_stream_with_resilience(chosen, …)` -/
  | openStream (p : Provider)
  /-- `BREAKER.health_snapshot()` -/
  | healthSnapshot
  /-- `time.monotonic() >= deadline` -/
  | deadlineExpired
  | recordProvider (name outcome : String)
  | recordFailover (failed fallback : String)
  | recordBudgetExhausted (phase : String)
  | recordStream (outcome : String)
  /-- `request.state.metric_outcome = …` -/
  | setMetricOutcome (outcome : String)

@[reducible] def Cmd.Reply : Cmd → Type
  | .callProvider _ => Except Raised AdapterResult
  | .openStream _ => Except Raised OpenedProviderStream
  | .healthSnapshot => Health
  | .deadlineExpired => Bool
  | .recordProvider _ _ | .recordFailover _ _ | .recordBudgetExhausted _ | .recordStream _
  | .setMetricOutcome _ => Unit

/-- The `detail` of an `HTTPException`. -/
inductive Detail
  /-- "未知的 provider: …" -/
  | unknownProvider (model : String)
  /-- "privacy=high 禁止强制路由到外部 Provider …" -/
  | externalForbidden (name : String)
  /-- "provider … 不支持请求所需能力: …" -/
  | missingCapabilities (name : String) (missing : List String)
  | routing (e : RoutingError)
  /-- "所有 Provider 均不可用，最后失败: …", with the type of the exception -/
  | allFailed (exc : Exc)

/-- What the handler raises. -/
inductive HandlerExc
  | httpException (status : Nat) (detail : Detail)
  | providerTimeoutError (message : String)
  | typeError (e : TypeError)
  | cancelledError

abbrev Gw (α : Type) := Prog Cmd Cmd.Reply HandlerExc α

abbrev Event := Prog.Event Cmd Cmd.Reply

/-! ## Selecting -/

/-- What does not change while a request is handled. -/
structure Context where
  /-- `PROVIDERS` -/
  providers : List Provider
  req : GatewayRequest
  messages : List Obj
  requiredCapabilities : List String
  /-- `policy_snapshot.gateway` -/
  policy : GatewayRoutingPolicy

structure Selected (candidates : List Provider) where
  chosen : Provider
  reason : SelectReason
  mem : chosen ∈ candidates

variable (ctx : Context)

/-- `_select` -/
def select (candidates : List Provider) : Gw (Selected candidates) := do
  let health : Health ← Prog.perform Cmd.healthSnapshot
  match h : selectProvider candidates ctx.messages ctx.req.polygate health
      ctx.requiredCapabilities ctx.policy with
  | .ok sel => return ⟨sel.chosen, sel.reason, (mem_gated.mp (selectProvider_mem h)).1⟩
  | .error e => throw (.httpException 503 (.routing e))

/-- `_forced_provider` -/
def forcedProvider : Except HandlerExc (Option Provider) :=
  if ctx.req.model = "auto" then .ok none
  else
    match ctx.providers.find? fun p => p.name = ctx.req.model with
    | none => .error (.httpException 400 (.unknownProvider ctx.req.model))
    | some forced =>
      if ctx.req.polygate.privacy = .high ∧ fieldIs "external" forced.privacy then
        .error (.httpException 403 (.externalForbidden forced.name))
      else
        let missing := missingCapabilities forced ctx.requiredCapabilities
        if missing ≠ [] then
          .error (.httpException 400
            (.missingCapabilities forced.name (sortedCapabilities missing)))
        else .ok (some forced)

/-- The first choice: the forced provider, or a selection from the registry. -/
def route : Gw (Provider × Reason) := do
  match ← Prog.ofOutcome (forcedProvider ctx) with
  | some forced => return (forced, .forced forced.name)
  | none =>
    let sel ← select ctx ctx.providers
    return (sel.chosen, .selected sel.reason)

/-! ## The loop -/

/-- What the two loops differ in. -/
structure Variant (α : Type) where
  attempt : Provider → Gw (Except Raised α)
  /-- `result.retries += failed_retries` -/
  addRetries : α → Nat → α
  /-- what a result is followed by before the loop is left -/
  succeeded : Provider → Gw Unit
  /-- the argument of `record_budget_exhausted` -/
  phase : String
  timeoutMessage : String
  recordStream : String → Gw Unit

structure Served (α : Type) where
  result : α
  chosen : Provider
  reason : Reason
  triedNames : List String

/-- `isinstance(exc, (httpx.TimeoutException, TimeoutError))`; a `RetryBudgetExceededError` is a
`TimeoutError`. -/
def providerTimedOut : Exc → Bool
  | .provider .timeoutException | .provider .timeoutError | .retryBudgetExceeded _ => true
  | _ => false

/-- `_request_budget_exhausted` -/
def requestBudgetExhausted : Exc → Gw Bool
  | .retryBudgetExceeded _ => pure true
  | _ => Prog.perform Cmd.deadlineExpired

section Loop

variable {α : Type} (v : Variant α)

/-- The end of a request whose budget is used up. -/
def stopOverBudget {β : Type} : Gw β := do
  Prog.perform (Cmd.setMetricOutcome "provider_timeout")
  Prog.perform (Cmd.recordBudgetExhausted v.phase)
  v.recordStream "timeout"
  throw (.providerTimeoutError v.timeoutMessage)

/-- The end of a request with no provider left to try. -/
def giveUp {β : Type} (timedOut : Bool) (exc : Exc) : Gw β :=
  if timedOut then do
    Prog.perform (Cmd.setMetricOutcome "provider_timeout")
    v.recordStream "timeout"
    throw (.providerTimeoutError v.timeoutMessage)
  else do
    Prog.perform (Cmd.setMetricOutcome "provider_error")
    v.recordStream "open_error"
    throw (.httpException 502 (.allFailed exc))

/-- `[provider for provider in PROVIDERS if provider["name"] not in tried_names]` -/
def untried (tried : List String) : List Provider :=
  ctx.providers.filter fun p => p.name ∉ tried

/-- The candidates for a fallback. -/
def remaining (tried : List String) : List Provider :=
  if ctx.req.model ≠ "auto" then [] else untried ctx tried

theorem untried_length_lt {tried : List String} {p : Provider} (h : p ∈ remaining ctx tried) :
    (untried ctx (tried ++ [p.name])).length < (untried ctx tried).length := by
  have hp : p ∈ untried ctx tried := by
    unfold remaining at h
    split_ifs at h
    · cases h
    · exact h
  have hsub : untried ctx (tried ++ [p.name]) =
      (untried ctx tried).filter fun q => q.name ≠ p.name := by
    unfold untried
    rw [List.filter_filter]
    congr 1
    funext q
    simp [not_or, and_comm]
  rw [hsub]
  exact List.length_filter_lt_length_iff_exists.mpr ⟨p, hp, by simp⟩

/-- The `try` around `_select`, with `none` for a refusal. -/
def selectFallback (candidates : List Provider) : Gw (Option (Selected candidates)) :=
  tryCatch (do return some (← select ctx candidates)) fun
    | .httpException _ _ => return none
    | e => throw e

/-- The `except` clause of both loops, for an attempt with `chosen`, the last of `tried`: another
provider to try, or the end. -/
def afterFailure (chosen : Provider) (tried : List String) (exc : Exc) :
    Gw (Selected (remaining ctx tried)) := do
  -- a cancellation is no `Exception`
  if exc = .cancelledError then throw .cancelledError
  else
    let budgetExhausted ← requestBudgetExhausted exc
    let timedOut := budgetExhausted || providerTimedOut exc
    Prog.perform (Cmd.recordProvider chosen.name (if timedOut then "timeout" else "error"))
    if budgetExhausted then stopOverBudget v
    else if remaining ctx tried = [] then giveUp v timedOut exc
    else
      match ← selectFallback ctx (remaining ctx tried) with
      | none => giveUp v timedOut exc
      | some fallback => return fallback

/-- `while True` of both loops. -/
def failover (chosen : Provider) (reason : Reason) (triedNames : List String)
    (failedRetries : Nat) : Gw (Served α) := do
  let tried := triedNames ++ [chosen.name]
  match ← v.attempt chosen with
  | .ok result =>
    v.succeeded chosen
    return ⟨v.addRetries result failedRetries, chosen, reason, tried⟩
  | .error raised =>
    let fallback ← afterFailure ctx v chosen tried raised.exc
    Prog.perform (Cmd.recordFailover chosen.name fallback.chosen.name)
    failover fallback.chosen
      (.failedOver reason chosen.name fallback.chosen.name fallback.reason) tried
      (failedRetries + raised.polygateRetries.getD 0)
termination_by (untried ctx (triedNames ++ [chosen.name])).length
decreasing_by exact untried_length_lt ctx fallback.mem

end Loop

def nonStream : Variant AdapterResult where
  attempt p := Prog.perform (Cmd.callProvider p)
  addRetries result failedRetries := { result with retries := result.retries + failedRetries }
  succeeded p := Prog.perform (Cmd.recordProvider p.name "success")
  phase := "non_stream"
  timeoutMessage := "Provider 调用超过网关时间预算"
  recordStream _ := pure ()

def streamOpen : Variant OpenedProviderStream where
  attempt p := Prog.perform (Cmd.openStream p)
  addRetries opened failedRetries := { opened with retries := opened.retries + failedRetries }
  -- the stream is counted when it has been relayed
  succeeded _ := pure ()
  phase := "stream_start"
  timeoutMessage := "Provider 流式响应启动超过网关时间预算"
  recordStream outcome := Prog.perform (Cmd.recordStream outcome)

/-- `_call_non_stream` -/
def callNonStream (chosen : Provider) (reason : Reason) : Gw (Served AdapterResult) :=
  failover ctx nonStream chosen reason [] 0

/-- The loop of `_stream_response`, up to the opened stream. -/
def streamResponse (chosen : Provider) (reason : Reason) : Gw (Served OpenedProviderStream) :=
  failover ctx streamOpen chosen reason [] 0

/-! ## A request that is not answered from the cache -/

/-- What a request is served under: its capabilities may fail to be computed. -/
def context (providers : List Provider) (req : GatewayRequest) (policy : GatewayRoutingPolicy) :
    Except HandlerExc Context :=
  match req.requiredCapabilities with
  | .ok required => .ok ⟨providers, req, req.messageDicts, required, policy⟩
  | .error e => .error (.typeError e)

/-- `chat_completions` for a request with `stream` false, after a cache miss. -/
def chatNonStream (providers : List Provider) (req : GatewayRequest)
    (policy : GatewayRoutingPolicy) : Gw (Served AdapterResult) := do
  let ctx ← Prog.ofOutcome (context providers req policy)
  let (chosen, reason) ← route ctx
  callNonStream ctx chosen reason

/-- `chat_completions` for a request with `stream` true. -/
def chatStream (providers : List Provider) (req : GatewayRequest)
    (policy : GatewayRoutingPolicy) : Gw (Served OpenedProviderStream) := do
  let ctx ← Prog.ofOutcome (context providers req policy)
  let (chosen, reason) ← route ctx
  streamResponse ctx chosen reason

/-! ## What is recorded of a served request -/

namespace Served

variable {α : Type} (s : Served α)

/-- `tried_names[0] if len(tried_names) > 1 else None` -/
def failoverFrom : Option String := if 1 < s.triedNames.length then s.triedNames.head? else none

/-- `len(tried_names) - 1` -/
def failoverCount : Int := s.triedNames.length - 1

/-- The card of a served request. -/
def card (costEstimateUsd : ℚ) (latencyMs : Int) (tokens : Tokens) (requestId : String)
    (retries : Nat) : DecisionCard where
  chosenProvider := s.chosen.name
  reason := s.reason
  cacheHit := false
  costEstimateUsd := costEstimateUsd
  latencyMs := latencyMs
  tokens := tokens
  requestId := requestId
  retries := retries
  failoverFrom := s.failoverFrom

end Served

end PolyGate.Gateway.Failover
