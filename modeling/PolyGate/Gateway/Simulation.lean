import PolyGate.Gateway.Models
import PolyGate.Gateway.Router

/-!
# `Gateway/Simulation.lean` — the routing of a request under a draft

`simulate_routing` of `gateway/app/main.py`. It selects as a chat request does, for a policy that
comes with the request, and calls nobody. What it answers is validated once more: a typical latency
with a fraction is no `int`.
-/

namespace PolyGate.Gateway

open Lib

structure RoutingSimulationRequest where
  request : GatewayRequest
  gatewayPolicy : GatewayRoutingPolicy

structure RoutingSimulationResponse where
  provider : String
  reason : SelectReason
  estimatedCostUsd : ℚ
  typicalLatencyMs : Int

/-- What `simulate_routing` raises. -/
inductive SimulationExc
  /-- 503, with the message of the refusal -/
  | httpException (status : Nat) (detail : RoutingError)
  | typeError (e : TypeError)
  /-- `next` of nothing, which never happens -/
  | stopIteration
  /-- of the response -/
  | validationError

/-- `typical_latency_ms: int`, for `chosen.get("typical_latency_ms", 0)` -/
def typicalLatency (chosen : Provider) : Except SimulationExc Int :=
  let latency := chosen.typicalLatencyMs.getD 0
  if latency.den = 1 then .ok latency.num else .error .validationError

/-- The response for a selection. -/
def simulated (sel : Selection) : Except SimulationExc RoutingSimulationResponse :=
  match sel.candidates.find? fun candidate => candidate.1 = sel.chosen.name with
  | none => .error .stopIteration
  | some candidate => match typicalLatency sel.chosen with
    | .error e => .error e
    | .ok latency => .ok ⟨sel.chosen.name, sel.reason, candidate.2, latency⟩

/-- `simulate_routing` -/
def simulateRouting (providers : List Provider) (health : Health)
    (body : RoutingSimulationRequest) : Except SimulationExc RoutingSimulationResponse :=
  match body.request.requiredCapabilities with
  | .error e => .error (.typeError e)
  | .ok required =>
    match selectProvider providers body.request.messageDicts body.request.polygate health required
        body.gatewayPolicy with
    | .error e => .error (.httpException 503 e)
    | .ok sel => simulated sel

section Cases

variable {providers : List Provider} {health : Health} {body : RoutingSimulationRequest}
  {required : List String} (hrequired : body.request.requiredCapabilities = .ok required)

include hrequired

theorem simulateRouting_of_error {e : RoutingError}
    (h : selectProvider providers body.request.messageDicts body.request.polygate health required
      body.gatewayPolicy = .error e) :
    simulateRouting providers health body = .error (.httpException 503 e) := by
  simp only [simulateRouting, hrequired, h]

theorem simulateRouting_of_ok {sel : Selection}
    (h : selectProvider providers body.request.messageDicts body.request.polygate health required
      body.gatewayPolicy = .ok sel) :
    simulateRouting providers health body = simulated sel := by
  simp only [simulateRouting, hrequired, h]

end Cases

/-- The chosen provider is among the candidates. -/
theorem find_chosen {providers : List Provider} {messages : List Obj} {c : PolygateConstraints}
    {health : Health} {required : List String} {policy : GatewayRoutingPolicy} {sel : Selection}
    (h : selectProvider providers messages c health required policy = .ok sel) :
    ∃ candidate, sel.candidates.find? (fun candidate => candidate.1 = sel.chosen.name) =
      some candidate := by
  have hmem := (mem_gated.mp (selectProvider_mem h)).1
  obtain ⟨⟨pool, budgetRemarks⟩, hb, h⟩ := bind_eq_ok.mp h
  simp only at h
  split_ifs at h
  obtain ⟨⟨latencyPool, latencyRemarks⟩, hl, h⟩ := bind_eq_ok.mp h
  obtain ⟨⟨chosen, note⟩, hp, h⟩ := bind_eq_ok.mp h
  cases h
  apply Option.isSome_iff_exists.mp
  rw [List.find?_isSome]
  exact ⟨_, List.mem_map.mpr ⟨chosen, hmem, rfl⟩, decide_eq_true rfl⟩

theorem typicalLatency_error {chosen : Provider} {e : SimulationExc}
    (h : typicalLatency chosen = .error e) : e = .validationError := by
  unfold typicalLatency at h
  dsimp only at h
  split at h
  · cases h
  · cases h
    rfl

/-- A selection is not refused. -/
theorem simulated_error {sel : Selection} {e : SimulationExc} (h : simulated sel = .error e)
    (status : Nat) (detail : RoutingError) : e ≠ .httpException status detail := by
  unfold simulated at h
  split at h
  · cases h
    exact SimulationExc.noConfusion
  · split at h
    · rename_i err herr
      cases h
      rw [typicalLatency_error herr]
      exact SimulationExc.noConfusion
    · cases h

/-- A refusal is a 503. -/
theorem simulateRouting_status {providers : List Provider} {health : Health}
    {body : RoutingSimulationRequest} {status : Nat} {e : RoutingError}
    (h : simulateRouting providers health body = .error (.httpException status e)) :
    status = 503 := by
  unfold simulateRouting at h
  split at h
  · cases h
  · split at h
    · cases h
      rfl
    · exact absurd rfl (simulated_error h status e)

end PolyGate.Gateway
