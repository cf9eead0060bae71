import Mathlib.Data.List.Dedup
import PolyGate.Automation.PolicyApi
import PolyGate.Automation.Policy.NextDocument
import PolyGate.Lib.JsonPatch
import PolyGate.Gateway.BestProvider
import PolyGate.Gateway.Simulation

/-!
# `PolicyPreview.lean` — previewing a draft

`POST /v1/admin/policies/preview` of `automation/app/main.py`, and what it asks the Gateway: each
case is simulated under the active policy and then each under the draft. The Gateway answers a case
that no provider may take with 503, as it answers a chat request, and for the simulator of
Automation every status that is no success says that the simulation is unavailable. So one such case
among many is the end of the preview (`preview_iff`).
-/

namespace PolyGate.PolicyPreview

open Lib
open Automation (AutomationIntent Body PolicyDraft PolicyVersion Scenario Urgency)
open Gateway (Health Provider RoutingSimulationRequest)

/-! ## Requests -/

/-- `GatewaySimulationRequest`: the Gateway's request model again, with its fields and checks. -/
abbrev GatewaySimulationRequest := Gateway.GatewayRequest

structure PolicyPreviewRequest where
  policy : PolicyDraft
  gatewayCases : List GatewaySimulationRequest
  priorityCases : List AutomationIntent

/-- A message without the `None`s that `exclude_none` leaves out. -/
def sentMessage (m : Gateway.Message) : Gateway.Message :=
  { m with
    extra := m.extra.filter fun e => !e.2.isNone
    extra_other := fun e he => m.extra_other e (List.mem_of_mem_filter he) }

theorem sent_pos {messages : List Gateway.Message} (h : 1 ≤ messages.length) :
    1 ≤ (messages.map sentMessage).length := by
  rwa [List.length_map]

/-- What the Gateway reads of `case.model_dump(mode="json", exclude_none=True)`. -/
def sent (case : GatewaySimulationRequest) : Gateway.GatewayRequest :=
  { case with
    messages := case.messages.map sentMessage
    messages_pos := sent_pos case.messages_pos }

/-- What a message is to the Gateway does not change on the way. -/
theorem modelDump_sentMessage (m : Gateway.Message) : (sentMessage m).modelDump = m.modelDump := by
  unfold sentMessage Gateway.Message.modelDump
  simp only [List.filter_filter, Bool.and_self]

theorem anyM_map {α : Type} (f : Gateway.Message → Except α Bool)
    (h : ∀ m, f (sentMessage m) = f m) (messages : List Gateway.Message) :
    (messages.map sentMessage).anyM f = messages.anyM f := by
  induction messages with
  | nil => rfl
  | cons m messages ih =>
    rw [List.map_cons, List.anyM_cons, List.anyM_cons, h m, ih]

/-- What a request needs does not change either. -/
theorem requiredCapabilities_sent (case : GatewaySimulationRequest) :
    (sent case).requiredCapabilities = case.requiredCapabilities := by
  unfold sent Gateway.GatewayRequest.requiredCapabilities
  dsimp only
  rw [anyM_map _ fun m => rfl, List.any_map]
  rfl

theorem messageDicts_sent (case : GatewaySimulationRequest) :
    (sent case).messageDicts = case.messageDicts := by
  show (case.messages.map sentMessage).map _ = _
  rw [List.map_map]
  exact List.map_congr_left fun m _ => modelDump_sentMessage m

/-- A case is simulated as what it is. -/
theorem simulateRouting_sent (providers : List Provider) (health : Health)
    (case : GatewaySimulationRequest) (policy : Gateway.GatewayRoutingPolicy) :
    Gateway.simulateRouting providers health ⟨sent case, policy⟩ =
      Gateway.simulateRouting providers health ⟨case, policy⟩ := by
  unfold Gateway.simulateRouting
  dsimp only
  rw [requiredCapabilities_sent, messageDicts_sent]
  rfl

/-! ## The simulator -/

/-- What a request to the simulate endpoint comes to. -/
inductive Reply
  /-- an `httpx.HTTPError` -/
  | httpError
  | response (status : Nat) (body : Body)

inductive Cmd
  /-- `POST /internal/routing/simulate` -/
  | post (body : RoutingSimulationRequest)

abbrev Cmd.Reply : Cmd → Type
  | .post _ => PolicyPreview.Reply

inductive Exc | gatewaySimulationUnavailable | recursionError
  deriving DecidableEq, Repr

abbrev Call := Prog Cmd Cmd.Reply Exc

abbrev Event := Prog.Event Cmd Cmd.Reply

/-- `raise_for_status()`, `json()` and the check for a `dict`. -/
def received : Reply → Except Exc Obj
  | .httpError => .error .gatewaySimulationUnavailable
  | .response status body =>
    if 200 ≤ status ∧ status < 300 then
      match body with
      | .json (.obj result) => .ok result
      | .tooDeep => .error .recursionError
      | .notJson | .json _ => .error .gatewaySimulationUnavailable
    else .error .gatewaySimulationUnavailable

/-- `HttpGatewaySimulator.simulate` -/
def simulate (draft : PolicyDraft) : List GatewaySimulationRequest → Call (List Obj)
  | [] => return []
  | case :: cases => do
    let reply : Reply ← Prog.perform (Cmd.post ⟨sent case, draft.gateway⟩)
    let result ← Prog.ofOutcome (received reply)
    let results ← simulate draft cases
    return result :: results

/-! ## Priorities -/

/-- `disambiguate_case_id`: the id of an occurrence, and the counts after it. -/
def disambiguateCaseId (slug : String) (slugCounts : String → Nat) : String × (String → Nat) :=
  let occurrence := slugCounts slug + 1
  (if occurrence = 1 then slug else slug ++ "-" ++ toString occurrence,
    Function.update slugCounts slug occurrence)

/-- The ids of cases in their order. -/
def caseIds : List String → (String → Nat) → List String
  | [], _ => []
  | slug :: slugs, slugCounts =>
    let (caseId, slugCounts) := disambiguateCaseId slug slugCounts
    caseId :: caseIds slugs slugCounts

def urgencyValue : Urgency → String
  | .critical => "critical"
  | .high => "high"
  | .normal => "normal"
  | .low => "low"

/-- `scenario.value.replace("_", "-")` -/
def scenarioSlug : Scenario → String
  | .productionIncident => "production-incident"
  | .customerEscalation => "customer-escalation"
  | .financeSummary => "finance-summary"
  | .marketingBatch => "marketing-batch"

def urgencyScore (policy : PolicyDraft) : Urgency → Nat
  | .critical => policy.automation.urgencyScores.critical
  | .high => policy.automation.urgencyScores.high
  | .normal => policy.automation.urgencyScores.normal
  | .low => policy.automation.urgencyScores.low

def scenarioWeight (policy : PolicyDraft) : Scenario → Nat
  | .productionIncident => policy.automation.scenarios.productionIncident.weight
  | .customerEscalation => policy.automation.scenarios.customerEscalation.weight
  | .financeSummary => policy.automation.scenarios.financeSummary.weight
  | .marketingBatch => policy.automation.scenarios.marketingBatch.weight

/-- `_score` -/
def score (policy : PolicyDraft) (intent : AutomationIntent) : Nat :=
  urgencyScore policy intent.urgency + scenarioWeight policy intent.scenario

structure PrioritySimulation where
  caseId : String
  beforeScore : Nat
  afterScore : Nat
  deriving DecidableEq, Repr

/-- `preview_priority` -/
def previewPriority (draft : PolicyDraft) (intents : List AutomationIntent)
    (activePolicy : PolicyDraft) : List PrioritySimulation :=
  let slugs := intents.map fun intent =>
    urgencyValue intent.urgency ++ "-" ++ scenarioSlug intent.scenario
  List.zipWith (fun caseId intent => ⟨caseId, score activePolicy intent, score draft intent⟩)
    (caseIds slugs fun _ => 0) intents

/-- `sorted(priority, key=…, reverse=True)`, which is stable. -/
def sortedByScore (key : PrioritySimulation → Nat) (priority : List PrioritySimulation) :
    List PrioritySimulation :=
  priority.mergeSort fun a b => key b ≤ key a

/-! ## The difference of two policies -/

structure Change where
  path : PyStr
  before : Json
  after : Json

/-- `sorted(set(before) | set(after))` -/
def changedKeys (before after : Obj) : List PyStr :=
  ((before.map (·.1) ++ after.map (·.1)).dedup).mergeSort fun a b => decide (a ≤ b)

/-- `_policy_diff` -/
def policyDiff : Json → Json → PyStr → List Change
  | .obj before, .obj after, path =>
    (changedKeys before after).flatMap fun key =>
      policyDiff (child before key) (child after key)
        (if path = [] then key else path ++ str "." ++ key)
  | before, after, path => if before.eq after then [] else [⟨path, before, after⟩]
termination_by before => sizeOf before
decreasing_by exact sizeOf_child before key

/-! ## The preview -/

structure RoutingSimulation where
  caseId : String
  before : Obj
  after : Obj

/-- The content of the response. -/
structure PreviewContent where
  baseVersion : Nat
  diff : List Change
  warnings : List String
  routing : List RoutingSimulation
  priority : List PrioritySimulation
  beforeOrder : List String
  afterOrder : List String

/-- `manager.validate`: whoever has a draft has a valid one. -/
def validate (_draft : PolicyDraft) : List String := []

/-- `zip(cases, before_routing, after_routing)`, with the id of each case. -/
def routingSimulations (cases : List GatewaySimulationRequest) (before after : List Obj) :
    List RoutingSimulation :=
  let slugs := (List.zip cases (List.zip before after)).map fun e =>
    e.1.polygate.quality.value ++ "-" ++ e.1.polygate.privacy.value
  List.zipWith (fun caseId results => ⟨caseId, results.1, results.2⟩) (caseIds slugs fun _ => 0)
    (List.zip before after)

/-- `preview_policy` -/
def previewPolicy (active : PolicyVersion) (request : PolicyPreviewRequest) :
    Call PreviewContent := do
  let priority := previewPriority request.policy request.priorityCases active.policy
  let beforeRouting ← simulate active.policy request.gatewayCases
  let afterRouting ← simulate request.policy request.gatewayCases
  return {
    baseVersion := active.version
    diff := policyDiff active.policy.json request.policy.json []
    warnings := validate request.policy
    routing := routingSimulations request.gatewayCases beforeRouting afterRouting
    priority := priority
    beforeOrder := (sortedByScore (·.beforeScore) priority).map (·.caseId)
    afterOrder := (sortedByScore (·.afterScore) priority).map (·.caseId) }

inductive Response
  /-- 200 -/
  | preview (content : PreviewContent)
  /-- 503, "gateway simulation unavailable" -/
  | unavailable
  /-- 500 -/
  | internalServerError

/-- The response, with `gateway_simulation_unavailable` as the handler of that exception. -/
def respond : Except Exc PreviewContent → Response
  | .ok content => .preview content
  | .error .gatewaySimulationUnavailable => .unavailable
  | .error .recursionError => .internalServerError

/-! ## The Gateway's part -/

/-- The body of a response of the simulate endpoint, with the text that `reason` stands for. -/
def responseJson (r : Gateway.RoutingSimulationResponse) (reason : PyStr) : Obj :=
  [(str "provider", .str (str r.provider)), (str "reason", .str reason),
   (str "estimated_cost_usd", .float (.ofRat r.estimatedCostUsd)),
   (str "typical_latency_ms", .int r.typicalLatencyMs)]

/-- How the Gateway answers a simulation, in some health of its providers. -/
inductive Answers (providers : List Provider) : Event → Prop
  | routed {body : RoutingSimulationRequest} {r : Gateway.RoutingSimulationResponse}
      (health : Health) (routes : Gateway.simulateRouting providers health body = .ok r)
      (reason : PyStr) :
      Answers providers ⟨.post body, .response 200 (.json (.obj (responseJson r reason)))⟩
  | refused {body : RoutingSimulationRequest} {e : Gateway.RoutingError} (health : Health)
      (status : Nat) (refuses : Gateway.simulateRouting providers health body =
        .error (.httpException status e)) (detail : Body) :
      Answers providers ⟨.post body, .response status detail⟩
  | raised {body : RoutingSimulationRequest} {e : Gateway.SimulationExc} (health : Health)
      (raises : Gateway.simulateRouting providers health body = .error e)
      (other : ∀ status detail, e ≠ .httpException status detail) (text : Body) :
      Answers providers ⟨.post body, .response 500 text⟩

variable (providers : List Provider)

/-- The Gateway finds a provider. -/
inductive Routed : Event → Prop
  | mk {body : RoutingSimulationRequest} {r : Gateway.RoutingSimulationResponse} (health : Health)
      (routes : Gateway.simulateRouting providers health body = .ok r) (reason : PyStr) :
      Routed ⟨.post body, .response 200 (.json (.obj (responseJson r reason)))⟩

/-- `result` is what the Gateway answers for a case. -/
def Simulates (draft : PolicyDraft) (case : GatewaySimulationRequest) (result : Obj) : Prop :=
  ∃ health r reason, Gateway.simulateRouting providers health ⟨case, draft.gateway⟩ = .ok r ∧
    result = responseJson r reason

/-- One entry before and one after for each case. -/
structure OneEach (active : PolicyVersion) (request : PolicyPreviewRequest)
    (content : PreviewContent) : Prop where
  routing : List.Forall₂ (fun case entry => Simulates providers active.policy case entry.before ∧
    Simulates providers request.policy case entry.after) request.gatewayCases content.routing
  priority : content.priority.length = request.priorityCases.length

/-- There was no answer, or it says that it is an error, or it is malformed. -/
def Unusable : Reply → Prop
  | .httpError => True
  | .response status body => ¬ (200 ≤ status ∧ status < 300) ∨ body = .notJson ∨
    ∃ v, body = .json v ∧ ∀ result, v ≠ .obj result

/-! ## Simulating the cases -/

section Simulating

variable {providers : List Provider} {es : List Event}

/-- The Gateway's answer for a provider is taken, every other one is not. -/
theorem received_of_answers {body : RoutingSimulationRequest} {reply : Reply}
    (h : Answers providers ⟨.post body, reply⟩) :
    (Routed providers ⟨.post body, reply⟩ ∧ ∃ health r reason,
      Gateway.simulateRouting providers health body = .ok r ∧
        received reply = .ok (responseJson r reason)) ∨
    (¬ Routed providers ⟨.post body, reply⟩ ∧
      received reply = .error .gatewaySimulationUnavailable) := by
  cases h with
  | routed health routes reason =>
    exact Or.inl ⟨.mk health routes reason, health, _, reason, routes, rfl⟩
  | refused health status refuses detail =>
    obtain rfl := Gateway.simulateRouting_status refuses
    refine Or.inr ⟨fun hr => ?_, rfl⟩
    cases hr
  | raised health raises other text =>
    refine Or.inr ⟨fun hr => ?_, rfl⟩
    cases hr

/-- Either every case gets its result, or one has no provider. -/
theorem emits_simulate {draft : PolicyDraft} {cases : List GatewaySimulationRequest}
    {o : Except Exc (List Obj)} (hrun : Prog.Emits (simulate draft cases) es o)
    (hanswers : ∀ e ∈ es, Answers providers e) :
    (∃ results, o = .ok results ∧ List.Forall₂ (Simulates providers draft) cases results ∧
      ∀ e ∈ es, Routed providers e) ∨
    (o = .error .gatewaySimulationUnavailable ∧ ∃ e ∈ es, ¬ Routed providers e) := by
  induction cases generalizing es o with
  | nil =>
    obtain ⟨rfl, rfl⟩ := Prog.emits_ret.mp hrun
    exact Or.inl ⟨[], rfl, .nil, fun e he => absurd he List.not_mem_nil⟩
  | cons case cases ih =>
    simp only [simulate, Prog.perform_bind, Prog.emits_cmd, Prog.onReply_ok] at hrun
    obtain ⟨reply, es, rfl, hrun⟩ := hrun
    obtain ⟨hfirst, hrest⟩ := List.forall_mem_cons.mp hanswers
    rcases received_of_answers hfirst with ⟨hrouted, health, r, reason, hroutes, hreceived⟩ |
      ⟨hnot, hreceived⟩
    · simp only [hreceived, Prog.ofOutcome, Prog.ret_bind] at hrun
      rcases Prog.emits_bind.mp hrun with ⟨es₁, es₂, results, rfl, hsim, hret⟩ | ⟨e, hsim, rfl⟩
      · rcases ih hsim fun e he => hrest e (List.mem_append_left _ he) with
          ⟨results', heq, hall, hes⟩ | ⟨heq, -⟩
        · cases heq
          obtain ⟨rfl, rfl⟩ := Prog.emits_ret.mp hret
          rw [List.append_nil] at hrest ⊢
          exact Or.inl ⟨_, rfl, .cons ⟨health, r, reason,
            (simulateRouting_sent ..).symm.trans hroutes, rfl⟩ hall,
            List.forall_mem_cons.mpr ⟨hrouted, hes⟩⟩
        · cases heq
      · rcases ih hsim hrest with ⟨results', heq, -⟩ | ⟨heq, e', he', hnot⟩
        · cases heq
        · cases heq
          exact Or.inr ⟨rfl, e', List.mem_cons_of_mem _ he', hnot⟩
    · simp only [hreceived, Prog.ofOutcome, Prog.raise_bind] at hrun
      obtain ⟨rfl, rfl⟩ := Prog.emits_raise.mp hrun
      exact Or.inr ⟨rfl, _, List.mem_cons_self, hnot⟩

/-- Who finds the simulation unavailable has got an answer that is unusable, or none. -/
theorem unusable_of_received {reply : Reply}
    (h : received reply = .error .gatewaySimulationUnavailable) : Unusable reply := by
  unfold received at h
  split at h
  · trivial
  · split at h
    · split at h
      · cases h
      · cases h
      · exact Or.inr (Or.inl rfl)
      · rename_i v hv
        exact Or.inr (Or.inr ⟨v, rfl, hv⟩)
    · rename_i hstatus
      exact Or.inl hstatus

theorem unusable_of_emits {draft : PolicyDraft} {cases : List GatewaySimulationRequest}
    (hrun : Prog.Emits (simulate draft cases) es (.error .gatewaySimulationUnavailable)) :
    ∃ body reply, (⟨.post body, reply⟩ : Event) ∈ es ∧ Unusable reply := by
  induction cases generalizing es with
  | nil => cases (Prog.emits_ret.mp hrun).2
  | cons case cases ih =>
    simp only [simulate, Prog.perform_bind, Prog.emits_cmd, Prog.onReply_ok] at hrun
    obtain ⟨reply, es, rfl, hrun⟩ := hrun
    cases hreceived : received reply with
    | error e =>
      simp only [hreceived, Prog.ofOutcome, Prog.raise_bind] at hrun
      obtain ⟨rfl, heq⟩ := Prog.emits_raise.mp hrun
      cases heq
      exact ⟨_, reply, List.mem_cons_self, unusable_of_received hreceived⟩
    | ok result =>
      simp only [hreceived, Prog.ofOutcome, Prog.ret_bind] at hrun
      rcases Prog.emits_bind.mp hrun with ⟨es₁, es₂, results, rfl, -, hret⟩ | ⟨e, hsim, heq⟩
      · cases (Prog.emits_ret.mp hret).2
      · cases heq
        obtain ⟨body, reply', hmem, hunusable⟩ := ih hsim
        exact ⟨body, reply', List.mem_cons_of_mem _ hmem, hunusable⟩

end Simulating

/-! ## What a preview comes to -/

section Preview

variable {providers : List Provider} {es : List Event}
  {active : PolicyVersion} {request : PolicyPreviewRequest} {o : Except Exc PreviewContent}

theorem length_caseIds (slugs : List String) (slugCounts : String → Nat) :
    (caseIds slugs slugCounts).length = slugs.length := by
  induction slugs generalizing slugCounts with
  | nil => rfl
  | cons slug slugs ih => exact congrArg Nat.succ (ih _)

/-- Zipped, the results stay with their cases. -/
theorem forall₂_routingSimulations {cases : List GatewaySimulationRequest}
    {R R' : GatewaySimulationRequest → Obj → Prop} {before after : List Obj}
    (hbefore : List.Forall₂ R cases before) (hafter : List.Forall₂ R' cases after) :
    List.Forall₂ (fun case entry => R case entry.before ∧ R' case entry.after) cases
      (routingSimulations cases before after) := by
  unfold routingSimulations
  generalize (fun _ => 0 : String → Nat) = slugCounts
  induction hbefore generalizing after slugCounts with
  | nil =>
    cases hafter
    exact .nil
  | cons h hbefore ih =>
    cases hafter with
    | cons h' hafter => exact .cons ⟨h, h'⟩ (ih hafter _)

theorem length_previewPriority (draft : PolicyDraft) (intents : List AutomationIntent)
    (activePolicy : PolicyDraft) :
    (previewPriority draft intents activePolicy).length = intents.length := by
  unfold previewPriority
  rw [List.length_zipWith, length_caseIds, List.length_map, min_self]

/-- A preview has an entry for each case, unless the Gateway has found no provider for one. -/
theorem emits_previewPolicy (hrun : Prog.Emits (previewPolicy active request) es o)
    (hanswers : ∀ e ∈ es, Answers providers e) :
    (∃ content, o = .ok content ∧ OneEach providers active request content ∧
      ∀ e ∈ es, Routed providers e) ∨
    (o = .error .gatewaySimulationUnavailable ∧ ∃ e ∈ es, ¬ Routed providers e) := by
  rcases Prog.emits_bind.mp hrun with ⟨es₁, es₂, before, rfl, hbefore, hrun⟩ | ⟨e, hbefore, rfl⟩
  · have hanswers₂ := fun e he => hanswers e (List.mem_append_right es₁ he)
    rcases emits_simulate hbefore fun e he => hanswers e (List.mem_append_left _ he) with
      ⟨_, heq, hall, hrouted⟩ | ⟨heq, -⟩
    · cases heq
      rcases Prog.emits_bind.mp hrun with ⟨es₂, es₃, after, rfl, hafter, hret⟩ | ⟨e, hafter, rfl⟩
      · obtain ⟨rfl, rfl⟩ := Prog.emits_ret.mp hret
        rw [List.append_nil] at hanswers₂ ⊢
        rcases emits_simulate hafter hanswers₂ with ⟨_, heq, hall', hrouted'⟩ | ⟨heq, -⟩
        · cases heq
          exact Or.inl ⟨_, rfl, ⟨forall₂_routingSimulations hall hall',
            length_previewPriority ..⟩, fun e he => (List.mem_append.mp he).elim (hrouted e)
              (hrouted' e)⟩
        · cases heq
      · rcases emits_simulate hafter hanswers₂ with ⟨_, heq, -⟩ | ⟨heq, e', he', hnot⟩
        · cases heq
        · cases heq
          exact Or.inr ⟨rfl, e', List.mem_append_right _ he', hnot⟩
    · cases heq
  · rcases emits_simulate hbefore hanswers with ⟨_, heq, -⟩ | ⟨heq, e', he', hnot⟩
    · cases heq
    · cases heq
      exact Or.inr ⟨rfl, e', he', hnot⟩

theorem unusable_of_previewPolicy
    (hrun : Prog.Emits (previewPolicy active request) es (.error .gatewaySimulationUnavailable)) :
    ∃ body reply, (⟨.post body, reply⟩ : Event) ∈ es ∧ Unusable reply := by
  rcases Prog.emits_bind.mp hrun with ⟨es₁, es₂, before, rfl, -, hrun⟩ | ⟨e, hbefore, heq⟩
  · rcases Prog.emits_bind.mp hrun with ⟨es₂, es₃, after, rfl, -, hret⟩ | ⟨e, hafter, heq⟩
    · cases (Prog.emits_ret.mp hret).2
    · cases heq
      obtain ⟨body, reply, hmem, hunusable⟩ := unusable_of_emits hafter
      exact ⟨body, reply, List.mem_append_right _ hmem, hunusable⟩
  · cases heq
    exact unusable_of_emits hbefore

/-- **With every case answered, a preview succeeds exactly if the Gateway finds a provider for every
case under both policies**, and is unavailable otherwise; whatever is answered, it is unavailable
only if an answer is missing, an error or malformed. -/
theorem preview_iff (hrun : Prog.Emits (previewPolicy active request) es o) :
    ((∀ e ∈ es, Answers providers e) →
      ((∃ content, respond o = .preview content ∧ OneEach providers active request content) ↔
        ∀ e ∈ es, Routed providers e) ∧
      ((∃ e ∈ es, ¬ Routed providers e) → respond o = .unavailable)) ∧
    (respond o = .unavailable →
      ∃ body reply, (⟨.post body, reply⟩ : Event) ∈ es ∧ Unusable reply) := by
  constructor
  · intro hanswers
    rcases emits_previewPolicy hrun hanswers
      with ⟨content, rfl, heach, hrouted⟩ | ⟨rfl, e, he, hnot⟩
    · exact ⟨iff_of_true ⟨content, rfl, heach⟩ hrouted,
        fun ⟨e, he, hnot⟩ => absurd (hrouted e he) hnot⟩
    · refine ⟨iff_of_false (fun ⟨content, heq, _⟩ => ?_) fun hrouted => hnot (hrouted e he),
        fun _ => rfl⟩
      cases heq
  · intro hunavailable
    cases o with
    | ok content => cases hunavailable
    | error e =>
      cases e with
      | gatewaySimulationUnavailable => exact unusable_of_previewPolicy hrun
      | recursionError => cases hunavailable

end Preview

/-! ## A draft with a hard budget -/

/-- One provider, which is not free. -/
def oneMock : List Provider :=
  [Gateway.BestProvider.entry "mock-x" "mock" "internal" (1 / 1000) 300]

theorem one_le_auto : 1 ≤ "auto".length := by decide

theorem one_le_hello : 1 ≤ [Gateway.Message.user (str "hello")].length := by decide

/-- A case that may cost nothing. -/
def freeCase : GatewaySimulationRequest :=
  .plain "auto" [.user (str "hello")] (Gateway.BestProvider.noBudget .balanced) one_le_auto
    one_le_hello

/-- The active policy relaxes the budget, the draft does not. -/
def hardDraft : PolicyDraft :=
  { Automation.exampleDraft with gateway := Gateway.BestProvider.hardPolicy }

def freePreview : PolicyPreviewRequest := ⟨hardDraft, [freeCase], []⟩

theorem routes_soft : ∃ r, Gateway.simulateRouting oneMock (fun _ => none)
    ⟨sent freeCase, Automation.exampleDraft.gateway⟩ = .ok r := by
  obtain ⟨r, hr, -⟩ := @exists_eq_ok _ _ (Gateway.simulateRouting oneMock (fun _ => none)
    ⟨sent freeCase, Automation.exampleDraft.gateway⟩) (fun r => r.provider = "mock-x") _
    (by decide +kernel)
  exact ⟨r, hr⟩

theorem refuses_hard : ∃ e, Gateway.simulateRouting oneMock (fun _ => none)
    ⟨sent freeCase, hardDraft.gateway⟩ = .error (.httpException 503 e) := by
  obtain ⟨e, he, -⟩ := @exists_eq_error _ _
    (Gateway.selectProvider oneMock (sent freeCase).messageDicts (sent freeCase).polygate
      (fun _ => none) [] hardDraft.gateway) (fun e => e = .noBudget (.ofRat 0)) _
        (by decide +kernel)
  exact ⟨e, Gateway.simulateRouting_of_error rfl he⟩

def refusal : Body :=
  .json (.obj [(str "detail", .str (str "no provider satisfies budget $0.0"))])

/-- The case is routed before and refused after. -/
theorem emits_freePreview (detail : Body) : ∃ es,
    Prog.Emits (previewPolicy Automation.seedRecord freePreview) es
      (.error .gatewaySimulationUnavailable) ∧
    (∀ e ∈ es, Answers oneMock e) ∧ ∃ e ∈ es, ¬ Routed oneMock e := by
  obtain ⟨r, hroutes⟩ := routes_soft
  obtain ⟨e, hrefuses⟩ := refuses_hard
  have hrefused : Answers oneMock
      ⟨.post ⟨sent freeCase, hardDraft.gateway⟩, .response 503 detail⟩ :=
    .refused _ 503 hrefuses detail
  refine ⟨[⟨.post ⟨sent freeCase, Automation.exampleDraft.gateway⟩,
      .response 200 (.json (.obj (responseJson r (str "mock-x"))))⟩,
    ⟨.post ⟨sent freeCase, hardDraft.gateway⟩, .response 503 detail⟩], ?_, ?_, ?_⟩
  · exact ⟨_, _, rfl, _, _, rfl, rfl, rfl⟩
  · exact List.forall_mem_cons.mpr ⟨.routed _ hroutes _, List.forall_mem_singleton.mpr hrefused⟩
  · refine ⟨_, List.mem_cons_of_mem _ List.mem_cons_self, fun h => ?_⟩
    cases h

/-- A draft that leaves one case without a provider cannot be previewed, though every exchange with
the Gateway has completed. -/
theorem unroutable_not_previewed : ∃ es o,
    Prog.Emits (previewPolicy Automation.seedRecord freePreview) es o ∧
    (∀ e ∈ es, Answers oneMock e) ∧ respond o = .unavailable ∧
    ∀ content, respond o ≠ .preview content := by
  obtain ⟨es, hrun, hanswers, -⟩ := emits_freePreview refusal
  refine ⟨es, _, hrun, hanswers, rfl, fun content h => ?_⟩
  cases h

theorem preview_iff_hard : ∃ es o,
    Prog.Emits (previewPolicy Automation.seedRecord freePreview) es o ∧
    respond o = .unavailable ∧
      ∃ body reply, (⟨.post body, reply⟩ : Event) ∈ es ∧ Unusable reply := by
  obtain ⟨es, hrun, hanswers, hnot⟩ := emits_freePreview refusal
  obtain ⟨hanswered, hunusable⟩ := @preview_iff oneMock _ _ _ _ hrun
  have hunavailable := (hanswered hanswers).2 hnot
  exact ⟨es, _, hrun, hunavailable, hunusable hunavailable⟩

end PolyGate.PolicyPreview
