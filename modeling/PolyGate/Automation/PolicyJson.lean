import PolyGate.Lib.Pydantic
import PolyGate.Automation.PolicyModels

/-!
# `Automation/PolicyJson.lean` — policies as JSON

How `policy_models.py` reads a policy from JSON and what `model_dump_json` writes. Numbers are
read strictly. `readActivePolicyResponse_json` is the round trip: what is served reads back
as it was.

The Gateway reads the `gateway` section with a model of its own that has the same fields and
bounds and is not strict, so the reader of that section takes the number validators as parameters.

`balanced_price_tolerance` and `max_cost_usd` are kept as the numbers they hold. A `nan`, which
passes the bounds of pydantic, is set aside: it is read as a body that does not validate.
-/

namespace PolyGate.Automation

open Lib Pydantic

/-! ## Reading -/

def modeChoices : List (String × Mode) := [("soft", .soft), ("hard", .hard)]

def strategyChoices : List (String × HighQualityStrategy) :=
  [("prefer_real", .preferReal), ("lowest_cost", .lowestCost)]

def gatewayFields : List String :=
  ["assumed_output_tokens", "balanced_price_tolerance", "budget_mode", "latency_mode",
   "high_quality_strategy"]

/-- `GatewayPolicy`, and `GatewayRoutingPolicy` of the Gateway, for their number fields. -/
def readGatewayPolicy (int : Validator Int) (float : Validator PyFloat) :
    Validator GatewayPolicy := fun v => do
  let o ← model gatewayFields v
  let tokens ← required o "assumed_output_tokens" (intIn int 1 32768)
  let tolerance ← required o "balanced_price_tolerance" (numberIn float 0 2)
  let budgetMode ← required o "budget_mode" (literal modeChoices)
  let latencyMode ← required o "latency_mode" (literal modeChoices)
  let strategy ← required o "high_quality_strategy" (literal strategyChoices)
  return ⟨tokens, tolerance, budgetMode, latencyMode, strategy, tokens.2, tolerance.2⟩

section Numbers
variable {int int' : Validator Int} {float float' : Validator PyFloat}

/-- Only the number fields depend on the number validators. -/
theorem readGatewayPolicy_eq_some {v : Json} {p : GatewayPolicy}
    (h : readGatewayPolicy int float v = some p)
    (hint : ∀ o n, v = .obj o → required o "assumed_output_tokens" (intIn int 1 32768) = some n →
      required o "assumed_output_tokens" (intIn int' 1 32768) = some n)
    (hfloat : ∀ o q, v = .obj o →
      required o "balanced_price_tolerance" (numberIn float 0 2) = some q →
      required o "balanced_price_tolerance" (numberIn float' 0 2) = some q) :
    readGatewayPolicy int' float' v = some p := by
  unfold readGatewayPolicy at h ⊢
  simp only [Option.bind_eq_bind, Option.bind_eq_some_iff] at h ⊢
  obtain ⟨o, ho, tokens, htokens, tolerance, htolerance, hrest⟩ := h
  have hv : v = .obj o := model_eq_some ho
  exact ⟨o, ho, tokens, hint o tokens hv htokens, tolerance, hfloat o tolerance hv htolerance,
    hrest⟩

/-- Number validators that take more take more sections, and read the same. -/
theorem readGatewayPolicy_extends (hint : Extends int int') (hfloat : Extends float float') :
    Extends (readGatewayPolicy int float) (readGatewayPolicy int' float') := fun _ _ h =>
  readGatewayPolicy_eq_some h (fun _ _ _ => Extends.required (hint.bind _))
    fun _ _ _ => by
      rw [numberIn_eq, numberIn_eq]
      exact Extends.required (hfloat.bind _)

end Numbers

def qualityChoices : List (String × Quality) :=
  [("cheap", .cheap), ("balanced", .balanced), ("high", .high)]

def privacyChoices : List (String × Privacy) := [("standard", .standard), ("high", .high)]

def readPreferences : Validator Preferences := fun v => do
  let o ← model ["quality", "privacy", "max_cost_usd", "latency_target_ms"] v
  let quality ← required o "quality" (literal qualityChoices)
  let privacy ← required o "privacy" (literal privacyChoices)
  let maxCost ← required o "max_cost_usd" (numberIn strictFloat 0 10)
  let latency ← required o "latency_target_ms" (intIn strictInt 1 120000)
  return ⟨quality, privacy, maxCost, latency, maxCost.2, latency.2⟩

def readUrgencyScores : Validator UrgencyScores := fun v => do
  let o ← model ["critical", "high", "normal", "low"] v
  let critical ← required o "critical" (intIn strictInt 0 1000)
  let high ← required o "high" (intIn strictInt 0 1000)
  let normal ← required o "normal" (intIn strictInt 0 1000)
  let low ← required o "low" (intIn strictInt 0 1000)
  if h : critical.1 > high.1 ∧ high.1 > normal.1 ∧ normal.1 > low.1 then
    some ⟨critical, high, normal, low, critical.2.2, h⟩
  else none

def readQueuePolicy : Validator QueuePolicy := fun v => do
  let o ← model ["waiting_bonus_interval_seconds", "waiting_bonus_points", "waiting_bonus_cap",
    "starvation_streak_threshold", "starvation_wait_seconds"] v
  let interval ← required o "waiting_bonus_interval_seconds" (intIn strictInt 1 3600)
  let points ← required o "waiting_bonus_points" (intIn strictInt 0 100)
  let cap ← required o "waiting_bonus_cap" (intIn strictInt 0 1000)
  let threshold ← required o "starvation_streak_threshold" (intIn strictInt 1 100)
  let wait ← required o "starvation_wait_seconds" (intIn strictInt 1 86400)
  return ⟨interval, points, cap, threshold, wait, interval.2, points.2.2, cap.2.2, threshold.2,
    wait.2⟩

def readScenarioPolicy : Validator ScenarioPolicy := fun v => do
  let o ← model ["weight", "defaults"] v
  let weight ← required o "weight" (intIn strictInt 0 500)
  let defaults ← required o "defaults" readPreferences
  return ⟨weight, defaults, weight.2.2⟩

def readScenarios : Validator Scenarios := fun v => do
  let o ← model ["production_incident", "customer_escalation", "finance_summary",
    "marketing_batch"] v
  let productionIncident ← required o "production_incident" readScenarioPolicy
  let customerEscalation ← required o "customer_escalation" readScenarioPolicy
  let financeSummary ← required o "finance_summary" readScenarioPolicy
  let marketingBatch ← required o "marketing_batch" readScenarioPolicy
  return ⟨productionIncident, customerEscalation, financeSummary, marketingBatch⟩

def readAutomationPolicy : Validator AutomationPolicy := fun v => do
  let o ← model ["urgency_scores", "scenarios", "queue"] v
  let urgencyScores ← required o "urgency_scores" readUrgencyScores
  let scenarios ← required o "scenarios" readScenarios
  let queue ← required o "queue" readQueuePolicy
  if h : scenarios.financeSummary.defaults.privacy = .high then
    some ⟨urgencyScores, scenarios, queue, h⟩
  else none

def draftFields : List String := ["schema_version", "gateway", "automation"]

def readPolicyDraft : Validator PolicyDraft := fun v => do
  let o ← model draftFields v
  required o "schema_version" (literalInt 1)
  let gateway ← required o "gateway" (readGatewayPolicy strictInt strictFloat)
  let automation ← required o "automation" readAutomationPolicy
  return ⟨gateway, automation⟩

/-- How pydantic writes a `datetime`, and reads one. -/
structure DatetimeFormat where
  write : Time → PyStr
  read : Validator Time
  /-- with a time zone only -/
  readZoned : Validator Time
  read_write : ∀ t, read (.str (write t)) = some t
  readZoned_write : ∀ t, readZoned (.str (write t)) = some t

def responseFields : List String := ["version", "schema_version", "published_at", "policy"]

/-- `ActivePolicyResponse.model_validate` -/
def readActivePolicyResponse (datetime : Validator Time) :
    Validator ActivePolicyResponse := fun v => do
  let o ← model responseFields v
  let version ← required o "version" (intFrom strictInt 1)
  required o "schema_version" (literalInt 1)
  let publishedAt ← required o "published_at" datetime
  let policy ← required o "policy" readPolicyDraft
  return ⟨version, 1, publishedAt, policy⟩

def statusChoices : List (String × VersionStatus) := [("active", .active), ("archived", .archived)]

def versionFields : List String :=
  ["version", "status", "created_at", "created_by", "change_note", "rollback_from", "policy"]

def readPolicyVersion (datetime : DatetimeFormat) : Validator PolicyVersion := fun v => do
  let o ← model versionFields v
  let version ← required o "version" (intFrom strictInt 1)
  let status ← required o "status" (literal statusChoices)
  let createdAt ← required o "created_at" datetime.readZoned
  let createdBy ← required o "created_by" text
  let changeNote ← required o "change_note" text
  let rollbackFrom ← required o "rollback_from" (nullable strictInt)
  let policy ← required o "policy" readPolicyDraft
  (PolicyVersion.validate version status createdAt createdBy changeNote rollbackFrom
    policy).toOption

/-- `PolicyStoreDocument.model_validate_json` -/
def readPolicyStoreDocument (datetime : DatetimeFormat) :
    Validator PolicyStoreDocument := fun v => do
  let o ← model ["active_version", "versions"] v
  let activeVersion ← required o "active_version" (intFrom strictInt 1)
  let versions ← required o "versions" (listOf (readPolicyVersion datetime))
  (PolicyStoreDocument.validate activeVersion versions).toOption

/-! ## Writing -/

def Mode.json : Mode → Json
  | .soft => .str (str "soft")
  | .hard => .str (str "hard")

def HighQualityStrategy.json : HighQualityStrategy → Json
  | .preferReal => .str (str "prefer_real")
  | .lowestCost => .str (str "lowest_cost")

def Quality.json : Quality → Json
  | .cheap => .str (str "cheap")
  | .balanced => .str (str "balanced")
  | .high => .str (str "high")

def Privacy.json : Privacy → Json
  | .standard => .str (str "standard")
  | .high => .str (str "high")

def GatewayPolicy.json (p : GatewayPolicy) : Json := .obj
  [(str "assumed_output_tokens", .int p.assumedOutputTokens),
   (str "balanced_price_tolerance", .float (.ofRat p.balancedPriceTolerance)),
   (str "budget_mode", p.budgetMode.json),
   (str "latency_mode", p.latencyMode.json),
   (str "high_quality_strategy", p.highQualityStrategy.json)]

def Preferences.json (p : Preferences) : Json := .obj
  [(str "quality", p.quality.json),
   (str "privacy", p.privacy.json),
   (str "max_cost_usd", .float (.ofRat p.maxCostUsd)),
   (str "latency_target_ms", .int p.latencyTargetMs)]

def UrgencyScores.json (u : UrgencyScores) : Json := .obj
  [(str "critical", .int u.critical),
   (str "high", .int u.high),
   (str "normal", .int u.normal),
   (str "low", .int u.low)]

def QueuePolicy.json (q : QueuePolicy) : Json := .obj
  [(str "waiting_bonus_interval_seconds", .int q.waitingBonusIntervalSeconds),
   (str "waiting_bonus_points", .int q.waitingBonusPoints),
   (str "waiting_bonus_cap", .int q.waitingBonusCap),
   (str "starvation_streak_threshold", .int q.starvationStreakThreshold),
   (str "starvation_wait_seconds", .int q.starvationWaitSeconds)]

def ScenarioPolicy.json (s : ScenarioPolicy) : Json := .obj
  [(str "weight", .int s.weight), (str "defaults", s.defaults.json)]

def Scenarios.json (s : Scenarios) : Json := .obj
  [(str "production_incident", s.productionIncident.json),
   (str "customer_escalation", s.customerEscalation.json),
   (str "finance_summary", s.financeSummary.json),
   (str "marketing_batch", s.marketingBatch.json)]

def AutomationPolicy.json (a : AutomationPolicy) : Json := .obj
  [(str "urgency_scores", a.urgencyScores.json),
   (str "scenarios", a.scenarios.json),
   (str "queue", a.queue.json)]

def PolicyDraft.json (p : PolicyDraft) : Json := .obj
  [(str "schema_version", .int p.schemaVersion),
   (str "gateway", p.gateway.json),
   (str "automation", p.automation.json)]

/-- `response.model_dump_json()`, as the JSON it is text of. -/
def ActivePolicyResponse.json (datetime : DatetimeFormat) (r : ActivePolicyResponse) : Json := .obj
  [(str "version", .int r.version),
   (str "schema_version", .int r.schemaVersion),
   (str "published_at", .str (datetime.write r.publishedAt)),
   (str "policy", r.policy.json)]

def VersionStatus.json : VersionStatus → Json
  | .active => .str (str "active")
  | .archived => .str (str "archived")

def PolicyVersion.json (datetime : DatetimeFormat) (v : PolicyVersion) : Json := .obj
  [(str "version", .int v.version),
   (str "status", v.status.json),
   (str "created_at", .str (datetime.write v.createdAt)),
   (str "created_by", .str (str v.createdBy)),
   (str "change_note", .str (str v.changeNote)),
   (str "rollback_from", v.rollbackFrom.elim .null .int),
   (str "policy", v.policy.json)]

/-- `document.model_dump_json()`, as the JSON it is text of. -/
def PolicyStoreDocument.json (datetime : DatetimeFormat) (d : PolicyStoreDocument) : Json := .obj
  [(str "active_version", .int d.activeVersion),
   (str "versions", .arr (d.versions.map (·.json datetime)))]

/-! ## What is written reads back -/

section RoundTrip

@[simp] theorem literal_mode (m : Mode) : literal modeChoices m.json = some m := by
  cases m <;> simp [literal, modeChoices, Mode.json, Json.isText]

@[simp] theorem literal_strategy (s : HighQualityStrategy) :
    literal strategyChoices s.json = some s := by
  cases s <;> simp [literal, strategyChoices, HighQualityStrategy.json, Json.isText]

@[simp] theorem literal_quality (q : Quality) : literal qualityChoices q.json = some q := by
  cases q <;> simp [literal, qualityChoices, Quality.json, Json.isText]

@[simp] theorem literal_privacy (p : Privacy) : literal privacyChoices p.json = some p := by
  cases p <;> simp [literal, privacyChoices, Privacy.json, Json.isText]

theorem readGatewayPolicy_json (p : GatewayPolicy) :
    readGatewayPolicy strictInt strictFloat p.json = some p := by
  unfold readGatewayPolicy GatewayPolicy.json
  rw [model_obj (by simp [gatewayFields])]
  simp only [required_cons, Option.bind_eq_bind, Option.bind_some, reduceIte, String.reduceEq,
    intIn_int p.assumedOutputTokens_bounds, numberIn_float p.balancedPriceTolerance_bounds,
    literal_mode, literal_strategy]
  rfl

theorem readPreferences_json (p : Preferences) : readPreferences p.json = some p := by
  unfold readPreferences Preferences.json
  rw [model_obj (by simp)]
  simp only [required_cons, Option.bind_eq_bind, Option.bind_some, reduceIte, String.reduceEq,
    numberIn_float p.maxCostUsd_bounds, intIn_int p.latencyTargetMs_bounds, literal_quality,
    literal_privacy]
  rfl

theorem readUrgencyScores_json (u : UrgencyScores) : readUrgencyScores u.json = some u := by
  obtain ⟨h1, h2, h3⟩ := u.ordered
  have hle := u.critical_le
  have hc := intIn_int (show 0 ≤ u.critical ∧ u.critical ≤ 1000 by omega)
  have hh := intIn_int (show 0 ≤ u.high ∧ u.high ≤ 1000 by omega)
  have hn := intIn_int (show 0 ≤ u.normal ∧ u.normal ≤ 1000 by omega)
  have hl := intIn_int (show 0 ≤ u.low ∧ u.low ≤ 1000 by omega)
  unfold readUrgencyScores UrgencyScores.json
  rw [model_obj (by simp)]
  simp only [required_cons, Option.bind_eq_bind, Option.bind_some, reduceIte, String.reduceEq,
    hc, hh, hn, hl]
  exact dif_pos ⟨h1, h2, h3⟩

theorem readQueuePolicy_json (q : QueuePolicy) : readQueuePolicy q.json = some q := by
  have hp := intIn_int (show 0 ≤ q.waitingBonusPoints ∧ _ from ⟨Nat.zero_le _, q.points_le⟩)
  have hc := intIn_int (show 0 ≤ q.waitingBonusCap ∧ _ from ⟨Nat.zero_le _, q.cap_le⟩)
  unfold readQueuePolicy QueuePolicy.json
  rw [model_obj (by simp)]
  simp only [required_cons, Option.bind_eq_bind, Option.bind_some, reduceIte, String.reduceEq,
    intIn_int q.interval_bounds, hp, hc, intIn_int q.threshold_bounds, intIn_int q.wait_bounds]
  rfl

theorem readScenarioPolicy_json (s : ScenarioPolicy) : readScenarioPolicy s.json = some s := by
  have hw := intIn_int (show 0 ≤ s.weight ∧ _ from ⟨Nat.zero_le _, s.weight_le⟩)
  unfold readScenarioPolicy ScenarioPolicy.json
  rw [model_obj (by simp)]
  simp only [required_cons, Option.bind_eq_bind, Option.bind_some, reduceIte, String.reduceEq, hw,
    readPreferences_json]
  rfl

theorem readScenarios_json (s : Scenarios) : readScenarios s.json = some s := by
  unfold readScenarios Scenarios.json
  rw [model_obj (by simp)]
  simp only [required_cons, Option.bind_eq_bind, Option.bind_some, reduceIte, String.reduceEq,
    readScenarioPolicy_json]
  rfl

theorem readAutomationPolicy_json (a : AutomationPolicy) :
    readAutomationPolicy a.json = some a := by
  unfold readAutomationPolicy AutomationPolicy.json
  rw [model_obj (by simp)]
  simp only [required_cons, Option.bind_eq_bind, Option.bind_some, reduceIte, String.reduceEq,
    readUrgencyScores_json, readScenarios_json, readQueuePolicy_json]
  exact dif_pos a.finance_privacy

theorem readPolicyDraft_json (p : PolicyDraft) : readPolicyDraft p.json = some p := by
  unfold readPolicyDraft PolicyDraft.json
  rw [model_obj (by simp [draftFields])]
  simp only [required_cons, Option.bind_eq_bind, Option.bind_some, reduceIte, String.reduceEq,
    readGatewayPolicy_json, readAutomationPolicy_json]
  rfl

/-- **What the policy API writes reads back.** -/
theorem readActivePolicyResponse_json (datetime : DatetimeFormat) {r : ActivePolicyResponse}
    (hv : 1 ≤ r.version) (hs : r.schemaVersion = 1) :
    readActivePolicyResponse datetime.read (r.json datetime) = some r := by
  obtain ⟨version, schemaVersion, publishedAt, policy⟩ := r
  cases hs
  unfold readActivePolicyResponse ActivePolicyResponse.json
  rw [model_obj (by simp [responseFields])]
  simp only [required_cons, Option.bind_eq_bind, Option.bind_some, reduceIte, String.reduceEq,
    intFrom_int hv, datetime.read_write, readPolicyDraft_json]
  rfl

@[simp] theorem literal_status (s : VersionStatus) : literal statusChoices s.json = some s := by
  cases s <;> simp [literal, statusChoices, VersionStatus.json, Json.isText]

theorem validate_self (v : PolicyVersion) :
    PolicyVersion.validate v.version v.status v.createdAt v.createdBy v.changeNote v.rollbackFrom
      v.policy = .ok v := by
  unfold PolicyVersion.validate
  rw [dif_pos v.version_pos, dif_pos v.createdBy_pos, dif_pos v.changeNote_bounds,
    dif_pos v.rollbackFrom_pos]

theorem readPolicyVersion_json (datetime : DatetimeFormat) (v : PolicyVersion) :
    readPolicyVersion datetime (v.json datetime) = some v := by
  have hback : nullable strictInt (v.rollbackFrom.elim .null .int) = some v.rollbackFrom := by
    cases v.rollbackFrom <;> rfl
  unfold readPolicyVersion PolicyVersion.json
  rw [model_obj (by simp [versionFields])]
  simp only [required_cons, Option.bind_eq_bind, Option.bind_some, reduceIte, String.reduceEq,
    intFrom_int v.version_pos, literal_status, datetime.readZoned_write, text_str, hback,
    readPolicyDraft_json, validate_self]
  rfl

/-- **The stored document reads back.** -/
theorem readPolicyStoreDocument_json (datetime : DatetimeFormat) (d : PolicyStoreDocument) :
    readPolicyStoreDocument datetime (d.json datetime) = some d := by
  unfold readPolicyStoreDocument PolicyStoreDocument.json
  rw [model_obj (by simp)]
  simp only [required_cons, Option.bind_eq_bind, Option.bind_some, reduceIte, String.reduceEq,
    intFrom_int d.integrity.active_pos, listOf_arr fun v _ => readPolicyVersion_json datetime v,
    PolicyStoreDocument.validate_eq_ok d.integrity]
  rfl

end RoundTrip

end PolyGate.Automation
