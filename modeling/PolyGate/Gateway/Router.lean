import Mathlib.Data.List.MinMax
import PolyGate.Lib.Except
import PolyGate.Gateway.CircuitBreaker
import PolyGate.Gateway.Cost
import PolyGate.Gateway.Policy

/-!
# `Gateway/Router.lean` — choosing a provider

`gateway/app/router.py`. `select_provider` filters the candidates by privacy, capabilities and
health, then by the two constraints that the policy may relax, and picks by quality. The steps are
one definition each, in the order of the source.

What the reason says is kept as data: a note on how the pick was made and the list of remarks the
filters left. A refusal keeps the values its message shows.
-/

namespace PolyGate.Gateway

open Lib

/-! ## The gates -/

/-- The health map, as `health_snapshot` builds it. -/
abbrev Health := String → Option String

def missingCapabilities (provider : Provider) (required : List String) : List String :=
  required.filter fun capability =>
    match Obj.get? (provider.capabilities.getD []) capability with
    | some v => !v.isTrue
    | none => true

/-- `_supports` -/
def supports (provider : Provider) (required : List String) : Bool :=
  (missingCapabilities provider required).isEmpty

/-- What the filters say in the reason. -/
inductive Remark
  /-- "privacy=high → 仅保留 internal Provider" -/
  | internalOnly
  /-- "能力要求=" and the sorted names -/
  | capabilities (required : List String)
  /-- "没有 Provider 在预算 … 内，放选整体最便宜者" -/
  | overBudget (maxCostUsd : PyFloat)
  /-- "无 Provider 满足 …ms 延迟目标，放宽该约束" -/
  | overLatency (latencyTargetMs : Int)
  deriving DecidableEq

/-- `sorted(required_capabilities)` -/
def sortedCapabilities (required : List String) : List String := required.mergeSort (· ≤ ·)

/-- Steps 1 to 3: what is left after privacy, capabilities and health. -/
def gated (providers : List Provider) (c : PolygateConstraints) (health : Health)
    (required : List String) : List Provider :=
  let pool :=
    if c.privacy = .high then providers.filter fun p => fieldIs "internal" p.privacy
    else providers
  let pool := if required ≠ [] then pool.filter (supports · required) else pool
  pool.filter fun p => healthy p.name health

def gateRemarks (c : PolygateConstraints) (required : List String) : List Remark :=
  (if c.privacy = .high then [.internalOnly] else []) ++
  (if required ≠ [] then [.capabilities (sortedCapabilities required)] else [])

/-! ## The constraints a policy may relax -/

/-- The `RuntimeError`s, with the values their messages show. -/
inductive RoutingError
  /-- "no provider satisfies budget $…" -/
  | noBudget (maxCostUsd : PyFloat)
  /-- "no eligible provider after privacy/capability/health filtering
  (required_capabilities=…)", with "none" for an empty set -/
  | noEligible (required : List String)
  /-- "no provider satisfies latency …ms" -/
  | noLatency (latencyTargetMs : Int)
  /-- "provider … has invalid quality_rank" -/
  | invalidQualityRank (name : String)
  /-- `min` of nothing, which `selectProvider` never takes -/
  | minOfEmpty
  deriving DecidableEq

/-- Step 4: what fits the budget; in soft mode, everything when nothing does. -/
def withinBudget (est : Provider → ℚ) (c : PolygateConstraints) (policy : GatewayRoutingPolicy)
    (pool : List Provider) : Except RoutingError (List Provider × List Remark) :=
  let affordable := pool.filter fun p => c.maxCostUsd.atLeast (est p)
  if affordable ≠ [] then .ok (affordable, [])
  else if policy.budgetMode = .hard then .error (.noBudget c.maxCostUsd)
  else .ok (pool, [.overBudget c.maxCostUsd])

/-- `p.get("typical_latency_ms", 0) <= c.latency_target_ms` -/
def meetsLatency (c : PolygateConstraints) (p : Provider) : Bool :=
  p.typicalLatencyMs.getD 0 ≤ c.latencyTargetMs

/-- Step 5: what meets the latency target; in soft mode, everything when nothing does. -/
def withinLatency (c : PolygateConstraints) (policy : GatewayRoutingPolicy)
    (pool : List Provider) : Except RoutingError (List Provider × List Remark) :=
  let within := pool.filter (meetsLatency c)
  if within ≠ [] then .ok (within, [])
  else if policy.latencyMode = .hard then .error (.noLatency c.latencyTargetMs)
  else .ok (pool, [.overLatency c.latencyTargetMs])

/-! ## The pick -/

/-- `policy_str` -/
inductive PickNote
  | highLowestCost
  | highBestReal (rank : Nat)
  | highNoReal
  | cheap
  | balancedCheapest
  /-- the tolerance, of which the text shows `int(balanced_price_tolerance * 100)` -/
  | balancedReal (tolerance : ℚ)
  | balancedTooFar
  deriving DecidableEq

/-- `min(pool, key=est)`: the first of the cheapest. -/
def cheapest (est : Provider → ℚ) (pool : List Provider) : Except RoutingError Provider :=
  match pool.argmin est with
  | some p => .ok p
  | none => .error .minOfEmpty

def Provider.isReal (p : Provider) : Bool := fieldIs "real" p.kind

/-- `_quality_rank` -/
def qualityRank (p : Provider) : Except RoutingError Nat :=
  match p.qualityRank.getD (.int 0) with
  | .int rank => if rank < 0 then .error (.invalidQualityRank p.name) else .ok rank.toNat
  | _ => .error (.invalidQualityRank p.name)

/-- The cheapest of the highest-ranked reals. -/
def bestReal (est : Provider → ℚ) (reals : List Provider) :
    Except RoutingError (Provider × PickNote) := do
  let ranks ← reals.mapM qualityRank
  let highest := ranks.foldr max 0
  let chosen ← cheapest est (reals.filter fun p => qualityRank p = .ok highest)
  return (chosen, .highBestReal highest)

/-- Step 6 -/
def pick (est : Provider → ℚ) (quality : Quality) (policy : GatewayRoutingPolicy)
    (pool : List Provider) : Except RoutingError (Provider × PickNote) :=
  let reals := pool.filter (·.isReal)
  match quality with
  | .high =>
    if policy.highQualityStrategy = .lowestCost then do
      return (← cheapest est pool, .highLowestCost)
    else if reals ≠ [] then bestReal est reals
    else do return (← cheapest est pool, .highNoReal)
  | .cheap => do return (← cheapest est pool, .cheap)
  | .balanced => do
    let least ← cheapest est pool
    if least.isReal || reals = [] then return (least, .balancedCheapest)
    else
      let leastReal ← cheapest est reals
      if est leastReal ≤ est least * (1 + policy.balancedPriceTolerance) then
        return (leastReal, .balancedReal policy.balancedPriceTolerance)
      else return (least, .balancedTooFar)

/-! ## The function -/

/-- The reason of a selection. -/
structure SelectReason where
  note : PickNote
  chosen : String
  estimate : ℚ
  typicalLatencyMs : Option ℚ
  remarks : List Remark
  deriving DecidableEq

structure Selection where
  chosen : Provider
  reason : SelectReason
  /-- `[{"name": …, "est_cost": …} for p in providers]` -/
  candidates : List (String × ℚ)

def selectProvider (providers : List Provider) (messages : List Obj) (c : PolygateConstraints)
    (health : Health) (required : List String) (policy : GatewayRoutingPolicy) :
    Except RoutingError Selection := do
  let inTok := roughInputTokens messages
  let est := fun p => estimateCost p inTok policy.assumedOutputTokens
  let pool := gated providers c health required
  let (pool, budgetRemarks) ← withinBudget est c policy pool
  if pool = [] then throw (.noEligible (sortedCapabilities required))
  else
    let (latencyPool, latencyRemarks) ← withinLatency c policy pool
    let (chosen, note) ← pick est c.quality policy latencyPool
    return {
      chosen := chosen
      reason := {
        note := note
        chosen := chosen.name
        estimate := est chosen
        typicalLatencyMs := chosen.typicalLatencyMs
        remarks := gateRemarks c required ++ budgetRemarks ++ latencyRemarks }
      candidates := providers.map fun p => (p.name, est p) }

/-! ## What is chosen passed the gates -/

section

variable {providers pool : List Provider} {c : PolygateConstraints} {health : Health}
  {required : List String} {policy : GatewayRoutingPolicy} {est : Provider → ℚ} {p : Provider}

theorem supports_iff : supports p required = true ↔ missingCapabilities p required = [] := by
  simp [supports]

theorem mem_gated : p ∈ gated providers c health required ↔
    p ∈ providers ∧ (c.privacy = .high → p.privacy = some (.str (str "internal"))) ∧
      missingCapabilities p required = [] ∧ healthy p.name health = true := by
  unfold gated
  rw [List.mem_filter]
  by_cases hp : c.privacy = .high <;> by_cases hr : required = []
  · simp [hp, hr, fieldIs_iff, missingCapabilities, and_assoc]
  · simp only [hp, hr, ite_true, List.mem_filter, fieldIs_iff, supports_iff, ne_eq,
      not_false_eq_true,
      forall_const]
    tauto
  · simp [hp, hr, missingCapabilities]
  · simp [hp, hr, supports_iff, and_assoc]

theorem withinBudget_subset {pool' : List Provider} {remarks : List Remark}
    (h : withinBudget est c policy pool = .ok (pool', remarks)) : pool' ⊆ pool := by
  simp only [withinBudget] at h
  split_ifs at h
  · cases h
    exact List.filter_subset_self _
  · cases h
    exact List.Subset.refl _

theorem withinLatency_subset {pool' : List Provider} {remarks : List Remark}
    (h : withinLatency c policy pool = .ok (pool', remarks)) : pool' ⊆ pool := by
  simp only [withinLatency] at h
  split_ifs at h
  · cases h
    exact List.filter_subset_self _
  · cases h
    exact List.Subset.refl _

theorem cheapest_mem (h : cheapest est pool = .ok p) : p ∈ pool := by
  unfold cheapest at h
  split at h
  · rename_i q hq
    cases h
    exact List.argmin_mem hq
  · cases h

theorem bestReal_mem {reals : List Provider} {note : PickNote}
    (h : bestReal est reals = .ok (p, note)) : p ∈ reals := by
  unfold bestReal at h
  obtain ⟨ranks, -, h⟩ := bind_eq_ok.mp h
  obtain ⟨chosen, hc, h⟩ := bind_eq_ok.mp h
  cases h
  exact List.mem_of_mem_filter (cheapest_mem hc)

theorem pick_mem {quality : Quality} {note : PickNote}
    (h : pick est quality policy pool = .ok (p, note)) : p ∈ pool := by
  have hreal : ∀ {q : Provider}, q ∈ pool.filter (·.isReal) → q ∈ pool := List.mem_of_mem_filter
  unfold pick at h
  cases quality with
  | high =>
    simp only at h
    split_ifs at h
    · obtain ⟨q, hq, h⟩ := bind_eq_ok.mp h
      cases h
      exact cheapest_mem hq
    · exact hreal (bestReal_mem h)
    · obtain ⟨q, hq, h⟩ := bind_eq_ok.mp h
      cases h
      exact cheapest_mem hq
  | cheap =>
    obtain ⟨q, hq, h⟩ := bind_eq_ok.mp h
    cases h
    exact cheapest_mem hq
  | balanced =>
    obtain ⟨least, hl, h⟩ := bind_eq_ok.mp h
    split_ifs at h
    · cases h
      exact cheapest_mem hl
    · obtain ⟨leastReal, hr, h⟩ := bind_eq_ok.mp h
      split_ifs at h
      · cases h
        exact hreal (cheapest_mem hr)
      · cases h
        exact cheapest_mem hl

theorem selectProvider_mem {messages : List Obj} {sel : Selection}
    (h : selectProvider providers messages c health required policy = .ok sel) :
    sel.chosen ∈ gated providers c health required := by
  obtain ⟨⟨pool, budgetRemarks⟩, hb, h⟩ := bind_eq_ok.mp h
  simp only at h
  split_ifs at h
  obtain ⟨⟨latencyPool, latencyRemarks⟩, hl, h⟩ := bind_eq_ok.mp h
  obtain ⟨⟨chosen, note⟩, hp, h⟩ := bind_eq_ok.mp h
  cases h
  exact withinBudget_subset hb (withinLatency_subset hl (pick_mem hp))

end

end PolyGate.Gateway
