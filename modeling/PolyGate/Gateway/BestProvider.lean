import PolyGate.Gateway.Router
import PolyGate.Lib.Choice

/-!
# `Gateway/BestProvider.lean` — what a routing decision guarantees

The purpose of `select_provider`, stated without its steps: a provider that passes the guardrails,
keeps to the budget and to the latency target as far as some provider does (or always, where the
policy says so), and among what is left is the one that the quality asks for.

`finalists` is what the pick is made from: two preferences after the guardrails. The code filters
a pool step by step and may stop at each; `selectProvider_eq_ok` and `refused_iff` say what those
steps come to, and the rest is read off them.
-/

namespace PolyGate.Gateway.BestProvider

open Lib

/-! ## The purpose -/

/-- The guardrails, which no policy relaxes. -/
structure Passes (c : PolygateConstraints) (health : Health) (required : List String)
    (p : Provider) : Prop where
  internal : c.privacy = .high → p.privacy = some (.str (str "internal"))
  capable : ∀ capability ∈ required,
    Obj.get? (p.capabilities.getD []) capability = some (.bool true)
  up : health p.name ≠ some "down"

/-- What a call is estimated to cost. -/
def estimate (messages : List Obj) (policy : GatewayRoutingPolicy) (p : Provider) : ℚ :=
  estimateCost p (roughInputTokens messages) policy.assumedOutputTokens

def affordable (messages : List Obj) (c : PolygateConstraints) (policy : GatewayRoutingPolicy)
    (p : Provider) : Bool :=
  c.maxCostUsd.atLeast (estimate messages policy p)

def ValidRank (p : Provider) : Prop := ∃ rank, qualityRank p = .ok rank

/-- The rank of an entry with a valid one. -/
def rank (p : Provider) : Nat :=
  match p.qualityRank with
  | some (.int rank) => rank.toNat
  | _ => 0

def reals (pool : List Provider) : List Provider := pool.filter (·.isReal)

/-- The reals of which none has a higher rank. -/
def topReals (pool : List Provider) : List Provider :=
  (reals pool).filter fun p => (reals pool).all fun q => rank q ≤ rank p

/-- The `balanced` choice: a real in place of a cheaper mock, if it does not cost much more. -/
inductive Balanced (est : Provider → ℚ) (tolerance : ℚ) (pool : List Provider) : Provider → Prop
  | real {least real : Provider} (cheapest : FirstMin est pool least)
      (mock : least.isReal = false) (cheapestReal : FirstMin est (reals pool) real)
      (close : est real ≤ est least * (1 + tolerance)) : Balanced est tolerance pool real
  | least {least : Provider} (cheapest : FirstMin est pool least)
      (far : least.isReal = false → ∀ real, FirstMin est (reals pool) real →
        est least * (1 + tolerance) < est real) : Balanced est tolerance pool least

/-- The choice that a quality asks for. -/
def Chosen (est : Provider → ℚ) (quality : Quality) (policy : GatewayRoutingPolicy)
    (pool : List Provider) (p : Provider) : Prop :=
  match quality with
  | .cheap => FirstMin est pool p
  | .high =>
    if policy.highQualityStrategy = .lowestCost ∨ reals pool = [] then FirstMin est pool p
    else FirstMin est (topReals pool) p
  | .balanced => Balanced est policy.balancedPriceTolerance pool p

/-! ## The steps -/

section Steps

variable {providers pool pool' : List Provider} {messages : List Obj} {c : PolygateConstraints}
  {health : Health} {required : List String} {policy : GatewayRoutingPolicy} {est : Provider → ℚ}
  {p : Provider}

theorem passes_iff : Passes c health required p ↔
    (c.privacy = .high → p.privacy = some (.str (str "internal"))) ∧
      missingCapabilities p required = [] ∧ healthy p.name health = true := by
  have hcapable : missingCapabilities p required = [] ↔ ∀ capability ∈ required,
      Obj.get? (p.capabilities.getD []) capability = some (.bool true) := by
    unfold missingCapabilities
    rw [List.filter_eq_nil_iff]
    refine forall₂_congr fun capability _ => ?_
    cases Obj.get? (p.capabilities.getD []) capability with
    | none => simp
    | some v => simp [Json.isTrue_iff]
  have hup : healthy p.name health = true ↔ health p.name ≠ some "down" := by
    unfold healthy
    cases health p.name with
    | none => simp
    | some state => simp
  rw [hcapable, hup]
  exact ⟨fun h => ⟨h.internal, h.capable, h.up⟩, fun h => ⟨h.1, h.2.1, h.2.2⟩⟩

instance : Decidable (Passes c health required p) :=
  decidable_of_iff ((c.privacy = .high → fieldIs "internal" p.privacy = true) ∧
      missingCapabilities p required = [] ∧ healthy p.name health = true)
    (by rw [passes_iff, fieldIs_iff])

section
variable (providers c health required)

/-- The providers that a request may go to, in the order of the registry. -/
def passing : List Provider := providers.filter fun p => Passes c health required p

end

theorem mem_passing : p ∈ passing providers c health required ↔
    p ∈ providers ∧ Passes c health required p := by
  rw [passing, List.mem_filter, decide_eq_true_iff]

/-- The three filters keep what passes. -/
theorem gated_eq : gated providers c health required = passing providers c health required := by
  have hite (P : Prop) [Decidable P] (q : Provider → Bool) (ps : List Provider) :
      (if P then ps.filter q else ps) = ps.filter fun p => !decide P || q p := by
    by_cases hP : P
    · simp [hP]
    · simp [hP]
  unfold gated passing
  dsimp only
  rw [hite, hite, List.filter_filter, List.filter_filter]
  refine List.filter_congr fun p hp => ?_
  rw [Bool.eq_iff_iff, decide_eq_true_iff, passes_iff, ← supports_iff]
  by_cases hr : required = []
  · simp [hr, fieldIs_iff, supports, missingCapabilities, and_comm, imp_iff_not_or]
  · simp [hr, fieldIs_iff, and_comm, imp_iff_not_or]

theorem withinBudget_eq_ok {remarks : List Remark}
    (h : withinBudget est c policy pool = .ok (pool', remarks)) :
    pool' = preferring (fun p => c.maxCostUsd.atLeast (est p)) pool ∧
      (policy.budgetMode = .hard → ∃ p ∈ pool, c.maxCostUsd.atLeast (est p) = true) := by
  simp only [withinBudget] at h
  split_ifs at h with hsome hhard
  · cases h
    obtain ⟨p, hp⟩ := List.exists_mem_of_ne_nil _ hsome
    obtain ⟨hmem, hfits⟩ := List.mem_filter.mp hp
    exact ⟨(preferring_of_mem hmem hfits).symm, fun _ => ⟨p, hmem, hfits⟩⟩
  · cases h
    refine ⟨(preferring_of_forall fun q hq => ?_).symm, fun h => absurd h hhard⟩
    exact Bool.eq_false_iff.mpr (List.filter_eq_nil_iff.mp (not_not.mp hsome) q hq)

theorem withinBudget_eq_error {e : RoutingError} (h : withinBudget est c policy pool = .error e) :
    policy.budgetMode = .hard ∧ ∀ p ∈ pool, c.maxCostUsd.atLeast (est p) = false := by
  simp only [withinBudget] at h
  split_ifs at h with hsome hhard
  refine ⟨hhard, fun q hq => ?_⟩
  exact Bool.eq_false_iff.mpr (List.filter_eq_nil_iff.mp (not_not.mp hsome) q hq)

theorem withinLatency_eq_ok {remarks : List Remark}
    (h : withinLatency c policy pool = .ok (pool', remarks)) :
    pool' = preferring (meetsLatency c) pool ∧
      (policy.latencyMode = .hard → ∃ p ∈ pool, meetsLatency c p = true) := by
  simp only [withinLatency] at h
  split_ifs at h with hsome hhard
  · cases h
    obtain ⟨p, hp⟩ := List.exists_mem_of_ne_nil _ hsome
    obtain ⟨hmem, hmeets⟩ := List.mem_filter.mp hp
    exact ⟨(preferring_of_mem hmem hmeets).symm, fun _ => ⟨p, hmem, hmeets⟩⟩
  · cases h
    refine ⟨(preferring_of_forall fun q hq => ?_).symm, fun h => absurd h hhard⟩
    exact Bool.eq_false_iff.mpr (List.filter_eq_nil_iff.mp (not_not.mp hsome) q hq)

theorem withinLatency_eq_error {e : RoutingError} (h : withinLatency c policy pool = .error e) :
    policy.latencyMode = .hard ∧ ∀ p ∈ pool, meetsLatency c p = false := by
  simp only [withinLatency] at h
  split_ifs at h with hsome hhard
  refine ⟨hhard, fun q hq => ?_⟩
  exact Bool.eq_false_iff.mpr (List.filter_eq_nil_iff.mp (not_not.mp hsome) q hq)

end Steps

/-! ## The pick -/

section Pick

variable {pool : List Provider} {policy : GatewayRoutingPolicy} {est : Provider → ℚ} {p : Provider}

theorem cheapest_eq_ok : cheapest est pool = .ok p ↔ FirstMin est pool p := by
  rw [← argmin_eq_some_iff_firstMin]
  unfold cheapest
  cases pool.argmin est with
  | none => simp
  | some q => simp

theorem cheapest_total (h : pool ≠ []) : ∃ p, cheapest est pool = .ok p := by
  obtain ⟨p, hp⟩ := exists_firstMin est h
  exact ⟨p, cheapest_eq_ok.mpr hp⟩

theorem ValidRank.eq (h : ValidRank p) : qualityRank p = .ok (rank p) := by
  obtain ⟨r, hr⟩ := h
  unfold qualityRank at hr ⊢
  unfold rank
  cases hq : p.qualityRank with
  | none => rfl
  | some v =>
    rw [hq] at hr
    cases v with
    | int n =>
      simp only [Option.getD_some] at hr ⊢
      split_ifs at hr ⊢
      rfl
    | _ => cases hr

theorem mapM_rank {ps : List Provider} (h : ∀ p ∈ ps, ValidRank p) :
    ps.mapM qualityRank = .ok (ps.map rank) := by
  induction ps with
  | nil => rfl
  | cons p ps ih =>
    obtain ⟨hp, hps⟩ := List.forall_mem_cons.mp h
    rw [List.mapM_cons, hp.eq, ih hps]
    rfl

theorem validRank_of_mapM {ps : List Provider} {ranks : List Nat}
    (h : ps.mapM qualityRank = .ok ranks) : ∀ p ∈ ps, ValidRank p := by
  induction ps generalizing ranks with
  | nil => exact fun p hp => absurd hp List.not_mem_nil
  | cons p ps ih =>
    rw [List.mapM_cons] at h
    obtain ⟨r, hr, h⟩ := bind_eq_ok.mp h
    obtain ⟨rs, hrs, -⟩ := bind_eq_ok.mp h
    exact List.forall_mem_cons.mpr ⟨⟨r, hr⟩, ih hrs⟩

/-- The highest rank is that of the entries which none outranks. -/
theorem filter_highest {ps : List Provider} (h : ∀ p ∈ ps, ValidRank p) :
    (ps.filter fun p => qualityRank p = .ok ((ps.map rank).foldr max 0)) =
      ps.filter fun p => ps.all fun q => rank q ≤ rank p := by
  refine List.filter_congr fun p hp => ?_
  rw [Bool.eq_iff_iff, decide_eq_true_iff, (h p hp).eq, Except.ok.injEq, List.all_eq_true]
  constructor
  · intro heq q hq
    rw [heq]
    exact decide_eq_true (List.le_max_of_le (List.mem_map_of_mem hq) le_rfl)
  · intro hle
    refine le_antisymm (List.le_max_of_le (List.mem_map_of_mem hp) le_rfl) ?_
    refine List.max_le_of_forall_le _ _ fun n hn => ?_
    obtain ⟨q, hq, rfl⟩ := List.mem_map.mp hn
    exact of_decide_eq_true (hle q hq)

theorem bestReal_eq (h : ∀ p ∈ reals pool, ValidRank p) :
    bestReal est (reals pool) = do
      return (← cheapest est (topReals pool),
        .highBestReal (((reals pool).map rank).foldr max 0)) := by
  unfold bestReal
  rw [mapM_rank h]
  show (cheapest est _ >>= _) = _
  rw [filter_highest h]
  rfl

/-- Picking by rank reads every rank. -/
theorem bestReal_eq_ok {note : PickNote} (h : bestReal est (reals pool) = .ok (p, note)) :
    FirstMin est (topReals pool) p := by
  have hranks : ∀ q ∈ reals pool, ValidRank q := by
    obtain ⟨ranks, hmapM, -⟩ := bind_eq_ok.mp h
    exact validRank_of_mapM hmapM
  rw [bestReal_eq hranks] at h
  obtain ⟨q, hq, h⟩ := bind_eq_ok.mp h
  cases h
  exact cheapest_eq_ok.mp hq

/-- There is a highest-ranked real as soon as there is a real. -/
theorem topReals_ne_nil (h : reals pool ≠ []) : topReals pool ≠ [] := by
  obtain ⟨p, hp⟩ := exists_firstMin (fun p => OrderDual.toDual (rank p)) h
  refine List.ne_nil_of_mem (List.mem_filter.mpr ⟨hp.mem, List.all_eq_true.mpr fun q hq => ?_⟩)
  exact decide_eq_true (OrderDual.toDual_le_toDual.mp (hp.le hq))

/-- **What is picked is what the quality asks for.** -/
theorem pick_chosen {quality : Quality} {note : PickNote}
    (h : pick est quality policy pool = .ok (p, note)) : Chosen est quality policy pool p := by
  unfold pick at h
  cases quality with
  | high =>
    simp only at h
    unfold Chosen
    split_ifs at h with hlowest hreals
    · obtain ⟨q, hq, h⟩ := bind_eq_ok.mp h
      cases h
      simp only [hlowest, true_or, if_true]
      exact cheapest_eq_ok.mp hq
    · have hnot : ¬ (policy.highQualityStrategy = .lowestCost ∨ reals pool = []) :=
        not_or.mpr ⟨hlowest, hreals⟩
      simp only [hnot, if_false]
      exact bestReal_eq_ok h
    · obtain ⟨q, hq, h⟩ := bind_eq_ok.mp h
      cases h
      have hor : policy.highQualityStrategy = .lowestCost ∨ reals pool = [] :=
        Or.inr (not_not.mp hreals)
      simp only [hor, if_true]
      exact cheapest_eq_ok.mp hq
  | cheap =>
    obtain ⟨q, hq, h⟩ := bind_eq_ok.mp h
    cases h
    exact cheapest_eq_ok.mp hq
  | balanced =>
    obtain ⟨least, hleast, h⟩ := bind_eq_ok.mp h
    have hmin := cheapest_eq_ok.mp hleast
    split_ifs at h with hreal
    · cases h
      refine .least hmin fun hmock real hr => ?_
      rw [Bool.or_eq_true, hmock, decide_eq_true_iff] at hreal
      rcases hreal with hfalse | hnil
      · cases hfalse
      · rw [reals, hnil] at hr
        exact absurd hr.mem List.not_mem_nil
    · obtain ⟨leastReal, hr, h⟩ := bind_eq_ok.mp h
      have hminReal := cheapest_eq_ok.mp hr
      split_ifs at h with hclose
      · cases h
        rw [Bool.or_eq_true, not_or] at hreal
        exact .real hmin (Bool.eq_false_iff.mpr hreal.1) hminReal hclose
      · cases h
        refine .least hmin fun _ real hreal' => ?_
        rw [hreal'.unique hminReal]
        exact not_le.mp hclose

/-- A pick from a pool that is not empty succeeds. -/
theorem pick_total {quality : Quality} (hranks : ∀ p ∈ pool, ValidRank p) (h : pool ≠ []) :
    ∃ p note, pick est quality policy pool = .ok (p, note) := by
  obtain ⟨least, hleast⟩ := @cheapest_total _ est h
  unfold pick
  cases quality with
  | high =>
    simp only
    split_ifs with hlowest hreals
    · exact ⟨least, .highLowestCost, by rw [hleast]; rfl⟩
    · obtain ⟨p, hp⟩ := @cheapest_total _ est (topReals_ne_nil hreals)
      refine ⟨p, .highBestReal (((reals pool).map rank).foldr max 0), ?_⟩
      refine (bestReal_eq fun q hq => hranks q (List.mem_of_mem_filter hq)).trans ?_
      rw [hp]
      rfl
    · exact ⟨least, .highNoReal, by rw [hleast]; rfl⟩
  | cheap => exact ⟨least, .cheap, by rw [hleast]; rfl⟩
  | balanced =>
    rw [hleast]
    dsimp only [bind, Except.bind]
    split_ifs with hreal
    · exact ⟨least, .balancedCheapest, rfl⟩
    · rw [Bool.or_eq_true, not_or, decide_eq_true_iff] at hreal
      obtain ⟨leastReal, hr⟩ := @cheapest_total _ est hreal.2
      rw [hr]
      dsimp only
      split_ifs with hclose
      · exact ⟨leastReal, _, rfl⟩
      · exact ⟨least, _, rfl⟩

theorem qualityRank_raises {e : RoutingError} (h : qualityRank p = .error e) :
    e = .invalidQualityRank p.name := by
  unfold qualityRank at h
  split at h
  · split_ifs at h
    cases h
    rfl
  · cases h
    rfl

theorem cheapest_ne_error {e : RoutingError} (h : pool ≠ []) : cheapest est pool ≠ .error e := by
  obtain ⟨p, hp⟩ := @cheapest_total _ est h
  rw [hp]
  intro herr
  cases herr

theorem bestReal_ne_minOfEmpty (h : reals pool ≠ []) :
    bestReal est (reals pool) ≠ .error .minOfEmpty := by
  intro herr
  cases hmapM : (reals pool).mapM qualityRank with
  | error e =>
    obtain ⟨p, -, hp⟩ := mapM_eq_error hmapM
    rw [qualityRank_raises hp] at hmapM
    cases (bind_of_eq_error hmapM).symm.trans herr
  | ok ranks =>
    rw [bestReal_eq (validRank_of_mapM hmapM)] at herr
    rcases bind_eq_error.mp herr with herr | ⟨_, -, herr⟩
    · exact cheapest_ne_error (topReals_ne_nil h) herr
    · cases herr

/-- `min` is never taken of nothing. -/
theorem pick_ne_minOfEmpty {quality : Quality} (h : pool ≠ []) :
    pick est quality policy pool ≠ .error .minOfEmpty := by
  intro herr
  have hcheap {note : PickNote} : (do return (← cheapest est pool, note) :
      Except RoutingError (Provider × PickNote)) ≠ .error .minOfEmpty := by
    intro herr
    rcases bind_eq_error.mp herr with herr | ⟨_, -, herr⟩
    · exact cheapest_ne_error h herr
    · cases herr
  unfold pick at herr
  cases quality with
  | high =>
    simp only at herr
    split_ifs at herr with hlowest hreals
    · exact hcheap herr
    · exact bestReal_ne_minOfEmpty hreals herr
    · exact hcheap herr
  | cheap => exact hcheap herr
  | balanced =>
    rcases bind_eq_error.mp herr with herr | ⟨least, -, herr⟩
    · exact cheapest_ne_error h herr
    · split_ifs at herr with hreal
      · cases herr
      · rw [Bool.or_eq_true, not_or, decide_eq_true_iff] at hreal
        rcases bind_eq_error.mp herr with herr | ⟨leastReal, -, herr⟩
        · exact cheapest_ne_error hreal.2 herr
        · split_ifs at herr <;> cases herr

end Pick

/-! ## The decision -/

section Decision

variable {providers : List Provider} {messages : List Obj} {c : PolygateConstraints}
  {health : Health} {required : List String} {policy : GatewayRoutingPolicy} {p : Provider}

section
variable (providers messages c health required policy)

/-- What is left after the budget step. -/
def survivors : List Provider :=
  preferring (affordable messages c policy) (passing providers c health required)

/-- What is left after the latency step. -/
def finalists : List Provider :=
  preferring (meetsLatency c) (survivors providers messages c health required policy)

end

theorem mem_survivors : p ∈ survivors providers messages c health required policy ↔
    p ∈ passing providers c health required ∧
      ((∃ q ∈ passing providers c health required, affordable messages c policy q = true) →
        affordable messages c policy p = true) :=
  mem_preferring

theorem mem_finalists : p ∈ finalists providers messages c health required policy ↔
    p ∈ survivors providers messages c health required policy ∧
      ((∃ q ∈ survivors providers messages c health required policy, meetsLatency c q = true) →
        meetsLatency c p = true) :=
  mem_preferring

theorem finalists_ranks (hranks : ∀ p ∈ providers, ValidRank p) :
    ∀ p ∈ finalists providers messages c health required policy, ValidRank p := by
  intro p hp
  exact hranks p (mem_passing.mp (mem_survivors.mp (mem_finalists.mp hp).1).1).1

/-- What a selection went through. -/
theorem selectProvider_eq_ok {sel : Selection}
    (h : selectProvider providers messages c health required policy = .ok sel) :
    (policy.budgetMode = .hard →
        ∃ p ∈ passing providers c health required, affordable messages c policy p = true) ∧
      (policy.latencyMode = .hard →
        ∃ p ∈ survivors providers messages c health required policy, meetsLatency c p = true) ∧
      ∃ note, pick (estimate messages policy) c.quality policy
        (finalists providers messages c health required policy) = .ok (sel.chosen, note) := by
  unfold selectProvider at h
  rw [gated_eq] at h
  obtain ⟨⟨pool, budgetRemarks⟩, hb, h⟩ := bind_eq_ok.mp h
  obtain ⟨rfl, hbudget⟩ := withinBudget_eq_ok hb
  simp only at h
  split_ifs at h
  obtain ⟨⟨latencyPool, latencyRemarks⟩, hl, h⟩ := bind_eq_ok.mp h
  obtain ⟨rfl, hlatency⟩ := withinLatency_eq_ok hl
  obtain ⟨⟨chosen, note⟩, hp, h⟩ := bind_eq_ok.mp h
  cases h
  exact ⟨hbudget, hlatency, note, hp⟩

/-- What a refusal is for. -/
theorem refused_iff (hranks : ∀ p ∈ providers, ValidRank p) :
    (∃ e, selectProvider providers messages c health required policy = .error e) ↔
      passing providers c health required = [] ∨
      (policy.budgetMode = .hard ∧ ∀ p ∈ passing providers c health required,
        affordable messages c policy p = false) ∨
      (policy.latencyMode = .hard ∧ ∀ p ∈ survivors providers messages c health required policy,
        meetsLatency c p = false) := by
  constructor
  · rintro ⟨e, h⟩
    unfold selectProvider at h
    rw [gated_eq] at h
    rcases bind_eq_error.mp h with hb | ⟨⟨pool, budgetRemarks⟩, hb, h⟩
    · exact Or.inr (Or.inl (withinBudget_eq_error hb))
    · obtain ⟨rfl, -⟩ := withinBudget_eq_ok hb
      simp only at h
      split_ifs at h with hnil
      · exact Or.inl (not_not.mp fun hne => preferring_ne_nil hne hnil)
      · rcases bind_eq_error.mp h with hl | ⟨⟨latencyPool, latencyRemarks⟩, hl, h⟩
        · exact Or.inr (Or.inr (withinLatency_eq_error hl))
        · obtain ⟨rfl, -⟩ := withinLatency_eq_ok hl
          -- the pick is made from a pool that is not empty
          obtain ⟨p, note, hp⟩ : ∃ p note, pick (estimate messages policy) c.quality policy
              (finalists providers messages c health required policy) = .ok (p, note) :=
            pick_total (finalists_ranks hranks) (preferring_ne_nil hnil)
          rcases bind_eq_error.mp h with hp' | ⟨_, -, h⟩
          · cases hp.symm.trans hp'
          · cases h
  · intro hreasons
    cases hsel : selectProvider providers messages c health required policy with
    | error e => exact ⟨e, rfl⟩
    | ok sel =>
      obtain ⟨hbudget, hlatency, -⟩ := selectProvider_eq_ok hsel
      rcases hreasons with hnil | ⟨hhard, hnone⟩ | ⟨hhard, hnone⟩
      · have hmem := selectProvider_mem hsel
        rw [gated_eq, hnil] at hmem
        cases hmem
      · obtain ⟨p, hp, hfits⟩ := hbudget hhard
        rw [hnone p hp] at hfits
        cases hfits
      · obtain ⟨p, hp, hmeets⟩ := hlatency hhard
        rw [hnone p hp] at hmeets
        cases hmeets

/-- What `select_provider` raises is a `RuntimeError`. -/
theorem selectProvider_ne_minOfEmpty :
    selectProvider providers messages c health required policy ≠ .error .minOfEmpty := by
  intro h
  rcases bind_eq_error.mp h with hb | ⟨⟨pool, budgetRemarks⟩, hb, h⟩
  · simp only [withinBudget] at hb
    split_ifs at hb
    cases hb
  · simp only at h
    split_ifs at h with hnil
    · cases h
    · rcases bind_eq_error.mp h with hl | ⟨⟨latencyPool, latencyRemarks⟩, hl, h⟩
      · simp only [withinLatency] at hl
        split_ifs at hl
        cases hl
      · obtain ⟨rfl, -⟩ := withinLatency_eq_ok hl
        rcases bind_eq_error.mp h with hp | ⟨_, -, h⟩
        · exact pick_ne_minOfEmpty (preferring_ne_nil hnil) hp
        · cases h

/-! ## Two registries -/

/-- A registry entry without a rank and without capabilities. -/
def entry (name kind privacy : String) (price latency : ℚ) : Provider where
  name := name
  kind := some (.str (str kind))
  privacy := some (.str (str privacy))
  capabilities := none
  typicalLatencyMs := some latency
  qualityRank := none
  pricePer1kInput := some price
  pricePer1kOutput := some price

/-- A real that costs a little more than the mock. -/
def closePrices : List Provider :=
  [entry "real-x" "real" "external" (11 / 10000) 500,
    entry "mock-x" "mock" "internal" (1 / 1000) 300]

/-- One provider is cheap, the other is fast. -/
def cheapOrFast : List Provider :=
  [entry "slow" "mock" "internal" (1 / 10000) 5000, entry "fast" "mock" "internal" 1 100]

def hello : List Obj := [(Message.user (str "hello")).modelDump]

theorem noBudget_nonneg : (PyFloat.ofRat 0).below 0 = false := by decide +kernel

/-- A request that no provider is cheap enough for. -/
def noBudget (quality : Quality) : PolygateConstraints :=
  { PolygateConstraints.default with
    maxCostUsd := .ofRat 0
    maxCostUsd_nonneg := noBudget_nonneg
    quality := quality }

def upAndRunning : Health := fun _ => none

def hardPolicy : GatewayRoutingPolicy :=
  { defaultGatewayPolicy with budgetMode := .hard, latencyMode := .hard }

/-- A policy that insists on the latency target only. -/
def hardLatency : GatewayRoutingPolicy := { defaultGatewayPolicy with latencyMode := .hard }

theorem validRank_entry (name kind privacy : String) (price latency : ℚ) :
    ValidRank (entry name kind privacy price latency) := ⟨0, rfl⟩

/-! ## Soundness and optimality -/

/-- What is promised of the provider that a request goes to. -/
structure Guarantees (providers : List Provider) (messages : List Obj) (c : PolygateConstraints)
    (health : Health) (required : List String) (policy : GatewayRoutingPolicy)
    (p : Provider) : Prop where
  listed : p ∈ providers
  passes : Passes c health required p
  budget : (∃ q ∈ providers, Passes c health required q ∧ affordable messages c policy q = true) →
    affordable messages c policy p = true
  hardBudget : policy.budgetMode = .hard → affordable messages c policy p = true
  latency : (∃ q ∈ survivors providers messages c health required policy,
    meetsLatency c q = true) → meetsLatency c p = true
  hardLatency : policy.latencyMode = .hard → meetsLatency c p = true
  best : Chosen (estimate messages policy) c.quality policy
    (finalists providers messages c health required policy) p

/-- **A selected provider is sound, and the best by the policy.** -/
theorem selectProvider_guarantees {sel : Selection}
    (h : selectProvider providers messages c health required policy = .ok sel) :
    Guarantees providers messages c health required policy sel.chosen := by
  obtain ⟨hbudget, hlatency, note, hpick⟩ := selectProvider_eq_ok h
  obtain ⟨hsurvives, hmeets⟩ := mem_finalists.mp (pick_mem hpick)
  obtain ⟨hpassing, hfits⟩ := mem_survivors.mp hsurvives
  obtain ⟨hlisted, hpasses⟩ := mem_passing.mp hpassing
  refine ⟨hlisted, hpasses, ?_, fun hhard => hfits (hbudget hhard), hmeets,
    fun hhard => hmeets (hlatency hhard), pick_chosen hpick⟩
  rintro ⟨q, hq, hqpasses, hqfits⟩
  exact hfits ⟨q, mem_passing.mpr ⟨hq, hqpasses⟩, hqfits⟩

theorem selectProvider_guarantees_close : ∃ sel,
    selectProvider closePrices hello .default upAndRunning [] defaultGatewayPolicy = .ok sel ∧
      Guarantees closePrices hello .default upAndRunning [] defaultGatewayPolicy sel.chosen := by
  obtain ⟨sel, hsel, -⟩ := @exists_eq_ok _ _
    (selectProvider closePrices hello .default upAndRunning [] defaultGatewayPolicy)
    (fun sel => sel.chosen.name = "real-x") _ (by decide +kernel)
  exact ⟨sel, hsel, selectProvider_guarantees hsel⟩

/-! ## Completeness -/

/-- A provider that meets everything the request and the policy insist on. -/
def Qualifies (messages : List Obj) (c : PolygateConstraints) (health : Health)
    (required : List String) (policy : GatewayRoutingPolicy) (p : Provider) : Prop :=
  Passes c health required p ∧
    (policy.budgetMode = .hard → affordable messages c policy p = true) ∧
    (policy.latencyMode = .hard → meetsLatency c p = true)

/-- The soft budget narrows the pool to providers that miss a hard latency target, which a
provider outside the budget meets. -/
def Starved (providers : List Provider) (messages : List Obj) (c : PolygateConstraints)
    (health : Health) (required : List String) (policy : GatewayRoutingPolicy) : Prop :=
  policy.budgetMode = .soft ∧ policy.latencyMode = .hard ∧
    (∃ p ∈ passing providers c health required, affordable messages c policy p = true) ∧
    (∀ p ∈ passing providers c health required, affordable messages c policy p = true →
      meetsLatency c p = false) ∧
    ∃ p ∈ passing providers c health required, meetsLatency c p = true

/-- **Nobody is refused whom a provider could have served, unless the budget starves the latency
target.** -/
theorem refusal_justified_iff (hranks : ∀ p ∈ providers, ValidRank p) :
    ((∃ e, selectProvider providers messages c health required policy = .error e) →
        ∀ p ∈ providers, ¬ Qualifies messages c health required policy p) ↔
      ¬ Starved providers messages c health required policy := by
  rw [refused_iff hranks]
  constructor
  · rintro hjustified ⟨hsoft, hhard, hsome, hmiss, ⟨q, hq, hmeets⟩⟩
    refine hjustified (Or.inr (Or.inr ⟨hhard, fun p hp => ?_⟩)) q (mem_passing.mp hq).1
      ⟨(mem_passing.mp hq).2, fun h => ?_, fun _ => hmeets⟩
    · obtain ⟨hpassing, hfits⟩ := mem_survivors.mp hp
      exact hmiss p hpassing (hfits hsome)
    · cases hsoft.symm.trans h
  · rintro hfed hrefused p hlisted ⟨hpasses, hbudget, hlatency⟩
    have hp : p ∈ passing providers c health required := mem_passing.mpr ⟨hlisted, hpasses⟩
    rcases hrefused with hnil | ⟨hhard, hnone⟩ | ⟨hhard, hnone⟩
    · rw [hnil] at hp
      cases hp
    · have hfits := hbudget hhard
      rw [hnone p hp] at hfits
      cases hfits
    · -- the provider met the target, so the budget step has removed it
      have hmeets := hlatency hhard
      have hgone : ¬ ((∃ q ∈ passing providers c health required,
          affordable messages c policy q = true) → affordable messages c policy p = true) := by
        intro hfits
        have hmiss := hnone p (mem_survivors.mpr ⟨hp, hfits⟩)
        rw [hmeets] at hmiss
        cases hmiss
      obtain ⟨hsome, hdear⟩ := Classical.not_imp.mp hgone
      refine hfed ⟨?_, hhard, hsome, fun q hq hfits => ?_, p, hp, hmeets⟩
      · cases hmode : policy.budgetMode with
        | soft => rfl
        | hard => exact absurd (hbudget hmode) hdear
      · exact hnone q (mem_survivors.mpr ⟨hq, fun _ => hfits⟩)

theorem refusal_justified_hard : ¬ ∃ p ∈ closePrices,
    Qualifies hello (noBudget .cheap) upAndRunning [] hardPolicy p := by
  rintro ⟨p, hp, hqualifies⟩
  obtain ⟨e, he, -⟩ := @exists_eq_error _ _
    (selectProvider closePrices hello (noBudget .cheap) upAndRunning [] hardPolicy)
    (fun e => e = .noBudget (.ofRat 0)) _ (by decide +kernel)
  refine (refusal_justified_iff ?_).mpr ?_ ⟨e, he⟩ p hp hqualifies
  · exact List.forall_mem_cons.mpr ⟨validRank_entry .., List.forall_mem_cons.mpr
      ⟨validRank_entry .., fun p hp => absurd hp List.not_mem_nil⟩⟩
  · rintro ⟨hsoft, -⟩
    cases hsoft

/-- **A soft budget refuses a request**: it keeps the cheap provider, which is too slow. -/
theorem soft_budget_refuses :
    (∃ e, selectProvider cheapOrFast hello .default upAndRunning [] hardLatency = .error e) ∧
      ∃ p ∈ cheapOrFast, Qualifies hello .default upAndRunning [] hardLatency p := by
  constructor
  · obtain ⟨e, he, -⟩ := @exists_eq_error _ _
      (selectProvider cheapOrFast hello .default upAndRunning [] hardLatency)
      (fun e => e = .noLatency 3000) _ (by decide +kernel)
    exact ⟨e, he⟩
  · refine ⟨_, List.mem_cons_of_mem _ List.mem_cons_self, ?_, fun h => ?_, fun _ => ?_⟩
    · decide +kernel
    · cases h
    · decide +kernel

/-! ## A relaxed budget -/

/-- The cheapest of the providers that pass the guardrails. -/
def Cheapest (providers : List Provider) (messages : List Obj) (c : PolygateConstraints)
    (health : Health) (required : List String) (policy : GatewayRoutingPolicy)
    (p : Provider) : Prop :=
  ∀ q ∈ passing providers c health required,
    estimate messages policy p ≤ estimate messages policy q

instance : Decidable (Cheapest providers messages c health required policy p) :=
  inferInstanceAs (Decidable (∀ q ∈ passing providers c health required,
    estimate messages policy p ≤ estimate messages policy q))

/-- The pool after the latency step, when no provider fits the budget. -/
def latencyPool (providers : List Provider) (c : PolygateConstraints) (health : Health)
    (required : List String) : List Provider :=
  preferring (meetsLatency c) (passing providers c health required)

/-- Neither the latency target nor the quality leads away from the cheapest provider. -/
def StaysCheapest (providers : List Provider) (messages : List Obj) (c : PolygateConstraints)
    (health : Health) (required : List String) (policy : GatewayRoutingPolicy) : Prop :=
  (∃ p ∈ latencyPool providers c health required,
    Cheapest providers messages c health required policy p) ∧
  match c.quality with
  | .cheap => True
  | .high => policy.highQualityStrategy = .lowestCost ∨
      reals (latencyPool providers c health required) = [] ∨
      ∃ p ∈ topReals (latencyPool providers c health required),
        Cheapest providers messages c health required policy p
  | .balanced =>
      (∃ p ∈ reals (latencyPool providers c health required),
        Cheapest providers messages c health required policy p) ∨
      ∀ p ∈ reals (latencyPool providers c health required),
        ∀ q ∈ passing providers c health required,
          Cheapest providers messages c health required policy q →
          estimate messages policy q * (1 + policy.balancedPriceTolerance) <
            estimate messages policy p

theorem cheapest_of_firstMin {pool : List Provider} {q : Provider}
    (h : FirstMin (estimate messages policy) pool p) (hq : q ∈ pool)
    (hcheap : Cheapest providers messages c health required policy q) :
    Cheapest providers messages c health required policy p :=
  fun r hr => (h.le hq).trans (hcheap r hr)

/-- **With its budget relaxed, a request goes to the cheapest provider exactly as long as nothing
leads away from it.** -/
theorem relaxed_cheapest_iff
    (hdear : ∀ p ∈ passing providers c health required, affordable messages c policy p = false)
    {sel : Selection}
    (h : selectProvider providers messages c health required policy = .ok sel) :
    Cheapest providers messages c health required policy sel.chosen ↔
      StaysCheapest providers messages c health required policy := by
  obtain ⟨-, -, note, hpick⟩ := selectProvider_eq_ok h
  -- nobody is affordable, so the budget drops nobody
  have hpool : finalists providers messages c health required policy =
      latencyPool providers c health required := by
    rw [finalists, survivors, preferring_of_forall hdear]
    rfl
  rw [hpool] at hpick
  have hmem := pick_mem hpick
  have hpassing := (mem_preferring.mp hmem).1
  have hchosen := pick_chosen hpick
  unfold StaysCheapest
  unfold Chosen at hchosen
  constructor
  · intro hcheap
    refine ⟨⟨_, hmem, hcheap⟩, ?_⟩
    cases hquality : c.quality with
    | cheap => trivial
    | high =>
      rw [hquality] at hchosen
      dsimp only at hchosen ⊢
      split_ifs at hchosen with hor
      · exact hor.imp_right Or.inl
      · exact Or.inr (Or.inr ⟨_, hchosen.mem, hcheap⟩)
    | balanced =>
      rw [hquality] at hchosen
      dsimp only at hchosen ⊢
      cases hchosen with
      | real _ _ cheapestReal _ => exact Or.inl ⟨_, cheapestReal.mem, hcheap⟩
      | least cheapest far =>
        cases hreal : sel.chosen.isReal with
        | true => exact Or.inl ⟨_, List.mem_filter.mpr ⟨hmem, hreal⟩, hcheap⟩
        | false =>
          -- a mock was chosen, so every real one is too far from the cheapest
          refine Or.inr fun p hp q hq hqcheap => ?_
          obtain ⟨real, hmin⟩ := exists_firstMin (estimate messages policy) (List.ne_nil_of_mem hp)
          have heq : estimate messages policy q = estimate messages policy sel.chosen :=
            le_antisymm (hqcheap _ hpassing) (hcheap q hq)
          rw [heq]
          exact (far hreal real hmin).trans_le (hmin.le hp)
  · rintro ⟨⟨least, hleast, hcheap⟩, hstays⟩
    cases hquality : c.quality with
    | cheap =>
      rw [hquality] at hchosen
      exact cheapest_of_firstMin hchosen hleast hcheap
    | high =>
      rw [hquality] at hchosen hstays
      dsimp only at hchosen hstays
      split_ifs at hchosen with hor
      · exact cheapest_of_firstMin hchosen hleast hcheap
      · obtain ⟨hlowest, hreals⟩ := not_or.mp hor
        obtain ⟨p, hp, hpcheap⟩ := (hstays.resolve_left hlowest).resolve_left hreals
        exact cheapest_of_firstMin hchosen hp hpcheap
    | balanced =>
      rw [hquality] at hchosen hstays
      dsimp only at hchosen hstays
      cases hchosen with
      | @real least' _ cheapest mock cheapestReal close =>
        rcases hstays with ⟨p, hp, hpcheap⟩ | hfar
        · exact cheapest_of_firstMin cheapestReal hp hpcheap
        -- the real one was taken because it is close, which is excluded
        · have hlt := hfar _ cheapestReal.mem least' (mem_preferring.mp cheapest.mem).1
            (cheapest_of_firstMin cheapest hleast hcheap)
          exact absurd close (not_le.mpr hlt)
      | least cheapest _ => exact cheapest_of_firstMin cheapest hleast hcheap

theorem relaxed_cheapest_cheap : ∃ sel,
    selectProvider closePrices hello (noBudget .cheap) upAndRunning [] defaultGatewayPolicy =
        .ok sel ∧
      Cheapest closePrices hello (noBudget .cheap) upAndRunning [] defaultGatewayPolicy
        sel.chosen := by
  obtain ⟨sel, hsel, -⟩ := @exists_eq_ok _ _
    (selectProvider closePrices hello (noBudget .cheap) upAndRunning [] defaultGatewayPolicy)
    (fun sel => sel.chosen.name = "mock-x") _ (by decide +kernel)
  refine ⟨sel, hsel, (relaxed_cheapest_iff ?_ hsel).mpr ⟨?_, trivial⟩⟩
  · decide +kernel
  · decide +kernel

/-- **A relaxed budget buys the dearer provider**, with a reason that says the opposite. -/
theorem relaxed_budget_dearer : ∃ sel,
    selectProvider closePrices hello (noBudget .high) upAndRunning [] defaultGatewayPolicy =
        .ok sel ∧
      sel.reason.remarks = [.overBudget (.ofRat 0)] ∧
      (∀ p ∈ passing closePrices (noBudget .high) upAndRunning [],
        affordable hello (noBudget .high) defaultGatewayPolicy p = false) ∧
      ¬ Cheapest closePrices hello (noBudget .high) upAndRunning [] defaultGatewayPolicy
        sel.chosen :=
  exists_eq_ok (by decide +kernel)

end Decision

end PolyGate.Gateway.BestProvider
