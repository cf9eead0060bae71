import PolyGate.Gateway.BestProvider

/-!
# `Gateway/IrrelevantAlternatives.lean` — a provider that was not chosen does not matter

A choice is made from the finalists, and the finalists are what two preferences and the guardrails
leave of the registry. Each of these steps, run on a registry without some of the others, leaves
what it left before without some of the others (`Lib.Thinned`); so does the health filter when
another name goes down. What is left to see is that the pick is the same from such a pool.

The balanced pick is the one that looks at a second provider. The mock it compares with may be the
one that is missing; the next cheapest is then no cheaper, which keeps the real within the
tolerance, or is a real and then the chosen one.
-/

namespace PolyGate.Gateway.IrrelevantAlternatives

open Lib BestProvider

/-! ## The pick -/

section Pick

variable {pool fewer : List Provider} {policy : GatewayRoutingPolicy} {est : Provider → ℚ}
  {p : Provider}

theorem mem_reals : p ∈ reals pool ↔ p ∈ pool ∧ p.isReal = true := List.mem_filter

theorem reals_thinned (h : Thinned p pool fewer) (hp : p ∈ reals pool) :
    Thinned p (reals pool) (reals fewer) :=
  h.filter (mem_reals.mp hp).2

/-- The reals of the rank of one that none outranks. -/
theorem topReals_eq (hp : p ∈ topReals pool) :
    topReals pool = (reals pool).filter fun q => rank p ≤ rank q := by
  obtain ⟨hreal, htop⟩ := List.mem_filter.mp hp
  refine List.filter_congr fun q hq => ?_
  rw [Bool.eq_iff_iff, List.all_eq_true, decide_eq_true_iff]
  constructor
  · intro hall
    exact of_decide_eq_true (hall p hreal)
  · intro hle r hr
    exact decide_eq_true ((of_decide_eq_true (List.all_eq_true.mp htop r hr)).trans hle)

theorem topReals_thinned (h : Thinned p pool fewer) (hp : p ∈ topReals pool) :
    Thinned p (topReals pool) (topReals fewer) := by
  obtain ⟨hreal, htop⟩ := List.mem_filter.mp hp
  have hreals := reals_thinned h hreal
  have hstill : p ∈ topReals fewer := by
    refine List.mem_filter.mpr ⟨hreals.mem, List.all_eq_true.mpr fun q hq => ?_⟩
    exact List.all_eq_true.mp htop q (hreals.sublist.subset hq)
  rw [topReals_eq hp, topReals_eq hstill]
  exact hreals.filter (decide_eq_true le_rfl)

/-- The first of the cheapest is the first of the cheapest reals, if it is a real. -/
theorem firstMin_reals (h : FirstMin est pool p) (hreal : p.isReal = true) :
    FirstMin est (reals pool) p :=
  (Thinned.of_filter h.mem hreal).firstMin h

theorem bestReal_thinned {note : PickNote} (h : Thinned p pool fewer)
    (hp : bestReal est (reals pool) = .ok (p, note)) :
    ∃ note', bestReal est (reals fewer) = .ok (p, note') := by
  have hmin := bestReal_eq_ok hp
  have hreals := reals_thinned h (List.mem_of_mem_filter hmin.mem)
  have hranks : ∀ q ∈ reals fewer, ValidRank q := by
    obtain ⟨ranks, hmapM, -⟩ := bind_eq_ok.mp hp
    exact fun q hq => validRank_of_mapM hmapM q (hreals.sublist.subset hq)
  have hcheapest := cheapest_eq_ok.mpr ((topReals_thinned h hmin.mem).firstMin hmin)
  rw [bestReal_eq hranks, hcheapest]
  exact ⟨_, rfl⟩

/-- The balanced choice, from the pool without some of the others. -/
theorem balanced_thinned {tolerance : ℚ} (hnonneg : 0 ≤ tolerance) (h : Thinned p pool fewer)
    (hp : Balanced est tolerance pool p) : Balanced est tolerance fewer p := by
  cases hp with
  | @real least _ cheapest mock cheapestReal close =>
    have hreal := (mem_reals.mp cheapestReal.mem).2
    have hminReal := (reals_thinned h cheapestReal.mem).firstMin cheapestReal
    obtain ⟨least', hleast'⟩ := exists_firstMin est (List.ne_nil_of_mem h.mem)
    cases hmock : least'.isReal with
    | true =>
      -- a real has become the cheapest, and the chosen one is the first of the cheapest reals
      rw [hminReal.unique (firstMin_reals hleast' hmock)]
      exact .least hleast' fun hfalse => by cases hfalse.symm.trans hmock
    | false =>
      refine .real hleast' hmock hminReal (close.trans ?_)
      have hle : est least ≤ est least' := cheapest.le (h.sublist.subset hleast'.mem)
      exact mul_le_mul_of_nonneg_right hle (by linarith)
  | least cheapest far =>
    refine .least (h.firstMin cheapest) fun hmock real hmin => ?_
    have hmem : real ∈ reals pool :=
      mem_reals.mpr ⟨h.sublist.subset (mem_reals.mp hmin.mem).1, (mem_reals.mp hmin.mem).2⟩
    obtain ⟨first, hfirst⟩ := exists_firstMin est (List.ne_nil_of_mem hmem)
    exact (far hmock first hfirst).trans_le (hfirst.le hmem)

/-- What the balanced choice is, the pick picks. -/
theorem pick_balanced (hp : Balanced est policy.balancedPriceTolerance pool p) :
    ∃ note, pick est .balanced policy pool = .ok (p, note) := by
  unfold pick
  cases hp with
  | @real least _ hmin mock hminReal close =>
    have hne : reals pool ≠ [] := List.ne_nil_of_mem hminReal.mem
    have hsecond : ¬ (least.isReal || decide (reals pool = [])) = true := by simp [mock, hne]
    refine ⟨.balancedReal policy.balancedPriceTolerance, ?_⟩
    show (cheapest est pool >>= _) = _
    rw [bind_of_eq_ok (cheapest_eq_ok.mpr hmin)]
    show (if (least.isReal || decide (reals pool = [])) = true then _ else _) = _
    rw [if_neg hsecond]
    show (cheapest est (reals pool) >>= _) = _
    rw [bind_of_eq_ok (cheapest_eq_ok.mpr hminReal)]
    exact if_pos close
  | least hmin far =>
    show ∃ note, (cheapest est pool >>= _) = _
    rw [bind_of_eq_ok (cheapest_eq_ok.mpr hmin)]
    by_cases hfirst : (p.isReal || decide (reals pool = [])) = true
    · exact ⟨.balancedCheapest, if_pos hfirst⟩
    · refine ⟨.balancedTooFar, (if_neg hfirst).trans ?_⟩
      obtain ⟨hmock, hne⟩ := not_or.mp (mt (Bool.or_eq_true _ _).mpr hfirst)
      rw [decide_eq_true_iff] at hne
      obtain ⟨real, hminReal⟩ := exists_firstMin est hne
      show (cheapest est (reals pool) >>= _) = _
      rw [bind_of_eq_ok (cheapest_eq_ok.mpr hminReal)]
      exact if_neg (not_le.mpr (far (Bool.eq_false_iff.mpr hmock) real hminReal))

/-- **The pick is the same without some of the others.** -/
theorem pick_thinned {quality : Quality} {note : PickNote} (h : Thinned p pool fewer)
    (hp : pick est quality policy pool = .ok (p, note)) :
    ∃ note', pick est quality policy fewer = .ok (p, note') := by
  have hchosen := pick_chosen hp
  have hcheapest {note : PickNote} (hmin : FirstMin est pool p) :
      (do return (← cheapest est fewer, note) : Except RoutingError (Provider × PickNote)) =
        .ok (p, note) := by
    rw [cheapest_eq_ok.mpr (h.firstMin hmin)]
    rfl
  cases quality with
  | cheap => exact ⟨.cheap, hcheapest hchosen⟩
  | balanced =>
    have hnonneg : 0 ≤ policy.balancedPriceTolerance := policy.balancedPriceTolerance_bounds.1
    exact pick_balanced (balanced_thinned hnonneg h hchosen)
  | high =>
    by_cases hlowest : policy.highQualityStrategy = .lowestCost
    · refine ⟨.highLowestCost, (if_pos hlowest).trans (hcheapest ?_)⟩
      exact (if_pos (Or.inl hlowest)).mp hchosen
    · by_cases hreals : reals pool = []
      -- without a real provider in the pool there is none in what is left
      · have hnone : reals fewer = [] := by
          refine List.eq_nil_iff_forall_not_mem.mpr fun q hq => ?_
          have hmem := (h.sublist.filter (·.isReal)).subset hq
          exact List.eq_nil_iff_forall_not_mem.mp hreals q hmem
        refine ⟨.highNoReal, (if_neg hlowest).trans ((if_neg (not_not.mpr hnone)).trans ?_)⟩
        refine hcheapest ?_
        have hor : policy.highQualityStrategy = .lowestCost ∨ reals pool = [] := Or.inr hreals
        simpa only [Chosen, hor, if_true] using hchosen
      · have hbest : bestReal est (reals pool) = .ok (p, note) := by
          have hsteps := hp
          simp only [pick, hlowest, if_false] at hsteps
          exact (if_pos hreals).symm.trans hsteps
        obtain ⟨note', hnote'⟩ := bestReal_thinned h hbest
        have hsome : reals fewer ≠ [] := by
          have hmin := bestReal_eq_ok hbest
          exact List.ne_nil_of_mem (reals_thinned h (List.mem_of_mem_filter hmin.mem)).mem
        exact ⟨note', (if_neg hlowest).trans ((if_pos hsome).trans hnote')⟩

end Pick

/-! ## The decision -/

section Decision

variable {providers providers' pool : List Provider} {messages : List Obj}
  {c : PolygateConstraints} {health health' : Health} {required : List String}
  {policy : GatewayRoutingPolicy} {est : Provider → ℚ} {p : Provider} {sel : Selection}

theorem withinBudget_total
    (h : policy.budgetMode = .hard → ∃ p ∈ pool, c.maxCostUsd.atLeast (est p) = true) :
    ∃ remarks, withinBudget est c policy pool =
      .ok (preferring (fun p => c.maxCostUsd.atLeast (est p)) pool, remarks) := by
  cases hb : withinBudget est c policy pool with
  | ok r => exact ⟨r.2, by rw [← (withinBudget_eq_ok hb).1]⟩
  | error e =>
    obtain ⟨hhard, hnone⟩ := withinBudget_eq_error hb
    obtain ⟨q, hq, hfits⟩ := h hhard
    rw [hnone q hq] at hfits
    cases hfits

theorem withinLatency_total
    (h : policy.latencyMode = .hard → ∃ p ∈ pool, meetsLatency c p = true) :
    ∃ remarks, withinLatency c policy pool = .ok (preferring (meetsLatency c) pool, remarks) := by
  cases hl : withinLatency c policy pool with
  | ok r => exact ⟨r.2, by rw [← (withinLatency_eq_ok hl).1]⟩
  | error e =>
    obtain ⟨hhard, hnone⟩ := withinLatency_eq_error hl
    obtain ⟨q, hq, hmeets⟩ := h hhard
    rw [hnone q hq] at hmeets
    cases hmeets

/-- A pick from the finalists is the decision, if both constraints can be kept where they must. -/
theorem selectProvider_of_pick {note : PickNote}
    (hbudget : policy.budgetMode = .hard →
      ∃ p ∈ passing providers c health required, affordable messages c policy p = true)
    (hlatency : policy.latencyMode = .hard →
      ∃ p ∈ survivors providers messages c health required policy, meetsLatency c p = true)
    (hpick : pick (estimate messages policy) c.quality policy
      (finalists providers messages c health required policy) = .ok (p, note)) :
    ∃ sel, selectProvider providers messages c health required policy = .ok sel ∧
      sel.chosen = p := by
  obtain ⟨budgetRemarks, hb⟩ := withinBudget_total hbudget
  obtain ⟨latencyRemarks, hl⟩ := withinLatency_total hlatency
  have hne : survivors providers messages c health required policy ≠ [] :=
    List.ne_nil_of_mem (mem_finalists.mp (pick_mem hpick)).1
  unfold selectProvider
  rw [gated_eq]
  apply Exists.intro
  constructor
  · refine (bind_of_eq_ok hb).trans ((if_neg hne).trans ?_)
    exact (bind_of_eq_ok hl).trans (bind_of_eq_ok hpick)
  · rfl

/-- **A decision is the same as long as what passes the guardrails is the same without some of the
others.** -/
theorem selectProvider_thinned
    (h : selectProvider providers messages c health required policy = .ok sel)
    (hpassing : Thinned sel.chosen (passing providers c health required)
      (passing providers' c health' required)) :
    ∃ sel', selectProvider providers' messages c health' required policy = .ok sel' ∧
      sel'.chosen = sel.chosen := by
  obtain ⟨hbudget, hlatency, note, hpick⟩ := selectProvider_eq_ok h
  obtain ⟨hsurvives, hmeets⟩ := mem_finalists.mp (pick_mem hpick)
  have hsurvivors : Thinned sel.chosen (survivors providers messages c health required policy)
      (survivors providers' messages c health' required policy) := hpassing.preferring hsurvives
  have hfinalists : Thinned sel.chosen (finalists providers messages c health required policy)
      (finalists providers' messages c health' required policy) :=
    hsurvivors.preferring (pick_mem hpick)
  obtain ⟨note', hpick'⟩ := pick_thinned hfinalists hpick
  -- the chosen one keeps both constraints where they must be kept
  refine selectProvider_of_pick (fun hhard => ?_) (fun hhard => ?_) hpick'
  · exact ⟨sel.chosen, hpassing.mem, (mem_survivors.mp hsurvives).2 (hbudget hhard)⟩
  · exact ⟨sel.chosen, hsurvivors.mem, hmeets (hlatency hhard)⟩

/-- The health map with one more name down. -/
def markDown (health : Health) (name : String) : Health := Function.update health name (some "down")

theorem passes_markDown {name : String} : Passes c (markDown health name) required p ↔
    Passes c health required p ∧ p.name ≠ name := by
  have hup : markDown health name p.name ≠ some "down" ↔
      health p.name ≠ some "down" ∧ p.name ≠ name := by
    unfold markDown
    by_cases heq : p.name = name
    · simp [heq]
    · simp [heq]
  constructor
  · intro h
    exact ⟨⟨h.internal, h.capable, (hup.mp h.up).1⟩, (hup.mp h.up).2⟩
  · intro h
    exact ⟨h.1.internal, h.1.capable, hup.mpr ⟨h.1.up, h.2⟩⟩

theorem passing_markDown {name : String} : passing providers c (markDown health name) required =
    (passing providers c health required).filter fun p => p.name ≠ name := by
  unfold passing
  rw [List.filter_filter]
  refine List.filter_congr fun p _ => ?_
  rw [Bool.eq_iff_iff, Bool.and_eq_true, decide_eq_true_iff, decide_eq_true_iff, decide_eq_true_iff,
    passes_markDown, and_comm]

theorem chosen_passing (h : selectProvider providers messages c health required policy = .ok sel) :
    sel.chosen ∈ passing providers c health required := by
  rw [← gated_eq]
  exact selectProvider_mem h

/-! ## Independence -/

/-- Two entries of one name, one of them dear. -/
def namesakes : List Provider :=
  [entry "twin" "mock" "internal" (1 / 1000) 300, entry "twin" "mock" "internal" 1 300]

/-- **Who was not chosen does not matter.** Another entry may be taken out of the registry, and
another name may go down. -/
theorem others_irrelevant
    (h : selectProvider providers messages c health required policy = .ok sel) :
    (∀ before q after, providers = before ++ q :: after → q ≠ sel.chosen ∨ sel.chosen ∈ before →
      ∃ sel', selectProvider (before ++ after) messages c health required policy = .ok sel' ∧
        sel'.chosen = sel.chosen) ∧
    ∀ name, name ≠ sel.chosen.name →
      ∃ sel', selectProvider providers messages c (markDown health name) required policy =
          .ok sel' ∧ sel'.chosen = sel.chosen := by
  have hpassing := chosen_passing h
  obtain ⟨hlisted, hpasses⟩ := mem_passing.mp hpassing
  constructor
  · intro before q after heq hother
    subst heq
    refine selectProvider_thinned h ?_
    exact (Thinned.of_append hlisted hother).filter (decide_eq_true hpasses)
  · intro name hname
    refine selectProvider_thinned h ?_
    rw [passing_markDown]
    exact Thinned.of_filter hpassing (decide_eq_true hname.symm)

theorem others_irrelevant_close : ∃ sel,
    selectProvider closePrices hello .default upAndRunning [] defaultGatewayPolicy = .ok sel ∧
      sel.chosen.name = "real-x" ∧
      (∃ sel', selectProvider (closePrices.take 1) hello .default upAndRunning []
          defaultGatewayPolicy = .ok sel' ∧ sel'.chosen = sel.chosen) ∧
      ∃ sel', selectProvider closePrices hello .default (markDown upAndRunning "mock-x") []
          defaultGatewayPolicy = .ok sel' ∧ sel'.chosen = sel.chosen := by
  obtain ⟨sel, hsel, hname⟩ := @exists_eq_ok _ _
    (selectProvider closePrices hello .default upAndRunning [] defaultGatewayPolicy)
    (fun sel => sel.chosen.name = "real-x") _ (by decide +kernel)
  refine ⟨sel, hsel, hname, (others_irrelevant hsel).1 (closePrices.take 1) _ [] rfl (Or.inl ?_),
    (others_irrelevant hsel).2 "mock-x" ?_⟩
  · intro heq
    rw [← heq] at hname
    exact absurd hname (by decide)
  · rw [hname]
    decide

/-- **A namesake that goes down takes the chosen provider with it**: the health map knows names
only. -/
theorem namesake_down : ∃ sel,
    selectProvider namesakes hello .default upAndRunning [] defaultGatewayPolicy = .ok sel ∧
      ∃ q ∈ namesakes, q ≠ sel.chosen ∧
        ¬ ∃ sel', selectProvider namesakes hello .default (markDown upAndRunning q.name) []
            defaultGatewayPolicy = .ok sel' ∧ sel'.chosen = sel.chosen := by
  obtain ⟨sel, hsel, hprice⟩ := @exists_eq_ok _ _
    (selectProvider namesakes hello .default upAndRunning [] defaultGatewayPolicy)
    (fun sel => sel.chosen.pricePer1kInput = some (1 / 1000)) _ (by decide +kernel)
  obtain ⟨e, he, -⟩ := @exists_eq_error _ _
    (selectProvider namesakes hello .default (markDown upAndRunning "twin") []
      defaultGatewayPolicy) (fun e => e = .noEligible []) _ (by decide +kernel)
  refine ⟨sel, hsel, _, List.mem_cons_of_mem _ List.mem_cons_self, ?_, ?_⟩
  · intro heq
    rw [← heq] at hprice
    exact absurd hprice (by decide +kernel)
  · rintro ⟨sel', hsel', -⟩
    cases he.symm.trans hsel'

end Decision

end PolyGate.Gateway.IrrelevantAlternatives
