import PolyGate.Gateway.Adapters
import PolyGate.Gateway.BestProvider

/-!
# `Gateway/TextForms.lean` — the same text as a string or as blocks

A message may hold its text as a string or as a list of text blocks, and a provider that takes no
blocks is sent the same string for both (`normalizeSource_sameText`). The router prices them by
`len(content)`, which counts the characters of a string and the blocks of a list, so a decision is
the same for both under every registry and policy only if these counts make the same number of
tokens (`same_decisions_iff`).
-/

namespace PolyGate.Gateway.TextForms

open Lib

/-- A text block. -/
def IsText (block : Obj) : Prop :=
  visual block = false ∧ ∃ text, Obj.get? block "text" = some (.str text)

/-- The second message holds the text of the first as it is, or as a list of text blocks. -/
inductive SameText (m : Obj) : Obj → Prop
  | string : SameText m m
  | blocks {s : PyStr} {bs : List Obj} (content : Obj.get? m "content" = some (.str s))
      (texts : ∀ block ∈ bs, IsText block) (text : bs.flatMap textOf = s) :
      SameText m (setItem m (str "content") (.arr (bs.map .obj)))

/-! ## What a provider is sent -/

/-- **A provider that takes no blocks is sent the same message.** -/
theorem normalizeSource_sameText {m m' : Obj} (h : SameText m m') (name : String)
    (acceptsDeveloper : Bool) {d : Obj}
    (hd : normalizeSource name false acceptsDeveloper (.obj m) = .ok d) :
    ∃ d', normalizeSource name false acceptsDeveloper (.obj m') = .ok d' ∧
      ∀ key, Obj.get? d' key = Obj.get? d key := by
  cases h with
  | string => exact ⟨d, hd, fun _ => rfl⟩
  | @blocks s bs content texts text =>
    have hnil : visualTypes bs = [] :=
      visualTypes_eq_nil.mpr fun block hblock => (texts block hblock).1
    rw [normalizeSource_kept (Or.inr (by rw [content]; simp))] at hd
    obtain rfl := Except.ok.inj hd
    refine ⟨_, (normalizeSource_blocks (by rw [Obj.get?_setItem, if_pos rfl])
      fun block hblock => hashable_of_not_visual (texts block hblock).1).trans (if_pos hnil),
      fun key => ?_⟩
    have hrole : Obj.get? (setItem m (str "content") (.arr (bs.map .obj))) "role" =
        Obj.get? m "role" := by
      rw [Obj.get?_setItem, if_neg (by decide)]
    unfold adaptRole
    rw [text, hrole]
    by_cases hkey : key = "content"
    · split
      · simp [hkey, content]
      · simp [hkey, content]
    · split
      · simp [hkey]
      · simp [hkey]

/-! ## How it is routed -/

/-- The provider that is chosen, or the refusal. -/
def decision (providers : List Provider) (messages : List Obj) (c : PolygateConstraints)
    (health : Health) (required : List String) (policy : GatewayRoutingPolicy) :
    Except RoutingError Provider :=
  (selectProvider providers messages c health required policy).map (·.chosen)

/-- A decision sees the messages through their number of tokens only. -/
theorem decision_congr {messages messages' : List Obj}
    (h : roughInputTokens messages = roughInputTokens messages') (providers : List Provider)
    (c : PolygateConstraints) (health : Health) (required : List String)
    (policy : GatewayRoutingPolicy) : decision providers messages c health required policy =
      decision providers messages' c health required policy := by
  unfold decision selectProvider
  rw [h]

/-- A provider that takes a dollar for each token it is sent. -/
def dollarPerToken : Provider where
  name := "mock-x"
  kind := some (.str (str "mock"))
  privacy := some (.str (str "internal"))
  capabilities := none
  typicalLatencyMs := none
  qualityRank := none
  pricePer1kInput := some 1000
  pricePer1kOutput := some 0

theorem roundHalfEven_intCast (z : Int) : roundHalfEven z = z := by
  unfold roundHalfEven
  simp

theorem roundTo_natCast (digits n : Nat) : roundTo digits n = n := by
  unfold roundTo
  have hcast : (n : ℚ) * 10 ^ digits = ((n * 10 ^ digits : Int) : ℚ) := by push_cast; rfl
  rw [hcast, roundHalfEven_intCast]
  push_cast
  exact mul_div_cancel_right₀ _ (pow_ne_zero _ (by norm_num))

theorem estimateCost_dollarPerToken (n : Nat) (m : Int) :
    estimateCost dollarPerToken n m = n := by
  have hcost : (1000 : ℚ) * ((n : Int) : ℚ) / 1000 + 0 * (m : ℚ) / 1000 = n := by
    push_cast
    ring
  unfold estimateCost
  show roundTo 8 (1000 * ((n : Int) : ℚ) / 1000 + 0 * (m : ℚ) / 1000) = n
  rw [hcost, roundTo_natCast]

theorem budget_nonneg (n : Nat) : (PyFloat.ofRat n).below 0 = false := by
  show decide (PyFloat.value _ _ < 0) = false
  rw [PyFloat.value_ofRat]
  simp

/-- A budget of as many dollars. -/
def budget (n : Nat) : PolygateConstraints :=
  { PolygateConstraints.default with
    maxCostUsd := .ofRat n
    maxCostUsd_nonneg := budget_nonneg n }

/-- The request is served when its tokens are within the budget. -/
theorem decision_dollarPerToken (messages : List Obj) (n : Nat) :
    decision [dollarPerToken] messages (budget n) BestProvider.upAndRunning []
        BestProvider.hardPolicy =
      if roughInputTokens messages ≤ n then .ok dollarPerToken
      else .error (.noBudget (.ofRat n)) := by
  have hfits : (budget n).maxCostUsd.atLeast (estimateCost dollarPerToken
      (roughInputTokens messages) BestProvider.hardPolicy.assumedOutputTokens) =
      decide (roughInputTokens messages ≤ n) := by
    rw [estimateCost_dollarPerToken]
    show decide (_ ≤ PyFloat.value _ _) = _
    rw [PyFloat.value_ofRat]
    exact decide_eq_decide.mpr Nat.cast_le
  have hgated : gated [dollarPerToken] (budget n) BestProvider.upAndRunning [] = [dollarPerToken] :=
    rfl
  unfold decision selectProvider withinBudget
  rw [hgated]
  by_cases h : roughInputTokens messages ≤ n
  · have hfilter : ([dollarPerToken].filter fun p => (budget n).maxCostUsd.atLeast
        (estimateCost p (roughInputTokens messages) BestProvider.hardPolicy.assumedOutputTokens)) =
        [dollarPerToken] := by
      rw [List.filter_singleton, hfits, decide_eq_true h]
      rfl
    dsimp only
    rw [hfilter, if_pos h]
    rfl
  · have hfilter : ([dollarPerToken].filter fun p => (budget n).maxCostUsd.atLeast
        (estimateCost p (roughInputTokens messages) BestProvider.hardPolicy.assumedOutputTokens)) =
        [] := by
      rw [List.filter_singleton, hfits, decide_eq_false h]
      rfl
    dsimp only
    rw [hfilter, if_neg h]
    rfl

/-- **Two forms of a text are decided alike everywhere exactly when they count alike.** -/
theorem same_decisions_iff (messages messages' : List Obj) :
    (∀ providers c health required policy, decision providers messages c health required policy =
        decision providers messages' c health required policy) ↔
      roughInputTokens messages = roughInputTokens messages' := by
  constructor
  · intro h
    have hle {ms ms' : List Obj} (heq : ∀ n, decision [dollarPerToken] ms (budget n)
        BestProvider.upAndRunning [] BestProvider.hardPolicy = decision [dollarPerToken] ms'
        (budget n) BestProvider.upAndRunning [] BestProvider.hardPolicy) :
        roughInputTokens ms ≤ roughInputTokens ms' := by
      have hn := heq (roughInputTokens ms')
      rw [decision_dollarPerToken, decision_dollarPerToken, if_pos le_rfl] at hn
      by_contra hlt
      rw [if_neg hlt] at hn
      cases hn
    exact le_antisymm (hle fun n => h ..) (hle fun n => (h ..).symm)
  · intro h providers c health required policy
    exact decision_congr h providers c health required policy

/-- Twelve characters, three tokens. -/
def helloWorld : Obj := (Message.user (str "hello, world")).modelDump

def helloWorldBlock : Obj :=
  [(str "type", .str (str "text")), (str "text", .str (str "hello, world"))]

/-- The same text as one block, one token. -/
def helloWorldBlocks : Obj := setItem helloWorld (str "content") (.arr ([helloWorldBlock].map .obj))

/-- **The same text is refused as a string and served as a block.** -/
theorem blocks_slip_past_budget : List.Forall₂ SameText [helloWorld] [helloWorldBlocks] ∧
    decision [dollarPerToken] [helloWorld] (budget 1) BestProvider.upAndRunning []
        BestProvider.hardPolicy = .error (.noBudget (.ofRat 1)) ∧
    decision [dollarPerToken] [helloWorldBlocks] (budget 1) BestProvider.upAndRunning []
        BestProvider.hardPolicy = .ok dollarPerToken := by
  refine ⟨.cons (.blocks rfl ?_ rfl) .nil, ?_, ?_⟩
  · intro block hblock
    obtain rfl := List.mem_singleton.mp hblock
    exact ⟨rfl, _, rfl⟩
  · rw [decision_dollarPerToken, if_neg (by decide)]
    rfl
  · rw [decision_dollarPerToken, if_pos (by decide)]

end PolyGate.Gateway.TextForms
