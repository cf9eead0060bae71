import PolyGate.Gateway.Adapters
import PolyGate.Gateway.Downstream
import PolyGate.Gateway.SafeFailover
import PolyGate.Lib.JsonEncode
import PolyGate.Lib.PyInt

/-!
# `Gateway/ProviderAnswers.lean` — what becomes of the body of a 2xx answer

`call_provider` of `gateway/app/adapters.py` from the parsed body on, and the rest of
`chat_completions` for a request that is not streamed. `call_provider` asks that the body is an
object with a list of choices and that its usage can be read; what it lets pass is then read,
counted, stored and sent by functions that ask for more.

A JSON text and a Redis value are taken to be refused for surrogates and for numbers that are not
finite. The texts of reasons and of timestamps are left to the deployment.
-/

namespace PolyGate.Gateway.ProviderAnswers

open Lib

/-! ## `call_provider` -/

inductive CallExc
  /-- "provider … returned no choices" -/
  | noChoices
  /-- the `AttributeError` of a usage that is no `dict` -/
  | usage (e : ShapeError)
  | count (e : IntExc)

/-- `AdapterResult`, as far as it depends on the body. -/
structure AdapterResult where
  response : Obj
  inputTokens : Int
  outputTokens : Int

/-- `int(usage.get(key, 0))` -/
def tokenCount (usage : Obj) (key : String) : Except CallExc Int :=
  ((Obj.get? usage key).getD (.int 0)).toInt.mapError .count

/-- `AdapterResult.__init__` -/
def adapterResult (response : Obj) : Except CallExc AdapterResult := do
  let usage ← (orEmpty (Obj.get? response "usage")).asDict.mapError .usage
  let inputTokens ← tokenCount usage "prompt_tokens"
  let outputTokens ← tokenCount usage "completion_tokens"
  return ⟨response, inputTokens, outputTokens⟩

def callProvider : Json → Except CallExc AdapterResult
  | .obj response =>
    match Obj.get? response "choices" with
    | some (.arr _) => adapterResult response
    | _ => .error .noChoices
  | _ => .error .noChoices

/-- `AdapterResult.content`; that the choices are a list is known. -/
def AdapterResult.content (result : AdapterResult) : Except ShapeError PyStr :=
  match Obj.get? result.response "choices" with
  | some (.arr (choice :: _)) => do
    let choice ← choice.asDict
    let message ← (orEmpty (Obj.get? choice "message")).asDict
    return match Obj.get? message "content" with
      | some (.str content) => content
      | _ => []
  | _ => .ok []

/-! ## The rest of `chat_completions` -/

/-- What goes with the body. -/
structure Exchange where
  chosen : Provider
  reason : Reason
  /-- the provider that answered is the last -/
  triedNames : List String
  triedNames_pos : 1 ≤ triedNames.length
  key : Option String
  requestId : String
  retries : Nat
  latencyMs : Nat
  now : Time
  ttl : TtlSeconds
  /-- `CACHE.enabled` -/
  redis : Bool
  describe : Reason → String
  describe_pos : ∀ reason, 1 ≤ (describe reason).length
  isoformat : Time → String

inductive ServeExc
  | count (e : Downstream.Exc)
  /-- a cost that is no finite number is refused by the record or by the response -/
  | cost
  | validationError
  | encode (e : EncodeExc)
  /-- the `ValueError` of a counter -/
  | counter
  | content (e : ShapeError)

/-- The product of two floats is a finite one. -/
@[irreducible] def productFits (price : ℚ) (tokens : Int) : Bool :=
  |price * tokens| < 2 ^ 1024 - 2 ^ 970

def costFits (chosen : Provider) (inputTokens outputTokens : Int) : Bool :=
  productFits (chosen.pricePer1kInput.getD 0) inputTokens &&
    productFits (chosen.pricePer1kOutput.getD 0) outputTokens

/-- `estimate_cost` -/
def estimate (chosen : Provider) (inputTokens outputTokens : Int) : Except ServeExc ℚ := do
  let cost ← (Downstream.costOf chosen inputTokens outputTokens).mapError .count
  if costFits chosen inputTokens outputTokens then return cost else throw .cost

def tokensDump (tokens : Tokens) : Json :=
  .obj [(str "input", .int tokens.input), (str "output", .int tokens.output)]

def nameDump : Option String → Json
  | some name => .str (str name)
  | none => .null

section
variable (x : Exchange)

/-- `card.model_dump()` -/
def cardDump (card : DecisionCard) : Obj :=
  [(str "chosen_provider", .str (str card.chosenProvider)),
   (str "reason", .str (str (x.describe card.reason))), (str "cache_hit", .bool card.cacheHit),
   (str "cost_estimate_usd", .float (.ofRat card.costEstimateUsd)),
   (str "latency_ms", .int card.latencyMs), (str "tokens", tokensDump card.tokens),
   (str "retries", .int card.retries), (str "failover_from", nameDump card.failoverFrom),
   (str "request_id", .str (str card.requestId))]

/-- `record.model_dump(mode="json")` -/
def recordDump (r : DecisionRecord) : Obj :=
  [(str "schema_version", .int 1), (str "request_id", .str (str r.requestId)),
   (str "outcome", .str (str "success")), (str "chosen_provider", .str (str r.chosenProvider)),
   (str "initial_provider", .str (str r.initialProvider)),
   (str "reason", .str (str (x.describe r.reason))), (str "cache_hit", .bool r.cacheHit),
   (str "stream", .bool r.stream), (str "cost_estimate_usd", .float (.ofRat r.costEstimateUsd)),
   (str "latency_ms", .int r.latencyMs), (str "tokens", tokensDump r.tokens),
   (str "retries", .int r.retries), (str "failover_from", nameDump r.failoverFrom),
   (str "failover_count", .int r.failoverCount),
   (str "created_at", .str (str (x.isoformat r.createdAt))),
   (str "expires_at", .str (str (x.isoformat r.expiresAt)))]

/-- The bounds of the fields of a `DecisionRecord`, before `validate_failover_fields`. -/
def checkFields (r : DecisionRecord) : Bool :=
  r.chosenProvider ≠ "" && r.initialProvider ≠ "" && x.describe r.reason ≠ "" &&
    0 ≤ r.costEstimateUsd && 0 ≤ r.latencyMs && 0 ≤ r.failoverCount

/-- `CACHE.set` -/
def redisSet (v : Obj) : Except ServeExc Unit :=
  if x.redis then do
    let _ ← (encodeText (dumps (.obj v))).mapError .encode
  else return ()

/-- `_save_decision(_decision_record(…))` -/
def saveDecision (card : DecisionCard) (failoverCount : Int) : Except ServeExc Unit := do
  let record := decisionRecord x.ttl card .success (x.triedNames.head?.getD x.chosen.name) false
    failoverCount x.now
  if checkFields x record then do
    record.validateFailoverFields.mapError fun _ => .validationError
    redisSet x (recordDump x record)
  else throw .validationError

/-- `Counter.inc` -/
def inc (amount : ℚ) : Except ServeExc Unit := if amount < 0 then .error .counter else .ok ()

def recordUsage (inputTokens outputTokens : Int) (cost : ℚ) : Except ServeExc Unit := do
  inc inputTokens
  inc outputTokens
  inc cost

/-- The write of the answer to the cache. -/
def cacheAnswer (result : AdapterResult) (tokens : Tokens) : Except ServeExc Unit :=
  match x.key with
  | none => return ()
  | some _ => do
    let content ← result.content.mapError .content
    if content ≠ [] ∧ x.triedNames.length = 1 then
      redisSet x [(str "answer", .str content), (str "tokens", tokensDump tokens)]

/-- `_provider_envelope` -/
def providerEnvelope (response : Obj) (answer : PyStr) (card : DecisionCard) : Obj :=
  setItem (setItem response (str "answer") (.str answer)) (str "polygate") (.obj (cardDump x card))

/-- The response. -/
def respond (result : AdapterResult) (card : DecisionCard) : Except ServeExc ByteArray := do
  let answer ← result.content.mapError .content
  (renderJson (.obj (providerEnvelope x result.response answer card))).mapError .encode

def served (result : AdapterResult) : Failover.Served AdapterResult :=
  ⟨result, x.chosen, x.reason, x.triedNames⟩

def serve (result : AdapterResult) : Except ServeExc ByteArray := do
  let cost ← estimate x.chosen result.inputTokens result.outputTokens
  let tokens ← (Downstream.tokensOf result.inputTokens result.outputTokens).mapError .count
  let card := (served x result).card cost x.latencyMs tokens x.requestId x.retries
  saveDecision x card (served x result).failoverCount
  recordUsage result.inputTokens result.outputTokens cost
  cacheAnswer x result tokens
  respond x result card

/-! ## The law -/

/-- A body is rejected by `call_provider`, or served. -/
def RejectedOrServed (body : Json) : Prop :=
  (∃ err, callProvider body = .error err) ∨
    ∃ result, callProvider body = .ok result ∧ ∃ bytes, serve x result = .ok bytes

end

/-! ## When it holds -/

/-- The first choice can be asked for the content of its message. -/
def ReadableChoice (response : Obj) : Prop :=
  ∀ choice rest, Obj.get? response "choices" = some (.arr (choice :: rest)) →
    ∃ fields message, choice = .obj fields ∧ orEmpty (Obj.get? fields "message") = .obj message

/-- The exact cost before it is rounded. -/
def rawCost (chosen : Provider) (inputTokens outputTokens : Int) : ℚ :=
  chosen.pricePer1kInput.getD 0 * inputTokens / 1000 +
    chosen.pricePer1kOutput.getD 0 * outputTokens / 1000

/-- What the consumers ask of an answer. -/
structure Servable (x : Exchange) (response : Obj) (inputTokens outputTokens : Int) : Prop where
  input : 0 ≤ inputTokens
  output : 0 ≤ outputTokens
  inputFits : Downstream.fitsFloat inputTokens = true
  outputFits : Downstream.fitsFloat outputTokens = true
  costFits : costFits x.chosen inputTokens outputTokens = true
  /-- rounded to eight places, the cost is not negative -/
  cost : -1 / 2 ≤ rawCost x.chosen inputTokens outputTokens * 10 ^ 8
  chosen : x.chosen.name ≠ ""
  initial : x.triedNames.head? ≠ some ""
  choice : ReadableChoice response
  sendable : ∀ kv ∈ response, kv.1 ≠ str "answer" → kv.1 ≠ str "polygate" →
    SurrogateFree kv.1 ∧ Sendable kv.2

/-- Every usage that can be read comes with an answer that can be served. -/
def Tame (x : Exchange) (body : Json) : Prop :=
  ∀ response choices usage inputTokens outputTokens, body = .obj response →
    Obj.get? response "choices" = some (.arr choices) →
    orEmpty (Obj.get? response "usage") = .obj usage →
    tokenCount usage "prompt_tokens" = .ok inputTokens →
    tokenCount usage "completion_tokens" = .ok outputTokens →
    Servable x response inputTokens outputTokens

/-! ## What is read of the body -/

theorem asDict_eq_ok {v : Json} {d : Obj} : v.asDict = .ok d ↔ v = .obj d := by
  cases v <;> simp [Json.asDict]

section Read
variable {body : Json} {result : AdapterResult}

/-- What the adapter asks of a body: an object with a list of choices, and token counts that are
numbers or absent. -/
theorem callProvider_eq_ok : callProvider body = .ok result ↔
    ∃ choices usage, body = .obj result.response ∧
      Obj.get? result.response "choices" = some (.arr choices) ∧
      orEmpty (Obj.get? result.response "usage") = .obj usage ∧
      tokenCount usage "prompt_tokens" = .ok result.inputTokens ∧
      tokenCount usage "completion_tokens" = .ok result.outputTokens := by
  constructor
  · intro h
    unfold callProvider at h
    split at h
    · next response =>
      split at h
      · next choices hchoices =>
        obtain ⟨usage, husage, h⟩ := bind_eq_ok.mp h
        obtain ⟨inputTokens, hinput, h⟩ := bind_eq_ok.mp h
        obtain ⟨outputTokens, houtput, h⟩ := bind_eq_ok.mp h
        cases h
        exact ⟨choices, usage, rfl, hchoices, asDict_eq_ok.mp (mapError_eq_ok.mp husage), hinput,
          houtput⟩
      · cases h
    · cases h
  · rintro ⟨choices, usage, rfl, hchoices, husage, hinput, houtput⟩
    unfold callProvider
    dsimp only
    rw [hchoices]
    unfold adapterResult
    dsimp only
    rw [bind_of_eq_ok (mapError_eq_ok.mpr (asDict_eq_ok.mpr husage)), bind_of_eq_ok hinput,
      bind_of_eq_ok houtput]
    rfl

/-- The content is read from the first choice. -/
theorem content_isOk_iff {choices : List Json}
    (hchoices : Obj.get? result.response "choices" = some (.arr choices)) :
    (∃ content, result.content = .ok content) ↔ ReadableChoice result.response := by
  unfold AdapterResult.content ReadableChoice
  rw [hchoices]
  cases choices with
  | nil => simp
  | cons choice rest =>
    dsimp only
    constructor
    · rintro ⟨content, h⟩ choice' rest' heq
      cases heq
      obtain ⟨fields, hfields, h⟩ := bind_eq_ok.mp h
      obtain ⟨message, hmessage, -⟩ := bind_eq_ok.mp h
      exact ⟨fields, message, asDict_eq_ok.mp hfields, asDict_eq_ok.mp hmessage⟩
    · intro h
      obtain ⟨fields, message, hfields, hmessage⟩ := h choice rest rfl
      rw [bind_of_eq_ok (asDict_eq_ok.mpr hfields), bind_of_eq_ok (asDict_eq_ok.mpr hmessage)]
      exact ⟨_, rfl⟩

theorem mem_of_get? {d : Obj} {key : String} {v : Json} (h : Obj.get? d key = some v) :
    (str key, v) ∈ d := by
  unfold Obj.get? at h
  induction d with
  | nil => cases h
  | cons kv d ih =>
    obtain ⟨k, w⟩ := kv
    rw [List.lookup_cons] at h
    by_cases hk : str key = k
    · subst hk
      rw [beq_self_eq_true] at h
      cases h
      exact List.mem_cons_self
    · rw [beq_eq_false_iff_ne.mpr hk] at h
      exact List.mem_cons_of_mem _ (ih h)

/-- What can be sent as a whole can be sent in parts. -/
theorem sendable_get? {d : Obj} (hd : Sendable (.obj d)) {key : String} {v : Json}
    (h : Obj.get? d key = some v) : Sendable v :=
  (sendableFields_iff.mp hd _ (mem_of_get? h)).2

theorem sendable_orEmpty {v : Option Json} (h : ∀ w ∈ v, Sendable w) : Sendable (orEmpty v) := by
  cases v with
  | none => exact trivial
  | some w =>
    unfold orEmpty
    dsimp only
    split
    · exact h w rfl
    · exact trivial

/-- The content can be sent when the choices can. -/
theorem content_surrogateFree {content : PyStr} (h : result.content = .ok content)
    (hchoices : ∀ v, Obj.get? result.response "choices" = some v → Sendable v) :
    SurrogateFree content := by
  unfold AdapterResult.content at h
  split at h
  · next choice rest heq =>
    have hchoice : Sendable choice :=
      sendableElems_iff.mp (hchoices _ heq) choice List.mem_cons_self
    obtain ⟨fields, hfields, h⟩ := bind_eq_ok.mp h
    obtain ⟨message, hmessage, h⟩ := bind_eq_ok.mp h
    rw [asDict_eq_ok.mp hfields] at hchoice
    have hmessage' : Sendable (.obj message) := by
      rw [← asDict_eq_ok.mp hmessage]
      exact sendable_orEmpty fun w hw => sendable_get? hchoice hw
    cases h
    split
    · next heq => exact sendable_get? hmessage' heq
    · intro p hp
      cases hp
  · cases h
    intro p hp
    cases hp

end Read

/-! ## The consumers -/

section Consumers
variable {x : Exchange} {result : AdapterResult} {card : DecisionCard} {cost : ℚ}

/-- Rounding to even sends `-1/2` to zero, so a cost may be a little below zero and pass. -/
theorem roundHalfEven_nonneg_iff {q : ℚ} : 0 ≤ roundHalfEven q ↔ -1 / 2 ≤ q := by
  have hle := Int.floor_le q
  have hlt := Int.lt_floor_add_one q
  -- what is rounded up from below zero is rounded to zero
  have hcast : (0 : Int) ≤ ⌊q⌋ + 1 → (-1 : ℚ) ≤ ⌊q⌋ := by
    intro h
    have : (-1 : Int) ≤ ⌊q⌋ := by omega
    exact_mod_cast this
  unfold roundHalfEven
  dsimp only
  split_ifs with hdown hup heven
  · constructor
    · intro h
      have : (0 : ℚ) ≤ ⌊q⌋ := by exact_mod_cast h
      linarith
    · intro h
      by_contra hneg
      have : (⌊q⌋ : ℚ) ≤ -1 := by
        have : ⌊q⌋ ≤ -1 := by omega
        exact_mod_cast this
      linarith
  · constructor
    · intro h
      linarith [hcast h]
    · intro h
      have : (-2 : ℚ) < ⌊q⌋ := by linarith
      have : (-2 : Int) < ⌊q⌋ := by exact_mod_cast this
      omega
  · have hhalf : q - ⌊q⌋ = 1 / 2 := le_antisymm (not_lt.mp hup) (not_lt.mp hdown)
    constructor
    · intro h
      have : (0 : ℚ) ≤ ⌊q⌋ := by exact_mod_cast h
      linarith
    · intro h
      have : (-1 : ℚ) ≤ ⌊q⌋ := by linarith
      have : (-1 : Int) ≤ ⌊q⌋ := by exact_mod_cast this
      omega
  · have hhalf : q - ⌊q⌋ = 1 / 2 := le_antisymm (not_lt.mp hup) (not_lt.mp hdown)
    constructor
    · intro h
      linarith [hcast h]
    · intro h
      have : (-1 : ℚ) ≤ ⌊q⌋ := by linarith
      have : (-1 : Int) ≤ ⌊q⌋ := by exact_mod_cast this
      omega

theorem estimateCost_nonneg_iff {p : Provider} {i o : Int} :
    0 ≤ estimateCost p i o ↔ -1 / 2 ≤ rawCost p i o * 10 ^ 8 := by
  rw [← roundHalfEven_nonneg_iff]
  show 0 ≤ roundTo 8 (rawCost p i o) ↔ _
  unfold roundTo
  rw [le_div_iff₀ (by positivity), zero_mul, Int.cast_nonneg_iff]

/-- The cost is computed in floats, which the token counts have to fit. -/
theorem costOf_eq_ok {p : Provider} {i o : Int} : Downstream.costOf p i o = .ok cost ↔
    Downstream.fitsFloat i = true ∧ Downstream.fitsFloat o = true ∧ estimateCost p i o = cost := by
  unfold Downstream.costOf
  rw [← and_assoc, ← Bool.and_eq_true]
  split
  · next h => rw [and_iff_right h, Except.ok.injEq]
  · next h =>
    constructor
    · intro hok
      cases hok
    · rintro ⟨hfits, -⟩
      exact absurd hfits h

theorem estimate_eq_ok {i o : Int} : estimate x.chosen i o = .ok cost ↔
    Downstream.fitsFloat i = true ∧ Downstream.fitsFloat o = true ∧ costFits x.chosen i o = true ∧
      estimateCost x.chosen i o = cost := by
  constructor
  · intro h
    obtain ⟨cost', hcost, h⟩ := bind_eq_ok.mp h
    obtain ⟨hi, ho, rfl⟩ := costOf_eq_ok.mp (mapError_eq_ok.mp hcost)
    split at h
    · next hfits =>
      cases h
      exact ⟨hi, ho, hfits, rfl⟩
    · cases h
  · rintro ⟨hi, ho, hfits, hcost⟩
    unfold estimate
    rw [bind_of_eq_ok (mapError_eq_ok.mpr (costOf_eq_ok.mpr ⟨hi, ho, hcost⟩)), if_pos hfits]
    rfl

/-- The record of the decision takes no negative counts. -/
theorem tokensOf_eq_ok {i o : Int} {tokens : Tokens} : Downstream.tokensOf i o = .ok tokens ↔
    0 ≤ i ∧ 0 ≤ o ∧ tokens = ⟨i.toNat, o.toNat⟩ := by
  unfold Downstream.tokensOf
  split
  · next h => simp [h.1, h.2, eq_comm]
  · next h =>
    constructor
    · intro hok
      cases hok
    · rintro ⟨hi, ho, -⟩
      exact absurd ⟨hi, ho⟩ h

theorem sendable_tokensDump (tokens : Tokens) : Sendable (tokensDump tokens) := by
  simp [tokensDump, Sendable, SendableFields]

theorem sendable_nameDump (name : Option String) : Sendable (nameDump name) := by
  cases name <;> simp [nameDump, Sendable]

/-- A record of the gateway can be sent. -/
theorem sendable_recordDump (r : DecisionRecord) : Sendable (.obj (recordDump x r)) := by
  simp [recordDump, Sendable, SendableFields, sendable_tokensDump, sendable_nameDump,
    PyFloat.ofRat]

theorem sendable_cardDump (card : DecisionCard) : Sendable (.obj (cardDump x card)) := by
  simp [cardDump, Sendable, SendableFields, sendable_tokensDump, sendable_nameDump,
    PyFloat.ofRat]

/-- A record that can be sent is stored. -/
theorem redisSet_isOk {v : Obj} (h : Sendable (.obj v)) : redisSet x v = .ok () := by
  unfold redisSet
  split
  · have htext : SurrogateFree (dumps (.obj v)) := by
      rw [← dumpsSep_default]
      exact ((sendable_iff (surrogateFree_str ", ") (surrogateFree_str ": ") _).mp h).2
    obtain ⟨bytes, hbytes⟩ := encodeText_iff.mpr htext
    rw [bind_of_eq_ok (mapError_eq_ok.mpr hbytes)]
    rfl
  · rfl

theorem initial_iff :
    x.triedNames.head?.getD x.chosen.name ≠ "" ↔ x.triedNames.head? ≠ some "" := by
  obtain ⟨name, rest, hnames⟩ := List.exists_cons_of_length_pos x.triedNames_pos
  rw [hnames]
  simp

/-- The record of a served request is valid for named providers and a cost that is not negative. -/
theorem saveDecision_isOk_iff {tokens : Tokens} :
    saveDecision x ((served x result).card cost x.latencyMs tokens x.requestId x.retries)
        (served x result).failoverCount = .ok () ↔
      x.chosen.name ≠ "" ∧ x.triedNames.head? ≠ some "" ∧ 0 ≤ cost := by
  have hdescribe (reason : Reason) : x.describe reason ≠ "" := by
    intro h
    have hpos := x.describe_pos reason
    rw [h] at hpos
    cases hpos
  have hcount : 0 ≤ (served x result).failoverCount := by
    have hpos := x.triedNames_pos
    show (0 : Int) ≤ (x.triedNames.length : Int) - 1
    omega
  have hcheck : checkFields x (decisionRecord x.ttl
        ((served x result).card cost x.latencyMs tokens x.requestId x.retries) .success
        (x.triedNames.head?.getD x.chosen.name) false (served x result).failoverCount x.now)
          = true ↔
      x.chosen.name ≠ "" ∧ x.triedNames.head? ≠ some "" ∧ 0 ≤ cost := by
    rw [← initial_iff]
    simp [checkFields, decisionRecord, Failover.Served.card, hdescribe, hcount, and_assoc]
    exact and_congr decide_eq_true_iff (and_congr decide_eq_true_iff decide_eq_true_iff)
  rw [← hcheck]
  unfold saveDecision
  dsimp only
  constructor
  · intro h
    by_contra hfails
    rw [Bool.not_eq_true] at hfails
    rw [hfails] at h
    cases h
  · intro h
    obtain ⟨name, rest, hnames⟩ := List.exists_cons_of_length_pos x.triedNames_pos
    have hfailover : (served x result).triedNames = name :: rest := hnames
    rw [if_pos h, decisionRecord_valid (Failover.failoverFrom_cons hfailover).2]
    exact redisSet_isOk (sendable_recordDump _)

/-- Prometheus counters take no negative amounts. -/
theorem recordUsage_isOk_iff {i o : Int} :
    recordUsage i o cost = .ok () ↔ 0 ≤ i ∧ 0 ≤ o ∧ 0 ≤ cost := by
  have hinc (amount : ℚ) : inc amount = .ok () ↔ 0 ≤ amount := by
    unfold inc
    split <;> simp_all
  unfold recordUsage
  constructor
  · intro h
    obtain ⟨⟨⟩, hi, h⟩ := bind_eq_ok.mp h
    obtain ⟨⟨⟩, ho, h⟩ := bind_eq_ok.mp h
    exact ⟨Int.cast_nonneg_iff.mp ((hinc _).mp hi), Int.cast_nonneg_iff.mp ((hinc _).mp ho),
      (hinc _).mp h⟩
  · rintro ⟨hi, ho, hcost⟩
    rw [bind_of_eq_ok ((hinc _).mpr (Int.cast_nonneg_iff.mpr hi)),
      bind_of_eq_ok ((hinc _).mpr (Int.cast_nonneg_iff.mpr ho))]
    exact (hinc _).mpr hcost

/-- The cache takes an answer that can be read and sent. -/
theorem cacheAnswer_isOk {tokens : Tokens} {content : PyStr} (h : result.content = .ok content)
    (hcontent : SurrogateFree content) : cacheAnswer x result tokens = .ok () := by
  unfold cacheAnswer
  split
  · rfl
  · rw [bind_of_eq_ok (mapError_eq_ok.mpr h)]
    split
    · exact redisSet_isOk (by simp [Sendable, SendableFields, hcontent, sendable_tokensDump])
    · rfl

/-- The envelope can be sent when the provider's own fields can be. -/
theorem sendable_providerEnvelope_iff {response : Obj} {answer : PyStr}
    (hanswer : SurrogateFree answer) : Sendable (.obj (providerEnvelope x response answer card)) ↔
      ∀ kv ∈ response, kv.1 ≠ str "answer" → kv.1 ≠ str "polygate" →
        SurrogateFree kv.1 ∧ Sendable kv.2 := by
  have hcard := sendable_cardDump (x := x) card
  unfold providerEnvelope
  rw [Sendable, sendableFields_iff, forall_mem_setItem ⟨surrogateFree_str _, hcard⟩]
  exact forall_mem_setItem fun _ => ⟨surrogateFree_str _, hanswer⟩

end Consumers

/-! ## The answer as a whole -/

section Whole
variable {x : Exchange}

theorem choices_other : str "choices" ≠ str "answer" ∧ str "choices" ≠ str "polygate" := by decide

/-- An answer is served exactly when it is servable. -/
theorem serve_isOk_iff {result : AdapterResult} {choices : List Json}
    (hchoices : Obj.get? result.response "choices" = some (.arr choices)) :
    (∃ bytes, serve x result = .ok bytes) ↔
      Servable x result.response result.inputTokens result.outputTokens := by
  constructor
  · rintro ⟨bytes, h⟩
    obtain ⟨cost, hestimate, h⟩ := bind_eq_ok.mp h
    obtain ⟨tokens, htokens, h⟩ := bind_eq_ok.mp h
    obtain ⟨⟨⟩, hsaved, h⟩ := bind_eq_ok.mp h
    obtain ⟨⟨⟩, -, h⟩ := bind_eq_ok.mp h
    obtain ⟨⟨⟩, -, h⟩ := bind_eq_ok.mp h
    obtain ⟨answer, hanswer, h⟩ := bind_eq_ok.mp h
    obtain ⟨hi, ho, hfits, rfl⟩ := estimate_eq_ok.mp hestimate
    obtain ⟨hinput, houtput, -⟩ := tokensOf_eq_ok.mp (mapError_eq_ok.mp htokens)
    obtain ⟨hchosen, hinitial, hcost⟩ := saveDecision_isOk_iff.mp hsaved
    have hsent := renderJson_iff.mp ⟨bytes, mapError_eq_ok.mp h⟩
    -- the envelope holds the answer, so it could be sent
    have hfree : Sendable (.str answer) := @sendable_get? _ hsent "answer" _ (by
      rw [providerEnvelope, Obj.get?_setItem, if_neg (by decide), Obj.get?_setItem, if_pos rfl])
    exact {
      input := hinput
      output := houtput
      inputFits := hi
      outputFits := ho
      costFits := hfits
      cost := estimateCost_nonneg_iff.mp hcost
      chosen := hchosen
      initial := hinitial
      choice := (content_isOk_iff hchoices).mp ⟨answer, mapError_eq_ok.mp hanswer⟩
      sendable := (sendable_providerEnvelope_iff hfree).mp hsent }
  · intro h
    obtain ⟨content, hcontent⟩ := (content_isOk_iff hchoices).mpr h.choice
    have hfree : SurrogateFree content := content_surrogateFree hcontent fun v hv =>
      (h.sendable _ (mem_of_get? hv) choices_other.1 choices_other.2).2
    have hcost : 0 ≤ estimateCost x.chosen result.inputTokens result.outputTokens :=
      estimateCost_nonneg_iff.mpr h.cost
    obtain ⟨bytes, hbytes⟩ := renderJson_iff.mpr
      ((@sendable_providerEnvelope_iff x ((served x result).card
        (estimateCost x.chosen result.inputTokens result.outputTokens) x.latencyMs
        ⟨result.inputTokens.toNat, result.outputTokens.toNat⟩ x.requestId x.retries) _ _ hfree).mpr
        h.sendable)
    refine ⟨bytes, ?_⟩
    unfold serve
    -- step by step through `serve`
    rw [bind_of_eq_ok (estimate_eq_ok.mpr ⟨h.inputFits, h.outputFits, h.costFits, rfl⟩),
      bind_of_eq_ok (mapError_eq_ok.mpr (tokensOf_eq_ok.mpr ⟨h.input, h.output, rfl⟩))]
    dsimp only
    rw [bind_of_eq_ok (saveDecision_isOk_iff.mpr ⟨h.chosen, h.initial, hcost⟩),
      bind_of_eq_ok (recordUsage_isOk_iff.mpr ⟨h.input, h.output, hcost⟩),
      bind_of_eq_ok (cacheAnswer_isOk hcontent hfree)]
    unfold respond
    rw [bind_of_eq_ok (mapError_eq_ok.mpr hcontent)]
    exact mapError_eq_ok.mpr hbytes

/-- **Which bodies are rejected or served.** -/
theorem rejectedOrServed_iff (body : Json) : RejectedOrServed x body ↔ Tame x body := by
  constructor
  · intro h response choices usage i o hbody hchoices husage hinput houtput
    have hcall : callProvider body = .ok ⟨response, i, o⟩ :=
      callProvider_eq_ok.mpr ⟨choices, usage, hbody, hchoices, husage, hinput, houtput⟩
    rcases h with ⟨err, herr⟩ | ⟨result, hresult, hserved⟩
    · cases hcall.symm.trans herr
    · cases hcall.symm.trans hresult
      exact (serve_isOk_iff hchoices).mp hserved
  · intro h
    cases hcall : callProvider body with
    | error err => exact Or.inl ⟨err, hcall⟩
    | ok result =>
      obtain ⟨choices, usage, hbody, hchoices, husage, hinput, houtput⟩ :=
        callProvider_eq_ok.mp hcall
      exact Or.inr ⟨result, hcall, (serve_isOk_iff hchoices).mpr
        (h _ _ _ _ _ hbody hchoices husage hinput houtput)⟩

end Whole

/-! ## A choice that is null -/

theorem oneHour_bounds : 60 ≤ 3600 ∧ 3600 ≤ 86400 := by decide

theorem oneName_pos : 1 ≤ ["real-x"].length := le_rfl

theorem forcedText_pos (_ : Reason) : 1 ≤ "forced".length := by decide

/-- A request to a provider for which nothing is set. -/
def plainExchange : Exchange where
  chosen := ⟨"real-x", none, none, none, none, none, none, none⟩
  reason := .forced "real-x"
  triedNames := ["real-x"]
  triedNames_pos := oneName_pos
  key := none
  requestId := "req_00000000000000000000000000000000"
  retries := 0
  latencyMs := 0
  now := 0
  ttl := ⟨3600, oneHour_bounds⟩
  redis := false
  describe := fun _ => "forced"
  describe_pos := forcedText_pos
  isoformat := fun _ => "2026-01-01T00:00:00Z"

def nullChoice : Obj := [(str "choices", .arr [.null])]

/-- **A body that passes `call_provider` and is not served.** -/
theorem null_choice_raises : callProvider (.obj nullChoice) = .ok ⟨nullChoice, 0, 0⟩ ∧
    AdapterResult.content ⟨nullChoice, 0, 0⟩ = .error (.attributeError "NoneType" "get") ∧
    ¬ RejectedOrServed plainExchange (.obj nullChoice) := by
  have hcall : callProvider (.obj nullChoice) = .ok ⟨nullChoice, 0, 0⟩ := rfl
  refine ⟨hcall, rfl, ?_⟩
  rintro (⟨err, herr⟩ | ⟨result, hresult, hserved⟩)
  · cases hcall.symm.trans herr
  · cases hcall.symm.trans hresult
    have hservable := (@serve_isOk_iff _ _ [.null] rfl).mp hserved
    obtain ⟨fields, message, hfields, -⟩ := hservable.choice .null [] rfl
    cases hfields

end PolyGate.Gateway.ProviderAnswers
