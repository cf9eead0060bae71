import PolyGate.Gateway.Router

/-!
# `Gateway/Decisions.lean` — decision cards and decision records

`gateway/app/decisions.py`, with the `DecisionCard` of `models.py` that a record is made from. Of
the record's checks only `validate_failover_fields` is here. Its time zone check is not: the one
place that builds a record passes `datetime.now(UTC)`.
-/

namespace PolyGate.Gateway

open Lib

/-- The reason of a decision. -/
inductive Reason
  /-- "精确缓存命中，未调用任何 Provider，成本为 0" -/
  | cacheHit
  /-- "用户强制指定 …" -/
  | forced (name : String)
  | selected (why : SelectReason)
  /-- "…；… 失败，自动切换到 …（…）" -/
  | failedOver (before : Reason) (failed fallback : String) (why : SelectReason)
  deriving DecidableEq

structure Tokens where
  input : Nat
  output : Nat
  deriving DecidableEq, Repr

structure DecisionCard where
  chosenProvider : String
  reason : Reason
  cacheHit : Bool
  costEstimateUsd : ℚ
  latencyMs : Int
  tokens : Tokens
  requestId : String
  retries : Nat
  failoverFrom : Option String

inductive DecisionOutcome | success | cacheHit | cancelled | partialError
  deriving DecidableEq, Repr

structure DecisionRecord where
  requestId : String
  outcome : DecisionOutcome
  chosenProvider : String
  initialProvider : String
  reason : Reason
  cacheHit : Bool
  stream : Bool
  costEstimateUsd : ℚ
  latencyMs : Int
  tokens : Tokens
  retries : Nat
  failoverFrom : Option String
  failoverCount : Int
  createdAt : Time
  expiresAt : Time

/-- The `ValueError` of the validator. -/
structure ValueError where
  msg : String
  deriving DecidableEq, Repr

def DecisionRecord.validateFailoverFields (r : DecisionRecord) : Except ValueError Unit :=
  if r.failoverCount = 0 ∧ r.failoverFrom.isSome then
    .error ⟨"failover_from requires failover_count greater than zero"⟩
  else if 0 < r.failoverCount ∧ r.failoverFrom.isNone then
    .error ⟨"failover_count requires failover_from"⟩
  else if r.expiresAt ≤ r.createdAt then .error ⟨"expires_at must be later than created_at"⟩
  else .ok ()

/-- `DecisionStore.ttl_seconds`, between `MIN_DECISION_TTL_SECONDS` and
`MAX_DECISION_TTL_SECONDS`. -/
structure TtlSeconds where
  seconds : Nat
  bounds : 60 ≤ seconds ∧ seconds ≤ 86400

/-- `_decision_record` -/
def decisionRecord (ttl : TtlSeconds) (card : DecisionCard) (outcome : DecisionOutcome)
    (initialProvider : String) (stream : Bool) (failoverCount : Int) (now : Time) :
    DecisionRecord where
  requestId := card.requestId
  outcome := outcome
  chosenProvider := card.chosenProvider
  initialProvider := initialProvider
  reason := card.reason
  cacheHit := card.cacheHit
  stream := stream
  costEstimateUsd := card.costEstimateUsd
  latencyMs := card.latencyMs
  tokens := card.tokens
  retries := card.retries
  failoverFrom := card.failoverFrom
  failoverCount := failoverCount
  createdAt := now
  expiresAt := now + ttl.seconds

/-- The validator accepts a record whose failover fields say the same thing. -/
theorem decisionRecord_valid {ttl : TtlSeconds} {card : DecisionCard} {outcome : DecisionOutcome}
    {initialProvider : String} {stream : Bool} {failoverCount : Int} {now : Time}
    (h : card.failoverFrom.isSome = true ↔ 0 < failoverCount) :
    (decisionRecord ttl card outcome initialProvider stream failoverCount now
      ).validateFailoverFields
      = .ok () := by
  have httl : ttl.seconds ≠ 0 := Nat.pos_iff_ne_zero.mp (lt_of_lt_of_le (by decide) ttl.bounds.1)
  unfold DecisionRecord.validateFailoverFields decisionRecord
  by_cases hf : card.failoverFrom.isSome = true
  · have hpos : 0 < failoverCount := h.mp hf
    obtain ⟨name, hname⟩ := Option.isSome_iff_exists.mp hf
    simp [hname, hpos.ne', httl]
  · have hneg : ¬ 0 < failoverCount := fun hc => hf (h.mpr hc)
    simp [hf, hneg, httl]

end PolyGate.Gateway
