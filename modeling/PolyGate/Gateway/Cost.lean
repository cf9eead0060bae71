import Mathlib.Data.Rat.Floor
import PolyGate.Gateway.Models

/-!
# `Gateway/Cost.lean` — registry entries, and what a call is expected to cost

`gateway/app/cost.py`, and the entries of `contracts/providers.yaml` as `registry.py` loads them.
A field that the code compares or type-checks itself may hold any JSON value. Prices and
latencies are numbers; arithmetic on them is exact, and the estimate is rounded as `round(…, 8)`
rounds.
-/

namespace PolyGate.Gateway

open Lib

/-- An entry of the registry, with `none` for an absent field. -/
structure Provider where
  name : String
  kind : Option Json
  privacy : Option Json
  capabilities : Option Obj
  typicalLatencyMs : Option ℚ
  qualityRank : Option Json
  pricePer1kInput : Option ℚ
  pricePer1kOutput : Option ℚ

/-- `p.get(field) == text` -/
def fieldIs (text : String) : Option Json → Bool
  | some v => v.isText text
  | none => false

theorem fieldIs_iff {text : String} {v : Option Json} :
    fieldIs text v = true ↔ v = some (.str (str text)) := by
  cases v <;> simp [fieldIs, Json.isText_iff]

/-- Round to the nearest integer, ties to the even one. -/
def roundHalfEven (x : ℚ) : Int :=
  let down := ⌊x⌋
  if x - down < 1 / 2 then down
  else if 1 / 2 < x - down then down + 1
  else if down % 2 = 0 then down
  else down + 1

/-- `round(x, digits)` -/
def roundTo (digits : Nat) (x : ℚ) : ℚ := roundHalfEven (x * 10 ^ digits) / 10 ^ digits

def estimateCost (provider : Provider) (inputTokens outputTokens : Int) : ℚ :=
  let pin := provider.pricePer1kInput.getD 0
  let pout := provider.pricePer1kOutput.getD 0
  roundTo 8 (pin * inputTokens / 1000 + pout * outputTokens / 1000)

/-- `len(m.get("content", ""))`; a dumped message has a text or a list there, if anything. -/
def contentLength (m : Obj) : Nat :=
  match Obj.get? m "content" with
  | some (.str s) => s.length
  | some (.arr elems) => elems.length
  | some (.obj fields) => fields.length
  | _ => 0

/-- About four characters a token. -/
def roughInputTokens (messages : List Obj) : Nat :=
  max 1 ((messages.map contentLength).sum / 4)

end PolyGate.Gateway
