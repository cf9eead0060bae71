import PolyGate.Automation.PolicyJson
import PolyGate.Automation.PolicyManager

/-!
# `Automation/PolicyApi.lean` — `GET /v1/policies/active`

The endpoint of `automation/app/main.py`, and what a request to it comes to for a client. The
ETag is made from the version alone.
-/

namespace PolyGate.Automation

open Lib

/-- What `json.loads` makes of a text. -/
inductive Body
  /-- a `ValueError` -/
  | notJson
  /-- a `RecursionError` -/
  | tooDeep
  | json (v : Json)

/-- What the request to the policy API comes to. -/
inductive PolicyReply
  /-- `httpx.TransportError` -/
  | transportError
  /-- `httpx.DecodingError` -/
  | decodingError
  | response (status : Nat) (body : Body) (etag : Option String)

/-- `f'"policy-v{version}"'` -/
def policyEtag (version : Nat) : String := "\"policy-v" ++ toString version ++ "\""

theorem policyEtag_injective : Function.Injective policyEtag := by
  intro m n h
  unfold policyEtag at h
  have hdigits : Nat.toDigits 10 m = Nat.toDigits 10 n := by simpa using congrArg String.toList h
  simpa using congrArg (Nat.ofDigitChars 10 · 0) hdigits

/-- `active_policy` -/
def activePolicy (datetime : DatetimeFormat) (active : PolicyVersion)
    (ifNoneMatch : Option String) : PolicyReply :=
  let etag := policyEtag active.version
  if ifNoneMatch = some etag then .response 304 .notJson (some etag)
  else .response 200 (.json (active.response.json datetime)) (some etag)

/-- The mounted `policy-store.json`, as a component finds it. -/
inductive StoreFile
  /-- `FileNotFoundError` -/
  | missing
  /-- another `OSError` -/
  | unreadable
  /-- `UnicodeDecodeError` -/
  | undecodable
  | text (body : Body)

/-- The document as `KubernetesPolicyRepository` writes it. -/
def StoreFile.of (datetime : DatetimeFormat) (d : PolicyStoreDocument) : StoreFile :=
  .text (.json (d.json datetime))

/-- `reason` of `polygate_policy_reload_failures_total` -/
inductive ReloadFailure | network | http | validation | file
  deriving DecidableEq, Repr

end PolyGate.Automation
