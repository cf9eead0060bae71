import PolyGate.Automation.PolicyApi

/-!
# `Automation/PolicyRuntime.lean` — the Worker's policy and how it is refreshed

`automation/app/policy_runtime.py`. Like the Gateway's runtime, but the whole body is validated with
`ActivePolicyResponse`, and `If-None-Match` is made from the version that is held.
-/

namespace PolyGate.Automation

open Lib Pydantic

/-- How `refresh_once` ends; `_loop` catches what it raises. -/
inductive RefreshOutcome
  /-- a 304 -/
  | notModified
  | failed (reason : ReloadFailure)
  | reloaded
  /-- a `DecodingError` or a `RecursionError` -/
  | raised
  deriving DecidableEq, Repr

structure PolicyRuntime where
  active : ActivePolicyResponse
  deriving DecidableEq

namespace PolicyRuntime

/-- `_load_initial_over_http`; `none` where it raises and the process exits. -/
def loadInitialOverHttp (datetime : DatetimeFormat) : PolicyReply → Option PolicyRuntime
  | .response status (.json v) _ =>
    if 200 ≤ status ∧ status < 300 then
      (readActivePolicyResponse datetime.read v).map fun snapshot => ⟨snapshot⟩
    else none
  | _ => none

/-- `_load_initial_snapshot`, given what the request comes to if one is made. -/
def loadInitialSnapshot (datetime : DatetimeFormat) (file : StoreFile) (reply : PolicyReply) :
    Option PolicyRuntime :=
  match file with
  | .unreadable => none
  | .text (.json v) => match readPolicyStoreDocument datetime v with
    | some document => some ⟨document.active.response⟩
    | none => loadInitialOverHttp datetime reply
  | .missing | .undecodable | .text .notJson | .text .tooDeep => loadInitialOverHttp datetime reply

theorem loadInitialSnapshot_of (datetime : DatetimeFormat) (d : PolicyStoreDocument)
    (reply : PolicyReply) :
    loadInitialSnapshot datetime (.of datetime d) reply = some ⟨d.active.response⟩ := by
  simp [loadInitialSnapshot, StoreFile.of, readPolicyStoreDocument_json]

def ifNoneMatch (w : PolicyRuntime) : String := policyEtag w.active.version

/-- What `refresh_once` makes of the reply. -/
def refreshOnce (datetime : Validator Time) (w : PolicyRuntime) :
    PolicyReply → RefreshOutcome × PolicyRuntime
  | .transportError => (.failed .network, w)
  | .decodingError => (.raised, w)
  | .response status body _ =>
    if status = 304 then (.notModified, w)
    else if status ≠ 200 then (.failed .http, w)
    else match body with
      | .notJson => (.failed .validation, w)
      | .tooDeep => (.raised, w)
      | .json v => match readActivePolicyResponse datetime v with
        | some candidate => (.reloaded, ⟨candidate⟩)
        | none => (.failed .validation, w)

theorem refreshOnce_valid {datetime : Validator Time} (w : PolicyRuntime) {v : Json}
    {candidate : ActivePolicyResponse} (etag : Option String)
    (h : readActivePolicyResponse datetime v = some candidate) :
    w.refreshOnce datetime (.response 200 (.json v) etag) = (.reloaded, ⟨candidate⟩) := by
  simp [refreshOnce, h]

end PolicyRuntime

end PolyGate.Automation
