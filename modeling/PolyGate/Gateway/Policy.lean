import PolyGate.Automation.PolicyApi
import PolyGate.Lib.Except

/-!
# `Gateway/Policy.lean` — the Gateway's policy and how it is refreshed

`gateway/app/policy.py`. The runtime holds one snapshot and the ETag of the response it came from.
A refresh is a function of the state and of what the request comes to; it returns how it ended,
an exception included, and the state after.

Three exceptions are raised by what the code calls: httpx encodes header values as ASCII, it raises
`DecodingError`, no `TransportError`, for a body that its content encoding does not fit, and
`json.loads` raises `RecursionError`, no `ValueError`, for a text nested too deep.
-/

namespace PolyGate.Gateway

open Lib Pydantic
open Automation (Body PolicyReply ReloadFailure StoreFile)

/-- `GatewayRoutingPolicy`: the fields and bounds of the policy API's `GatewayPolicy`. -/
abbrev GatewayRoutingPolicy := Automation.GatewayPolicy

theorem defaultGatewayPolicy_tokens : 1 ≤ 256 ∧ 256 ≤ 32768 := by decide

theorem defaultGatewayPolicy_tolerance : (0 : ℚ) ≤ 1 / 5 ∧ (1 : ℚ) / 5 ≤ 2 := by decide +kernel

/-- `DEFAULT_GATEWAY_POLICY` -/
def defaultGatewayPolicy : GatewayRoutingPolicy where
  assumedOutputTokens := 256
  balancedPriceTolerance := 1 / 5
  budgetMode := .soft
  latencyMode := .soft
  highQualityStrategy := .preferReal
  assumedOutputTokens_bounds := defaultGatewayPolicy_tokens
  balancedPriceTolerance_bounds := defaultGatewayPolicy_tolerance

structure GatewayPolicySnapshot where
  version : Nat
  gateway : GatewayRoutingPolicy
  version_pos : 1 ≤ version

/-! ## Reading a body -/

/-- What walking and validating a body raises. -/
inductive BodyExc
  | keyError
  /-- no `ValueError` and not caught -/
  | typeError
  | validationError
  | stopIteration
  deriving DecidableEq, Repr

/-- `v[key]` -/
def index (v : Json) (key : String) : Except BodyExc Json :=
  match v with
  | .obj o => match Obj.get? o key with
    | some field => .ok field
    | none => .error .keyError
  | _ => .error .typeError

/-- The result of a validator, or its `ValidationError`. -/
def validated {α : Type} : Option α → Except BodyExc α
  | some a => .ok a
  | none => .error .validationError

variable (c : Coercions)

/-- `GatewayRoutingPolicy.model_validate` -/
def readGatewayRoutingPolicy : Validator GatewayRoutingPolicy :=
  Automation.readGatewayPolicy (laxInt c) (laxFloat c)

/-- What the policy API writes, the Gateway reads. -/
theorem readGatewayRoutingPolicy_json (p : GatewayRoutingPolicy) :
    readGatewayRoutingPolicy c p.json = some p :=
  Automation.readGatewayPolicy_extends (laxInt_extends c) (laxFloat_extends c) _ _
    (Automation.readGatewayPolicy_json p)

/-- `GatewayPolicySnapshot(version=…, gateway=…)` -/
def makeSnapshot (version : Json) (gateway : GatewayRoutingPolicy) :
    Option GatewayPolicySnapshot :=
  (intFrom (laxInt c) 1 version).map fun (n : {n : Nat // 1 ≤ n}) => ⟨n.1, gateway, n.2⟩

/-- The `try` of `refresh_once`, once the body is JSON. -/
def readBody (body : Json) : Except BodyExc GatewayPolicySnapshot := do
  let policy ← index body "policy"
  let gateway ← validated (readGatewayRoutingPolicy c (← index policy "gateway"))
  let version ← index body "version"
  validated (makeSnapshot c version gateway)

/-- `for v in …` -/
def elements : Json → Except BodyExc (List Json)
  | .arr elems => .ok elems
  | .obj fields => .ok (fields.map fun e => .str e.1)
  | .str s => .ok (s.map fun p => .str [p])
  | _ => .error .typeError

/-- `next(v for v in versions if v["version"] == active_version)` -/
def findVersion (activeVersion : Json) : List Json → Except BodyExc Json
  | [] => .error .stopIteration
  | v :: versions => do
    let version ← index v "version"
    if version.eq activeVersion then return v else findVersion activeVersion versions

/-- The `try` of `_load_initial_snapshot`, once the file is JSON. -/
def readStore (store : Json) : Except BodyExc GatewayPolicySnapshot := do
  let activeVersion ← index store "active_version"
  let versions ← elements (← index store "versions")
  let versionRecord ← findVersion activeVersion versions
  let policy ← index versionRecord "policy"
  let gateway ← validated (readGatewayRoutingPolicy c (← index policy "gateway"))
  validated (makeSnapshot c activeVersion gateway)

section Read
variable {c : Coercions}

theorem index_eq_ok {v field : Json} {key : String} :
    index v key = .ok field ↔ ∃ o, v = .obj o ∧ Obj.get? o key = some field := by
  cases v with
  | obj o =>
    simp only [index, Json.obj.injEq, exists_eq_left']
    split <;> simp_all
  | _ => simp [index]

theorem validated_eq_ok {α : Type} {o : Option α} {a : α} : validated o = .ok a ↔ o = some a := by
  cases o <;> simp [validated]

/-- What a body that is accepted says. -/
theorem readBody_eq_ok {v : Json} {snapshot : GatewayPolicySnapshot} :
    readBody c v = .ok snapshot ↔ ∃ o o', v = .obj o ∧ Obj.get? o "policy" = some (.obj o') ∧
      required o' "gateway" (readGatewayRoutingPolicy c) = some snapshot.gateway ∧
      required o "version" (intFrom (laxInt c) 1) =
        some ⟨snapshot.version, snapshot.version_pos⟩ := by
  unfold readBody
  simp only [bind_eq_ok, index_eq_ok, validated_eq_ok, makeSnapshot, Option.map_eq_some_iff]
  constructor
  · rintro ⟨_, ⟨o, rfl, hpolicy⟩, _, ⟨o', rfl, hgateway⟩, gateway, hread, _, ⟨_, ho, hversion⟩, n,
      hn, rfl⟩
    cases ho
    exact ⟨o, o', rfl, hpolicy, Option.bind_eq_some_iff.mpr ⟨_, hgateway, hread⟩,
      Option.bind_eq_some_iff.mpr ⟨_, hversion, hn⟩⟩
  · rintro ⟨o, o', rfl, hpolicy, hgateway, hversion⟩
    obtain ⟨g, hg, hread⟩ := Option.bind_eq_some_iff.mp hgateway
    obtain ⟨n, hn, hfrom⟩ := Option.bind_eq_some_iff.mp hversion
    exact ⟨_, ⟨o, rfl, hpolicy⟩, _, ⟨o', rfl, hg⟩, _, hread, _, ⟨o, rfl, hn⟩, _, hfrom, rfl⟩

/-- What is found in a written document is its record. -/
theorem findVersion_json (datetime : Automation.DatetimeFormat) {n : Nat}
    {versions : List Automation.PolicyVersion} {v : Automation.PolicyVersion}
    (h : versions.find? (·.version = n) = some v) :
    findVersion (.int n) (versions.map (·.json datetime)) = .ok (v.json datetime) := by
  induction versions with
  | nil => cases h
  | cons w ws ih =>
    rw [List.map_cons]
    have hindex : index (w.json datetime) "version" = .ok (.int w.version) := rfl
    unfold findVersion
    rw [hindex]
    by_cases hw : w.version = n
    · rw [List.find?_cons_of_pos (by simpa using hw)] at h
      cases h
      simp [bind, Except.bind, Json.eq_int, hw, pure, Except.pure]
    · rw [List.find?_cons_of_neg (by simpa using hw)] at h
      simpa [bind, Except.bind, Json.eq_int, hw] using ih h

/-- What the Gateway loads from a written document. -/
theorem readStore_json (datetime : Automation.DatetimeFormat)
    (d : Automation.PolicyStoreDocument) :
    readStore c (d.json datetime) =
      .ok ⟨d.activeVersion, d.active.policy.gateway, d.integrity.active_pos⟩ := by
  have hfind : d.versions.find? (·.version = d.activeVersion) = some d.active := by
    rw [← List.head?_filter]
    exact List.head?_eq_some_head d.activeMatches_ne_nil
  have hmake : makeSnapshot c (.int d.activeVersion) d.active.policy.gateway =
      some ⟨d.activeVersion, d.active.policy.gateway, d.integrity.active_pos⟩ := by
    have h : intFrom (laxInt c) 1 (.int d.activeVersion) = some ⟨_, d.integrity.active_pos⟩ :=
      intFrom_int d.integrity.active_pos
    unfold makeSnapshot
    rw [h]
    rfl
  unfold readStore
  refine bind_eq_ok.mpr ⟨.int d.activeVersion, rfl, bind_eq_ok.mpr ⟨_, rfl, ?_⟩⟩
  refine bind_eq_ok.mpr ⟨_, rfl, bind_eq_ok.mpr ⟨_, findVersion_json datetime hfind, ?_⟩⟩
  refine bind_eq_ok.mpr ⟨_, rfl,
    bind_eq_ok.mpr ⟨_, rfl, bind_eq_ok.mpr ⟨d.active.policy.gateway, ?_, ?_⟩⟩⟩
  · exact validated_eq_ok.mpr (readGatewayRoutingPolicy_json c _)
  · exact validated_eq_ok.mpr hmake

end Read

/-! ## The runtime -/

/-- What `refresh_once` raises. -/
inductive RefreshExc | typeError | recursionError | decodingError | unicodeEncodeError
  deriving DecidableEq, Repr

inductive RefreshOutcome
  /-- a 304 -/
  | notModified
  | failed (reason : ReloadFailure)
  | reloaded
  | raised (e : RefreshExc)
  deriving DecidableEq, Repr

/-- `GatewayPolicyRuntime` -/
structure PolicyRuntime where
  snapshot : GatewayPolicySnapshot
  etag : Option String

namespace PolicyRuntime

/-- Where no file is mounted. -/
def fallback : PolicyRuntime := ⟨⟨1, defaultGatewayPolicy, le_rfl⟩, none⟩

/-- `GatewayPolicyRuntime(…)`; `none` where `_load_initial_snapshot` raises. -/
def start : StoreFile → Option PolicyRuntime
  | .missing => some fallback
  | .text (.json store) => match readStore c store with
    | .ok snapshot => some ⟨snapshot, none⟩
    | .error _ => none
  | .unreadable | .undecodable | .text .notJson | .text .tooDeep => none

/-- The `If-None-Match` that is sent; an empty ETag sends none. -/
def ifNoneMatch (s : PolicyRuntime) : Option String := s.etag.filter (· ≠ "")

/-- httpx can send the header. -/
def sendable (s : PolicyRuntime) : Bool :=
  match s.ifNoneMatch with
  | some value => value.toList.all (·.toNat < 128)
  | none => true

/-- From the response on. -/
def receive (s : PolicyRuntime) : PolicyReply → RefreshOutcome × PolicyRuntime
  | .transportError => (.failed .network, s)
  | .decodingError => (.raised .decodingError, s)
  | .response status body etag =>
    if status = 304 then (.notModified, s)
    else if status ≠ 200 then (.failed .http, s)
    else match body with
      | .notJson => (.failed .validation, s)
      | .tooDeep => (.raised .recursionError, s)
      | .json v => match readBody c v with
        | .ok snapshot => (.reloaded, ⟨snapshot, etag.or s.etag⟩)
        | .error .typeError => (.raised .typeError, s)
        | .error _ => (.failed .validation, s)

def refreshOnce (s : PolicyRuntime) (reply : PolicyReply) : RefreshOutcome × PolicyRuntime :=
  if s.sendable then s.receive c reply else (.raised .unicodeEncodeError, s)

theorem start_of {c : Coercions} (datetime : Automation.DatetimeFormat)
    (d : Automation.PolicyStoreDocument) :
    start c (.of datetime d) =
      some ⟨⟨d.activeVersion, d.active.policy.gateway, d.integrity.active_pos⟩, none⟩ := by
  simp [start, StoreFile.of, readStore_json]

/-- A valid answer is taken. -/
theorem receive_valid {c : Coercions} (s : PolicyRuntime) {v : Json}
    {snapshot : GatewayPolicySnapshot} (etag : Option String) (h : readBody c v = .ok snapshot) :
    s.receive c (.response 200 (.json v) etag) = (.reloaded, ⟨snapshot, etag.or s.etag⟩) := by
  simp [receive, h]

end PolicyRuntime

end PolyGate.Gateway
