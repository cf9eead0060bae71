import PolyGate.Automation.Policy.NextDocument
import PolyGate.Automation.PolicyRuntime
import PolyGate.Gateway.Policy

/-!
# `Gateway/SamePolicies.lean` — what the Gateway takes and what the Worker takes

Both ask the same endpoint. The Worker validates the whole answer strictly; the Gateway picks out
the version and the gateway section and coerces their numbers. What the Worker takes the Gateway
takes, for the same (`readBody_of_worker`). The other way round it takes exactly what the Gateway
does not look at (`Complete`): `agree_iff_complete`.
-/

namespace PolyGate.Gateway.SamePolicies

open Lib Pydantic
open Automation (Body PolicyReply readActivePolicyResponse readPolicyDraft readAutomationPolicy)

/-- The two components, given one 200, both take it or both leave it, and hold the same after. -/
def Agree (c : Coercions) (datetime : Validator Time) (s : PolicyRuntime)
    (w : Automation.PolicyRuntime) (body : Body) (etag : Option String) : Prop :=
  let (outcome, s') := s.receive c (.response 200 body etag)
  let (outcome', w') := w.refreshOnce datetime (.response 200 body etag)
  (outcome = .reloaded ↔ outcome' = .reloaded) ∧
    (outcome = .reloaded → s'.snapshot.version = w'.active.version ∧
      s'.snapshot.gateway = w'.active.policy.gateway)

/-! ## What the Gateway does not look at -/

/-- The number fields of a gateway section are JSON numbers of their own kind. -/
structure StrictNumbers (gateway : Obj) : Prop where
  tokens : ∃ n, Obj.get? gateway "assumed_output_tokens" = some (.int n)
  tolerance : ∃ v x, Obj.get? gateway "balanced_price_tolerance" = some v ∧ strictFloat v = some x

structure CompletePolicy (policy : Obj) : Prop where
  fields : ∀ e ∈ policy, e.1 ∈ Automation.draftFields.map str
  schemaVersion : Obj.get? policy "schema_version" = some (.int 1)
  gateway : ∀ o, Obj.get? policy "gateway" = some (.obj o) → StrictNumbers o
  automation : ∃ a, required policy "automation" readAutomationPolicy = some a

/-- The version is an integer, the fields are those of an `ActivePolicyResponse` and no others, and
those that the Gateway does not read are valid. -/
structure Complete (datetime : Validator Time) (body : Obj) : Prop where
  fields : ∀ e ∈ body, e.1 ∈ Automation.responseFields.map str
  version : ∃ n, Obj.get? body "version" = some (.int n)
  schemaVersion : Obj.get? body "schema_version" = some (.int 1)
  publishedAt : ∃ t, required body "published_at" datetime = some t
  policy : ∀ o, Obj.get? body "policy" = some (.obj o) → CompletePolicy o

variable {c : Coercions} {datetime : Validator Time}

/-! ## Field by field -/

theorem required_literalInt {o : Obj} {key : String} {n : Int} :
    required o key (literalInt n) = some () ↔ Obj.get? o key = some (.int n) := by
  unfold required
  cases Obj.get? o key with
  | none => simp
  | some v => cases v <;> simp [literalInt, eq_comm]

/-- What is read as a strict integer is a JSON integer. -/
theorem required_strictInt {α : Type} {o : Obj} {key : String} {f : Int → Option α} {a : α}
    (h : required o key (fun v => (strictInt v).bind f) = some a) :
    ∃ n, Obj.get? o key = some (.int n) := by
  obtain ⟨v, hv, ha⟩ := Option.bind_eq_some_iff.mp h
  obtain ⟨m, hm, -⟩ := Option.bind_eq_some_iff.mp ha
  cases v with
  | int m' => exact ⟨m', hv⟩
  | _ => cases hm

/-- A JSON integer is read alike strictly and laxly. -/
theorem required_laxInt {α : Type} {o : Obj} {key : String} {n : Int} {f : Int → Option α} {a : α}
    (hn : Obj.get? o key = some (.int n))
    (h : required o key (fun v => (laxInt c v).bind f) = some a) :
    required o key (fun v => (strictInt v).bind f) = some a := by
  unfold required at h ⊢
  rw [hn] at h ⊢
  exact h

/-- And so is a JSON number. -/
theorem required_laxFloat {α : Type} {o : Obj} {key : String} {v : Json} {x : PyFloat}
    {f : PyFloat → Option α} {a : α} (hv : Obj.get? o key = some v) (hx : strictFloat v = some x)
    (h : required o key (fun v => (laxFloat c v).bind f) = some a) :
    required o key (fun v => (strictFloat v).bind f) = some a := by
  unfold required at h ⊢
  rw [hv] at h ⊢
  simp only [Option.bind_some, hx, laxFloat_extends c v x hx] at h ⊢
  exact h

/-- The gateway section, from the Worker's reading. -/
theorem strictNumbers_of_read {o : Obj} {p : Automation.GatewayPolicy}
    (h : Automation.readGatewayPolicy strictInt strictFloat (.obj o) = some p) :
    StrictNumbers o := by
  unfold Automation.readGatewayPolicy at h
  simp only [Option.bind_eq_bind, Option.bind_eq_some_iff] at h
  obtain ⟨o', ho, tokens, htokens, tolerance, htolerance, -⟩ := h
  cases model_eq_some ho
  rw [numberIn_eq] at htolerance
  obtain ⟨v, hv, hread⟩ := Option.bind_eq_some_iff.mp htolerance
  obtain ⟨x, hx, -⟩ := Option.bind_eq_some_iff.mp hread
  exact ⟨required_strictInt htokens, v, x, hv, hx⟩

/-- And from the Gateway's. -/
theorem read_of_strictNumbers {o : Obj} {p : GatewayRoutingPolicy} (hn : StrictNumbers o)
    (h : readGatewayRoutingPolicy c (.obj o) = some p) :
    Automation.readGatewayPolicy strictInt strictFloat (.obj o) = some p := by
  obtain ⟨⟨n, htokens⟩, v, x, hv, hx⟩ := hn
  refine Automation.readGatewayPolicy_eq_some h (fun o' _ ho h => ?_) fun o' _ ho h => ?_
  · cases ho
    exact required_laxInt htokens h
  · cases ho
    rw [numberIn_eq] at h ⊢
    exact required_laxFloat hv hx h

/-! ## The whole body -/

/-- What the Worker takes the Gateway takes, for the same, and it is complete. -/
theorem readBody_of_worker {v : Json} {r : Automation.ActivePolicyResponse}
    (h : readActivePolicyResponse datetime v = some r) :
    ∃ snapshot o, readBody c v = .ok snapshot ∧ snapshot.version = r.version ∧
      snapshot.gateway = r.policy.gateway ∧ v = .obj o ∧ Complete datetime o := by
  unfold readActivePolicyResponse at h
  simp only [Option.bind_eq_bind, Option.bind_eq_some_iff] at h
  obtain ⟨o, ho, version, hversion, ⟨⟩, hschema, t, ht, draft, hdraft, hr⟩ := h
  cases hr
  obtain ⟨policy, hpolicy, hread⟩ := Option.bind_eq_some_iff.mp hdraft
  unfold readPolicyDraft at hread
  simp only [Option.bind_eq_bind, Option.bind_eq_some_iff] at hread
  obtain ⟨o', ho', ⟨⟩, hschema', gateway, hgateway, automation, hautomation, hd⟩ := hread
  cases hd
  cases model_eq_some ho
  cases model_eq_some ho'
  refine ⟨⟨version.1, gateway, version.2⟩, o, readBody_eq_ok.mpr ⟨o, o', rfl, hpolicy, ?_, ?_⟩, rfl,
    rfl, rfl, ?_⟩
  · exact Extends.required (Automation.readGatewayPolicy_extends (laxInt_extends c)
      (laxFloat_extends c)) hgateway
  · exact Extends.required ((laxInt_extends c).bind _) hversion
  · refine ⟨model_fields ho, required_strictInt hversion, required_literalInt.mp hschema, ⟨t, ht⟩,
      fun p hp => ?_⟩
    cases hpolicy.symm.trans hp
    refine ⟨model_fields ho', required_literalInt.mp hschema', fun g hg => ?_, automation,
      hautomation⟩
    obtain ⟨g', hg', hreadg⟩ := Option.bind_eq_some_iff.mp hgateway
    cases hg.symm.trans hg'
    exact strictNumbers_of_read hreadg

/-- A complete body that the Gateway takes the Worker takes. -/
theorem worker_of_readBody {o : Obj} {snapshot : GatewayPolicySnapshot}
    (h : readBody c (.obj o) = .ok snapshot) (hc : Complete datetime o) :
    ∃ r, readActivePolicyResponse datetime (.obj o) = some r := by
  obtain ⟨o₁, p, ho, hpolicy, hgateway, hversion⟩ := readBody_eq_ok.mp h
  cases ho
  obtain ⟨n, hn⟩ := hc.version
  obtain ⟨t, ht⟩ := hc.publishedAt
  have hp := hc.policy p hpolicy
  obtain ⟨a, ha⟩ := hp.automation
  -- only an object is read as a gateway section
  obtain ⟨v, hv, hread⟩ := Option.bind_eq_some_iff.mp hgateway
  obtain ⟨g, rfl⟩ : ∃ g, v = .obj g := by
    unfold readGatewayRoutingPolicy Automation.readGatewayPolicy at hread
    simp only [Option.bind_eq_bind, Option.bind_eq_some_iff] at hread
    obtain ⟨g, hg, -⟩ := hread
    exact ⟨g, model_eq_some hg⟩
  have hstrict : required p "gateway" (Automation.readGatewayPolicy strictInt strictFloat) =
      some snapshot.gateway :=
    Option.bind_eq_some_iff.mpr ⟨_, hv, read_of_strictNumbers (hp.gateway g hv) hread⟩
  have hdraft : readPolicyDraft (.obj p) = some ⟨snapshot.gateway, a⟩ := by
    unfold readPolicyDraft
    rw [model_obj hp.fields]
    simp only [Option.bind_eq_bind, Option.bind_some, required_literalInt.mpr hp.schemaVersion,
      hstrict, ha]
    rfl
  refine ⟨⟨snapshot.version, 1, t, ⟨snapshot.gateway, a⟩⟩, ?_⟩
  unfold readActivePolicyResponse
  rw [model_obj hc.fields]
  have hv' : required o "version" (intFrom strictInt 1) = _ := required_laxInt hn hversion
  have hp' : required o "policy" readPolicyDraft = _ :=
    Option.bind_eq_some_iff.mpr ⟨_, hpolicy, hdraft⟩
  simp only [Option.bind_eq_bind, Option.bind_some, required_literalInt.mpr hc.schemaVersion,
    hv', ht, hp']
  rfl

/-- **Exactly when the two agree on an answer.** Whatever they hold, they take or leave a 200
together, and hold the same version and gateway section after, if and only if a body that the
Gateway takes is complete. -/
theorem agree_iff_complete (c : Coercions) (datetime : Validator Time)
    (s : PolicyRuntime) (w : Automation.PolicyRuntime) (body : Body) (etag : Option String) :
    Agree c datetime s w body etag ↔
      ∀ v snapshot, body = .json v → readBody c v = .ok snapshot →
        ∃ o, v = .obj o ∧ Complete datetime o := by
  unfold Agree
  cases body with
  | notJson =>
    exact iff_of_true (by simp [PolicyRuntime.receive, Automation.PolicyRuntime.refreshOnce])
      fun v snapshot h => by cases h
  | tooDeep =>
    exact iff_of_true (by simp [PolicyRuntime.receive, Automation.PolicyRuntime.refreshOnce])
      fun v snapshot h => by cases h
  | json v =>
    cases hw : readActivePolicyResponse datetime v with
    | some r =>
      obtain ⟨snapshot, o, hg, hversion, hgateway, rfl, hc⟩ := readBody_of_worker (c := c) hw
      rw [s.receive_valid etag hg, w.refreshOnce_valid etag hw]
      refine iff_of_true ⟨iff_of_true rfl rfl, fun _ => ⟨hversion, hgateway⟩⟩ fun v' _ hv _ => ?_
      cases hv
      exact ⟨o, rfl, hc⟩
    | none =>
      have hleft : (w.refreshOnce datetime (.response 200 (.json v) etag)).1 ≠ .reloaded := by
        simp [Automation.PolicyRuntime.refreshOnce, hw]
      cases hg : readBody c v with
      | ok snapshot =>
        -- the Gateway alone takes it, so it cannot be complete
        rw [s.receive_valid etag hg]
        refine iff_of_false (fun h => hleft (h.1.mp rfl)) fun h => ?_
        obtain ⟨o, rfl, hc⟩ := h v snapshot rfl hg
        obtain ⟨r, hr⟩ := worker_of_readBody hg hc
        exact absurd (hw.symm.trans hr) (by simp)
      | error e =>
        have hleft' : (s.receive c (.response 200 (.json v) etag)).1 ≠ .reloaded := by
          cases e <;> simp [PolicyRuntime.receive, hg]
        refine iff_of_true ⟨iff_of_false hleft' hleft, fun h => absurd h hleft'⟩ ?_
        intro v' snapshot hv hok
        cases hv
        exact absurd (hg.symm.trans hok) (by simp)

/-! ## Half a document -/

/-- A version and a gateway section, and nothing else. -/
def halfDocument : Json := .obj
  [(str "version", .int 2), (str "policy", .obj [(str "gateway", defaultGatewayPolicy.json)])]

/-- **The Gateway swaps where the Worker does not.** Given the half document, the Gateway goes to
version 2 and the Worker stays at version 1. -/
theorem half_document_splits : ∃ (s : PolicyRuntime) (w : Automation.PolicyRuntime),
    ∀ c datetime,
      (s.receive c (.response 200 (.json halfDocument) none)).2.snapshot.version = 2 ∧
      (w.refreshOnce datetime (.response 200 (.json halfDocument) none)).2.active.version = 1 ∧
      ¬Agree c datetime s w (.json halfDocument) none := by
  refine ⟨.fallback, ⟨Automation.seedRecord.response⟩, fun c datetime => ?_⟩
  have hg : readBody c halfDocument = .ok ⟨2, defaultGatewayPolicy, by decide⟩ := by
    refine readBody_eq_ok.mpr ⟨_, _, rfl, rfl, ?_, rfl⟩
    rw [required_cons, if_pos rfl]
    exact readGatewayRoutingPolicy_json c _
  have hw : readActivePolicyResponse datetime halfDocument = none := by
    cases hr : readActivePolicyResponse datetime halfDocument with
    | none => rfl
    | some r =>
      -- it has no `schema_version`
      obtain ⟨_, o, _, _, _, ho, hc⟩ := readBody_of_worker (c := c) hr
      cases ho
      exact absurd hc.schemaVersion (by simp)
  unfold Agree
  rw [PolicyRuntime.receive_valid _ none hg]
  have hstays : ∀ w : Automation.PolicyRuntime,
      w.refreshOnce datetime (.response 200 (.json halfDocument) none) =
        (.failed .validation, w) := by
    intro w
    simp [Automation.PolicyRuntime.refreshOnce, hw]
  rw [hstays]
  exact ⟨rfl, rfl, fun h => absurd (h.1.mp rfl) (by simp)⟩

end PolyGate.Gateway.SamePolicies
