import PolyGate.Gateway.AcceptedRequests
import PolyGate.Gateway.ChatCompletions
import PolyGate.Gateway.CompleteKey
import PolyGate.Gateway.CountedOnce
import PolyGate.Gateway.Simulation

/-!
# `Gateway/PredictedRouting.lean` — what the simulation says about the live routing

`simulate_routing` asks the selector, `chat_completions` asks it last: a named model goes before
the selector, and the cache key before both the selection and the call. So the two agree exactly on
the requests for which the live path adds nothing (`predicts_iff`). The simulation in turn fails on
what only its response cannot hold, a typical latency with a fraction.

A provider is called here when the handler hands it to one of the two resilient calls.
-/

namespace PolyGate.Gateway.PredictedRouting

open Lib
open ChatCompletions (Deployment Response chatCompletions firstChoice serveRouted)

/-! ## What a live request does first -/

/-- The provider that a command calls. -/
def called : ChatCompletions.Cmd → Option Provider
  | .failover (.callProvider p) | .failover (.openStream p) => some p
  | _ => none

/-- The first provider that is called. -/
def firstCall (es : List ChatCompletions.Event) : Option Provider :=
  es.findSome? fun e => called e.1

/-- The health map in an answer. -/
def healthOf : ChatCompletions.Event → Option Health
  | ⟨.failover .healthSnapshot, health⟩ => some health
  | _ => none

/-- Handled under the policy, on a cache miss, with the first selection in the given health. -/
structure Live (policy : GatewayRoutingPolicy) (health : Health)
    (es : List ChatCompletions.Event) : Prop where
  policy : ∀ snapshot, (⟨.policySnapshot, snapshot⟩ : ChatCompletions.Event) ∈ es →
    snapshot.gateway = policy
  miss : ∀ key entry, (⟨.cacheGet key, some entry⟩ : ChatCompletions.Event) ∉ es
  health : ∀ h, es.findSome? healthOf = some h → h = health

theorem firstCall_append (es es' : List ChatCompletions.Event) :
    firstCall (es ++ es') = (firstCall es).or (firstCall es') := List.findSome?_append ..

/-! ## The law -/

/-- The simulation names the provider that is called first, and fails when none is. -/
structure Predicts (sim : Except SimulationExc RoutingSimulationResponse)
    (es : List ChatCompletions.Event)
    (o : Except ChatCompletions.Exc Response) : Prop where
  provider : ∀ name, (∃ r, sim = .ok r ∧ r.provider = name) ↔
    ∃ p, firstCall es = some p ∧ p.name = name
  rejected : (∃ e, sim = .error e) ↔ firstCall es = none ∧ ∃ e, o = .error e

section Law

variable (providers : List Provider) (req : GatewayRequest) (health : Health)
  (policy : GatewayRoutingPolicy) (required : List String)

/-- The selector's answer. -/
def Selects (sel : Selection) : Prop :=
  selectProvider providers req.messageDicts req.polygate health required policy = .ok sel

/-- What the request itself says about the provider. -/
def forced : Except Failover.HandlerExc (Option Provider) :=
  Failover.forcedProvider ⟨providers, req, req.messageDicts, required, policy⟩

/-- The typical latency is an `int`. -/
def Whole (p : Provider) : Prop := (p.typicalLatencyMs.getD 0).den = 1

/-- The cache key can be computed, if there is to be one. -/
def Keyed : Prop := req.bypassCache = false → CompleteKey.NoSurrogates req

/-- A provider that the selector chooses is the one the request names, if it names one, and nothing
else is in the way; a request that the selector has nothing for, or nothing that can be described,
is kept from every provider. -/
structure Predictable : Prop where
  selected : ∀ required, req.requiredCapabilities = .ok required →
    ∀ sel, Selects providers req health policy required sel → Whole sel.chosen →
      Keyed req ∧ (req.model = "auto" ∨
        ∃ p, forced providers req policy required = .ok (some p) ∧ p.name = sel.chosen.name)
  refused : ∀ required, req.requiredCapabilities = .ok required →
    (∀ sel, Selects providers req health policy required sel → ¬ Whole sel.chosen) → Keyed req →
      (req.model = "auto" ∧ ∀ sel, ¬ Selects providers req health policy required sel) ∨
        ∃ e, forced providers req policy required = .error e

end Law

/-! ## Where a live request goes -/

/-- The reasons for a live request to go where it goes. -/
inductive Goes (providers : List Provider) (req : GatewayRequest) (health : Health)
    (policy : GatewayRoutingPolicy) : Option Provider → Prop
  | untyped {e : TypeError} (raises : req.requiredCapabilities = .error e) :
      Goes providers req health policy none
  | gated {required : List String} {e : Failover.HandlerExc}
      (requires : req.requiredCapabilities = .ok required)
      (gate : forced providers req policy required = .error e) :
      Goes providers req health policy none
  | unkeyed {required : List String} {p : Option Provider}
      (requires : req.requiredCapabilities = .ok required)
      (gate : forced providers req policy required = .ok p) (unkeyed : ¬ Keyed req) :
      Goes providers req health policy none
  | named {required : List String} {p : Provider}
      (requires : req.requiredCapabilities = .ok required)
      (gate : forced providers req policy required = .ok (some p)) (keyed : Keyed req) :
      Goes providers req health policy (some p)
  | refused {required : List String} (requires : req.requiredCapabilities = .ok required)
      (gate : forced providers req policy required = .ok none) (keyed : Keyed req)
      (refuses : ∀ sel, ¬ Selects providers req health policy required sel) :
      Goes providers req health policy none
  | selected {required : List String} {sel : Selection}
      (requires : req.requiredCapabilities = .ok required)
      (gate : forced providers req policy required = .ok none) (keyed : Keyed req)
      (selects : Selects providers req health policy required sel) :
      Goes providers req health policy (some sel.chosen)

section Routed

variable {g : Deployment} {ctx : Failover.Context} {es : List ChatCompletions.Event}

/-- Both loops begin with a call. -/
theorem firstCall_callNonStream {chosen : Provider} {reason : Reason}
    {o : Except ChatCompletions.Exc (Failover.Served AdapterResult)}
    (h : Prog.Emits (ChatCompletions.failover (Failover.callNonStream ctx chosen reason)) es o) :
    firstCall es = some chosen := by
  rw [Failover.callNonStream, Failover.failover] at h
  obtain ⟨reply, es, rfl, -⟩ := h
  rfl

theorem firstCall_streamResponse {chosen : Provider} {reason : Reason}
    {o : Except ChatCompletions.Exc (Failover.Served OpenedProviderStream)}
    (h : Prog.Emits (ChatCompletions.failover (Failover.streamResponse ctx chosen reason)) es o) :
    firstCall es = some chosen := by
  rw [Failover.streamResponse, Failover.failover] at h
  obtain ⟨reply, es, rfl, -⟩ := h
  rfl

/-- What is done first is seen first. -/
theorem firstCall_bind {α β : Type} {p : ChatCompletions.Gw α} {f : α → ChatCompletions.Gw β}
    {o : Except ChatCompletions.Exc β} {chosen : Provider}
    (hp : ∀ es o, Prog.Emits p es o → firstCall es = some chosen) (h : Prog.Emits (p >>= f) es o) :
    firstCall es = some chosen := by
  rcases Prog.emits_bind.mp h with ⟨es₁, es₂, a, rfl, h₁, -⟩ | ⟨e, h₁, -⟩
  · rw [firstCall_append, hp _ _ h₁]
    rfl
  · exact hp _ _ h₁

/-- A request that has a first choice is sent there. -/
theorem emits_serveRouted {p : Option Provider} {key : Option String}
    {o : Except ChatCompletions.Exc Response}
    (h : Prog.Emits (serveRouted g ctx p key) es o) :
    (∃ es₁ es₂ choice, es = es₁ ++ es₂ ∧ Prog.Emits (firstChoice ctx p) es₁ (.ok choice) ∧
      firstCall es₂ = some choice.1) ∨
    ∃ e, Prog.Emits (firstChoice ctx p) es (.error e) ∧ o = .error e := by
  rcases Prog.emits_bind.mp h with ⟨es₁, es₂, ⟨chosen, reason⟩, rfl, hchoice, h⟩ | ⟨e, hchoice, rfl⟩
  · refine Or.inl ⟨es₁, es₂, (chosen, reason), rfl, hchoice, ?_⟩
    dsimp only at h
    split at h
    · exact firstCall_bind (fun _ _ => firstCall_streamResponse) h
    · exact firstCall_bind (fun _ _ => firstCall_callNonStream) h
  · exact Or.inr ⟨e, hchoice, rfl⟩

/-- A selection, or a refusal. -/
theorem emits_select {o : Except ChatCompletions.Exc (Failover.Selected ctx.providers)}
    (h : Prog.Emits (ChatCompletions.failover (Failover.select ctx ctx.providers)) es o) :
    ∃ health, es = [⟨.failover .healthSnapshot, health⟩] ∧
      ((∃ sel s, selectProvider ctx.providers ctx.messages ctx.req.polygate health
          ctx.requiredCapabilities ctx.policy = .ok sel ∧ o = .ok s ∧ s.chosen = sel.chosen) ∨
        ((∀ sel, selectProvider ctx.providers ctx.messages ctx.req.polygate health
          ctx.requiredCapabilities ctx.policy ≠ .ok sel) ∧
          ∃ status detail, o = .error (.handler (.httpException status detail)))) := by
  simp only [Failover.select, Prog.perform_bind, ChatCompletions.failover, Prog.embed,
    Prog.emits_cmd, Prog.onReply_ok] at h
  obtain ⟨health, es, rfl, h⟩ := h
  refine ⟨health, ?_⟩
  split at h
  · rename_i sel hsel
    obtain ⟨rfl, rfl⟩ := Prog.emits_ret.mp h
    exact ⟨rfl, Or.inl ⟨sel, _, hsel, rfl, rfl⟩⟩
  · rename_i e he
    obtain ⟨rfl, rfl⟩ := Prog.emits_raise.mp h
    refine ⟨rfl, Or.inr ⟨fun sel hsel => ?_, 503, .routing e, rfl⟩⟩
    rw [he] at hsel
    cases hsel

/-- Without a named provider the selector decides, in the health it is shown. -/
theorem emits_firstChoice {o : Except ChatCompletions.Exc (Provider × Reason)}
    (h : Prog.Emits (firstChoice ctx none) es o) : ∃ health es',
    es = ⟨.failover .healthSnapshot, health⟩ :: es' ∧ firstCall es' = none ∧
      ((∃ sel, selectProvider ctx.providers ctx.messages ctx.req.polygate health
          ctx.requiredCapabilities ctx.policy = .ok sel ∧
          ∃ reason, o = .ok (sel.chosen, reason)) ∨
        ((∀ sel, selectProvider ctx.providers ctx.messages ctx.req.polygate health
          ctx.requiredCapabilities ctx.policy ≠ .ok sel) ∧ ∃ e, o = .error e)) := by
  rcases Prog.emits_catch.mp h with ⟨choice, hdo, rfl⟩ | ⟨es₁, es₂, e, rfl, hdo, hraise⟩
  · rcases Prog.emits_bind.mp hdo with ⟨es₁, es₂, s, rfl, hsel, hret⟩ | ⟨e, -, heq⟩
    · obtain ⟨rfl, heq⟩ := Prog.emits_ret.mp hret
      obtain ⟨health, rfl, hfound | ⟨-, status, detail, hfailed⟩⟩ := emits_select hsel
      · obtain ⟨sel, s', hsel, hs, hchosen⟩ := hfound
        cases hs
        exact ⟨health, [], rfl, rfl, Or.inl ⟨sel, hsel, .selected s.reason, by rw [heq, hchosen]⟩⟩
      · cases hfailed
    · cases heq
  · rcases Prog.emits_bind.mp hdo with ⟨es₁, es₃, s, rfl, -, hret⟩ | ⟨e', hsel, heq⟩
    · cases (Prog.emits_ret.mp hret).2
    · cases heq
      obtain ⟨health, rfl, hfound | ⟨hnone, status, detail, hfailed⟩⟩ := emits_select hsel
      · obtain ⟨sel, s', -, hs, -⟩ := hfound
        cases hs
      · cases hfailed
        obtain ⟨u, es, rfl, rfl, rfl⟩ := hraise
        exact ⟨health, _, rfl, rfl, Or.inr ⟨hnone, _, rfl⟩⟩

end Routed

section Handled

variable {g : Deployment} {req : GatewayRequest} {health : Health} {policy : GatewayRoutingPolicy}
  {es : List ChatCompletions.Event} {o : Except ChatCompletions.Exc Response}

/-- Where a run goes, and that one which goes nowhere has failed. -/
def GoesTo (g : Deployment) (req : GatewayRequest) (health : Health)
    (policy : GatewayRoutingPolicy) (es : List ChatCompletions.Event)
    (o : Except ChatCompletions.Exc Response) : Prop :=
  Goes g.providers req health policy (firstCall es) ∧ (firstCall es = none → ∃ e, o = .error e)

theorem goesTo_of_serveRouted {required : List String} {p : Option Provider} {key : Option String}
    (hrequired : req.requiredCapabilities = .ok required)
    (hforced : forced g.providers req policy required = .ok p) (hkeyed : Keyed req)
    (hhealth : ∀ h, es.findSome? healthOf = some h → h = health)
    (h : Prog.Emits (serveRouted g ⟨g.providers, req, req.messageDicts, required, policy⟩ p key)
      es o) : GoesTo g req health policy es o := by
  rcases emits_serveRouted h with ⟨es₁, es₂, choice, rfl, hchoice, hcall⟩ | ⟨e, hchoice, rfl⟩
  · cases p with
    | some p =>
      obtain ⟨rfl, heq⟩ := Prog.emits_ret.mp hchoice
      cases heq
      rw [List.nil_append]
      refine ⟨?_, fun hnone => ?_⟩
      · rw [hcall]
        exact .named hrequired hforced hkeyed
      · rw [hcall] at hnone
        cases hnone
    | none =>
      obtain ⟨health', es', rfl, hquiet, hfound | ⟨-, e, hfailed⟩⟩ := emits_firstChoice hchoice
      · obtain ⟨sel, hsel, reason, heq⟩ := hfound
        cases heq
        obtain rfl := hhealth health' rfl
        have hfirst : firstCall ((⟨.failover .healthSnapshot, health'⟩ : ChatCompletions.Event) ::
            es' ++ es₂) = some sel.chosen := by
          rw [List.cons_append]
          show firstCall (es' ++ es₂) = _
          rw [firstCall_append, hquiet, hcall]
          rfl
        refine ⟨?_, fun hnone => ?_⟩
        · rw [hfirst]
          exact .selected hrequired hforced hkeyed hsel
        · rw [hfirst] at hnone
          cases hnone
      · cases hfailed
  · cases p with
    | some p => cases (Prog.emits_ret.mp hchoice).2
    | none =>
      obtain ⟨health', es', rfl, hquiet, hfound | ⟨hnone, -⟩⟩ := emits_firstChoice hchoice
      · obtain ⟨sel, -, reason, heq⟩ := hfound
        cases heq
      · obtain rfl := hhealth health' rfl
        refine ⟨?_, fun _ => ⟨e, rfl⟩⟩
        show Goes _ _ _ _ (firstCall es')
        rw [hquiet]
        exact .refused hrequired hforced hkeyed hnone

theorem keyed_of_key {hexdigest : ByteArray → String} {p : Option Provider} {version : Nat}
    {key : Option String} (h : requestKey hexdigest req p version = .ok key) : Keyed req := by
  intro hbypass
  cases key with
  | some key => exact (CompleteKey.requestKey_isSome hbypass).mp ⟨key, h⟩
  | none =>
    rw [requestKey_eq hbypass] at h
    split at h <;> cases h

theorem unkeyed_of_error {hexdigest : ByteArray → String} {p : Option Provider} {version : Nat}
    {e : KeyExc} (h : requestKey hexdigest req p version = .error e) : ¬ Keyed req := by
  intro hkeyed
  obtain ⟨key, hkey⟩ := AcceptedRequests.requestKey_total_iff.mpr hkeyed p
  rw [h] at hkey
  cases hkey

/-- A command that calls nobody does not count. -/
theorem GoesTo.cons (h : GoesTo g req health policy es o) {e : ChatCompletions.Event}
    (he : called e.1 = none) : GoesTo g req health policy (e :: es) o := by
  have hfirst : firstCall (e :: es) = firstCall es := by
    unfold firstCall
    rw [List.findSome?_cons, he]
  unfold GoesTo
  rw [hfirst]
  exact h

/-- A handled request goes where the named provider or the selector sends it. -/
theorem goesTo_of_emits (h : Prog.Emits (chatCompletions g req) es o)
    (hlive : Live policy health es) : GoesTo g req health policy es o := by
  unfold chatCompletions at h
  cases hrequired : req.requiredCapabilities with
  | error e =>
    rw [hrequired] at h
    obtain ⟨rfl, rfl⟩ := Prog.emits_raise.mp h
    exact ⟨.untyped hrequired, fun _ => ⟨_, rfl⟩⟩
  | ok required =>
    rw [hrequired] at h
    obtain ⟨snapshot, es, rfl, h⟩ := h
    obtain rfl := hlive.policy snapshot List.mem_cons_self
    apply GoesTo.cons _ rfl
    have hmiss := fun key entry he => hlive.miss key entry (List.mem_cons_of_mem _ he)
    have hhealth : ∀ h, es.findSome? healthOf = some h → h = health := hlive.health
    change Prog.Emits (ChatCompletions.failover
      (Prog.ofOutcome (forced g.providers req snapshot.gateway required)) >>= _) es o at h
    cases hforced : forced g.providers req snapshot.gateway required with
    | error e =>
      rw [hforced] at h
      obtain ⟨rfl, rfl⟩ := Prog.emits_raise.mp h
      exact ⟨.gated hrequired hforced, fun _ => ⟨_, rfl⟩⟩
    | ok p =>
      rw [hforced] at h
      change Prog.Emits (Prog.ofOutcome
        ((requestKey g.hexdigest req p snapshot.version).mapError .key) >>= _) es o at h
      cases hkey : requestKey g.hexdigest req p snapshot.version with
      | error e =>
        rw [hkey] at h
        obtain ⟨rfl, rfl⟩ := Prog.emits_raise.mp h
        exact ⟨.unkeyed hrequired hforced (unkeyed_of_error hkey), fun _ => ⟨_, rfl⟩⟩
      | ok key =>
        rw [hkey] at h
        have hkeyed := keyed_of_key hkey
        cases key with
        | none =>
          obtain ⟨u, es, rfl, h⟩ := h
          refine GoesTo.cons (goesTo_of_serveRouted hrequired hforced hkeyed ?_ h) rfl
          exact hhealth
        | some key =>
          obtain ⟨reply, es, rfl, h⟩ := h
          cases reply with
          -- an answer from the cache is excluded
          | some entry => exact absurd List.mem_cons_self (hmiss key entry)
          | none =>
            obtain ⟨u, es, rfl, h⟩ := h
            refine GoesTo.cons (GoesTo.cons
              (goesTo_of_serveRouted hrequired hforced hkeyed ?_ h) rfl) rfl
            exact hhealth

end Handled

/-! ## What the simulation says -/

section Simulated

variable {providers : List Provider} {req : GatewayRequest} {health : Health}
  {policy : GatewayRoutingPolicy} {required : List String}

theorem simulate_whole {sel : Selection} (hrequired : req.requiredCapabilities = .ok required)
    (hsel : Selects providers req health policy required sel) (hwhole : Whole sel.chosen) :
    ∃ r, simulateRouting providers health ⟨req, policy⟩ = .ok r ∧
      r.provider = sel.chosen.name := by
  obtain ⟨candidate, hfind⟩ := find_chosen hsel
  have hlatency : typicalLatency sel.chosen =
      .ok (sel.chosen.typicalLatencyMs.getD 0).num := if_pos hwhole
  have hsimulated : simulated sel = .ok ⟨sel.chosen.name, sel.reason, candidate.2,
      (sel.chosen.typicalLatencyMs.getD 0).num⟩ := by
    simp only [simulated, hfind, hlatency]
  exact ⟨_, (@simulateRouting_of_ok providers health ⟨req, policy⟩ _ hrequired _ hsel).trans
    hsimulated, rfl⟩

theorem simulate_failed (hrequired : req.requiredCapabilities = .ok required)
    (hnone : ∀ sel, Selects providers req health policy required sel → ¬ Whole sel.chosen) :
    ∃ e, simulateRouting providers health ⟨req, policy⟩ = .error e := by
  cases hsel : selectProvider providers req.messageDicts req.polygate health required policy with
  | error e =>
    exact ⟨_, @simulateRouting_of_error providers health ⟨req, policy⟩ _ hrequired _ hsel⟩
  | ok sel =>
    have hlatency : typicalLatency sel.chosen = .error .validationError := if_neg (hnone sel hsel)
    obtain ⟨candidate, hfind⟩ := find_chosen hsel
    have hsimulated : simulated sel = .error .validationError := by
      simp only [simulated, hfind, hlatency]
    exact ⟨_, (@simulateRouting_of_ok providers health ⟨req, policy⟩ _ hrequired _ hsel).trans
      hsimulated⟩

theorem forced_auto {p : Provider} (h : forced providers req policy required = .ok (some p)) :
    req.model ≠ "auto" := by
  intro hauto
  rw [forced, Failover.forcedProvider, if_pos hauto] at h
  cases h

theorem auto_of_forced (h : forced providers req policy required = .ok none) :
    req.model = "auto" := by
  by_contra hauto
  rw [forced, Failover.forcedProvider, if_neg hauto] at h
  split at h
  · cases h
  · split at h
    · cases h
    · dsimp only at h
      split at h <;> cases h

end Simulated

/-! ## When they agree -/

section Agreement

variable {sim : Except SimulationExc RoutingSimulationResponse} {es : List ChatCompletions.Event}
  {o : Except ChatCompletions.Exc Response}

/-- A provider was named: it has to be the one that is called. -/
theorem predicts_ok {r : RoutingSimulationResponse} (hsim : sim = .ok r) :
    Predicts sim es o ↔ ∃ p, firstCall es = some p ∧ p.name = r.provider := by
  subst hsim
  constructor
  · exact fun h => (h.provider r.provider).mp ⟨r, rfl, rfl⟩
  · rintro ⟨p, hp, hname⟩
    refine ⟨fun name => ⟨?_, ?_⟩, iff_of_false (fun ⟨e, he⟩ => ?_) fun ⟨hnone, _⟩ => ?_⟩
    · rintro ⟨r', hr', rfl⟩
      cases hr'
      exact ⟨p, hp, hname⟩
    · rintro ⟨p', hp', rfl⟩
      rw [hp] at hp'
      cases hp'
      exact ⟨r, rfl, hname.symm⟩
    · cases he
    · rw [hp] at hnone
      cases hnone

/-- The simulation has failed: nobody may be called. -/
theorem predicts_error {e : SimulationExc} (hsim : sim = .error e)
    (hfailed : firstCall es = none → ∃ e, o = .error e) :
    Predicts sim es o ↔ firstCall es = none := by
  subst hsim
  constructor
  · exact fun h => (h.rejected.mp ⟨e, rfl⟩).1
  · intro hnone
    refine ⟨fun name => iff_of_false ?_ ?_, iff_of_true ⟨e, rfl⟩ ⟨hnone, hfailed hnone⟩⟩
    · rintro ⟨r, hr, -⟩
      cases hr
    · rintro ⟨p, hp, -⟩
      rw [hnone] at hp
      cases hp

end Agreement

section Verdict

variable {providers : List Provider} {req : GatewayRequest} {health : Health}
  {policy : GatewayRoutingPolicy} {required : List String} {v : Option Provider}

/-- With a selection, the live request goes there if its key and its model let it. -/
theorem goes_selected (hgoes : Goes providers req health policy v)
    (hrequired : req.requiredCapabilities = .ok required) {sel : Selection}
    (hsel : Selects providers req health policy required sel) :
    (∃ p, v = some p ∧ p.name = sel.chosen.name) ↔
      Keyed req ∧ (req.model = "auto" ∨
        ∃ p, forced providers req policy required = .ok (some p) ∧ p.name = sel.chosen.name) := by
  cases hgoes with
  | untyped raises =>
    rw [raises] at hrequired
    cases hrequired
  | gated requires gate =>
    obtain rfl := Except.ok.inj (requires.symm.trans hrequired)
    refine iff_of_false (by rintro ⟨p, hp, -⟩; cases hp) ?_
    rintro ⟨-, hauto | ⟨p, hp, -⟩⟩
    · rw [forced, Failover.forcedProvider, if_pos hauto] at gate
      cases gate
    · rw [gate] at hp
      cases hp
  | unkeyed requires gate unkeyed =>
    refine iff_of_false (by rintro ⟨p, hp, -⟩; cases hp) ?_
    exact fun h => unkeyed h.1
  | @named _ p requires gate keyed =>
    obtain rfl := Except.ok.inj (requires.symm.trans hrequired)
    constructor
    · rintro ⟨p', hp', hname⟩
      cases hp'
      exact ⟨keyed, Or.inr ⟨p, gate, hname⟩⟩
    · rintro ⟨-, hauto | ⟨p', hp', hname⟩⟩
      · exact absurd hauto (forced_auto gate)
      · rw [gate] at hp'
        cases hp'
        exact ⟨p, rfl, hname⟩
  | refused requires gate keyed refuses =>
    obtain rfl := Except.ok.inj (requires.symm.trans hrequired)
    exact absurd hsel (refuses sel)
  | @selected _ sel' requires gate keyed selects =>
    obtain rfl := Except.ok.inj (requires.symm.trans hrequired)
    obtain rfl := Except.ok.inj (selects.symm.trans hsel)
    exact iff_of_true ⟨_, rfl, rfl⟩ ⟨keyed, Or.inl (auto_of_forced gate)⟩

/-- Without a selection that can be described, it goes nowhere if something keeps it. -/
theorem goes_refused (hgoes : Goes providers req health policy v)
    (hrequired : req.requiredCapabilities = .ok required) :
    v = none ↔ (Keyed req →
      (req.model = "auto" ∧ ∀ sel, ¬ Selects providers req health policy required sel) ∨
        ∃ e, forced providers req policy required = .error e) := by
  cases hgoes with
  | untyped raises =>
    rw [raises] at hrequired
    cases hrequired
  | gated requires gate =>
    obtain rfl := Except.ok.inj (requires.symm.trans hrequired)
    exact iff_of_true rfl fun _ => Or.inr ⟨_, gate⟩
  | unkeyed requires gate unkeyed => exact iff_of_true rfl fun h => absurd h unkeyed
  | named requires gate keyed =>
    obtain rfl := Except.ok.inj (requires.symm.trans hrequired)
    refine iff_of_false (fun h => by cases h) fun h => ?_
    rcases h keyed with ⟨hauto, -⟩ | ⟨e, he⟩
    · exact forced_auto gate hauto
    · rw [gate] at he
      cases he
  | refused requires gate keyed refuses =>
    obtain rfl := Except.ok.inj (requires.symm.trans hrequired)
    exact iff_of_true rfl fun _ => Or.inl ⟨auto_of_forced gate, refuses⟩
  | selected requires gate keyed selects =>
    obtain rfl := Except.ok.inj (requires.symm.trans hrequired)
    refine iff_of_false (fun h => by cases h) fun h => ?_
    rcases h keyed with ⟨-, hnone⟩ | ⟨e, he⟩
    · exact hnone _ selects
    · rw [gate] at he
      cases he

end Verdict

/-- **The simulation predicts the live routing exactly for the predictable requests.** -/
theorem predicts_iff {g : Deployment} {req : GatewayRequest} {health : Health}
    {policy : GatewayRoutingPolicy} {es : List ChatCompletions.Event}
    {o : Except ChatCompletions.Exc Response} (h : Prog.Emits (chatCompletions g req) es o)
    (hlive : Live policy health es) :
    Predicts (simulateRouting g.providers health ⟨req, policy⟩) es o ↔
      Predictable g.providers req health policy := by
  obtain ⟨hgoes, hfailed⟩ := goesTo_of_emits h hlive
  cases hrequired : req.requiredCapabilities with
  | error e =>
    have hsim : simulateRouting g.providers health ⟨req, policy⟩ = .error (.typeError e) := by
      simp only [simulateRouting, hrequired]
    rw [predicts_error hsim hfailed]
    refine iff_of_true ?_ ⟨?_, ?_⟩
    · generalize firstCall es = v at hgoes
      cases hgoes with
      | untyped | gated | unkeyed | refused => rfl
      | named requires | selected requires =>
        rw [hrequired] at requires
        cases requires
    · intro required requires
      rw [hrequired] at requires
      cases requires
    · intro required requires
      rw [hrequired] at requires
      cases requires
  | ok required =>
    -- the simulation answers only when the latency it reports is a whole number
    by_cases hwhole : ∃ sel, Selects g.providers req health policy required sel ∧ Whole sel.chosen
    · obtain ⟨sel, hsel, hwhole⟩ := hwhole
      obtain ⟨r, hsim, hname⟩ := simulate_whole hrequired hsel hwhole
      rw [predicts_ok hsim, hname, goes_selected hgoes hrequired hsel]
      constructor
      · intro hgood
        refine ⟨fun required' requires sel' hsel' _ => ?_, fun required' requires hnone => ?_⟩
        · obtain rfl := Except.ok.inj (requires.symm.trans hrequired)
          obtain rfl := Except.ok.inj (hsel'.symm.trans hsel)
          exact hgood
        · obtain rfl := Except.ok.inj (requires.symm.trans hrequired)
          exact absurd hwhole (hnone sel hsel)
      · exact fun hgood => hgood.selected required hrequired sel hsel hwhole
    · have hnone : ∀ sel, Selects g.providers req health policy required sel → ¬ Whole sel.chosen :=
        fun sel hsel hw => hwhole ⟨sel, hsel, hw⟩
      obtain ⟨e, hsim⟩ := simulate_failed hrequired hnone
      rw [predicts_error hsim hfailed, goes_refused hgoes hrequired]
      constructor
      · intro hgood
        refine ⟨fun required' requires sel' hsel' hw => ?_, fun required' requires _ => ?_⟩
        · obtain rfl := Except.ok.inj (requires.symm.trans hrequired)
          exact absurd hw (hnone sel' hsel')
        · obtain rfl := Except.ok.inj (requires.symm.trans hrequired)
          exact hgood
      · exact fun hgood => hgood.refused required hrequired hnone

/-- An ordinary request is predictable: it names nobody, its texts can be hashed, and latencies are
whole. -/
theorem predictable_auto {providers : List Provider} {req : GatewayRequest} {health : Health}
    {policy : GatewayRoutingPolicy} (hauto : req.model = "auto") (hkeyed : Keyed req)
    (hwhole : ∀ p ∈ providers, Whole p) : Predictable providers req health policy := by
  refine ⟨fun _ _ _ _ _ => ⟨hkeyed, Or.inl hauto⟩, fun required _ hnone _ => ?_⟩
  refine Or.inl ⟨hauto, fun sel hsel => hnone sel hsel (hwhole _ ?_)⟩
  exact (mem_gated.mp (selectProvider_mem hsel)).1

/-! ## A request that names its provider -/

section Named

open ChatCompletions.CountedOnce (snapshot streaming streamingMock inFrontOf)

variable {g : Deployment} {req : GatewayRequest} {required : List String} {p : Provider}

/-- The run of a stream that opens at once. -/
def namedRun (p : Provider) (opened : OpenedProviderStream) : List ChatCompletions.Event :=
  [⟨.policySnapshot, snapshot⟩, ⟨.recordCache "bypass", ()⟩,
    ⟨.failover (.openStream p), .ok opened⟩, ⟨.deferMetricsToStream, ()⟩]

def namedStream (g : Deployment) (req : GatewayRequest) (p : Provider)
    (opened : OpenedProviderStream) : Response :=
  .stream ⟨⟨(g.sends opened).1, p, .forced p.name, [p.name]⟩, (g.sends opened).2, opened.retries,
    Downstream.includeUsage req, g.requestId, g.ttl⟩

theorem live_namedRun (opened : OpenedProviderStream) (health : Health) :
    Live defaultGatewayPolicy health (namedRun p opened) := by
  refine ⟨fun s hs => ?_, fun key entry he => ?_, fun h hh => ?_⟩
  · unfold namedRun at hs
    rcases List.mem_cons.mp hs with heq | hs
    · cases heq
      rfl
    · simp at hs
  · simp [namedRun] at he
  · cases hh

theorem emits_namedRun (hrequired : req.requiredCapabilities = .ok required)
    (hforced : forced g.providers req defaultGatewayPolicy required = .ok (some p))
    (hstream : req.stream = true) (hname : ChatCompletions.isLatin1 p.name = true)
    (opened : OpenedProviderStream) :
    Prog.Emits (chatCompletions g req) (namedRun p opened) (.ok (namedStream g req p opened)) := by
  have hbypass : req.bypassCache = true := by simp [GatewayRequest.bypassCache, hstream]
  have hkey : requestKey g.hexdigest req (some p) snapshot.version = .ok none := by
    rw [requestKey, if_pos hbypass]
    rfl
  have hopened (ctx : Failover.Context) : Prog.Emits
      (ChatCompletions.failover (Failover.streamResponse ctx p (.forced p.name)))
      [⟨.failover (.openStream p), .ok opened⟩] (.ok ⟨opened, p, .forced p.name, [p.name]⟩) := by
    rw [Failover.streamResponse, Failover.failover]
    exact ⟨_, _, rfl, rfl, rfl⟩
  have hstreamed : Prog.Emits
      (ChatCompletions.serveStream g req ⟨opened, p, .forced p.name, [p.name]⟩)
      [⟨.deferMetricsToStream, ()⟩] (.ok (namedStream g req p opened)) := by
    refine ⟨(), [], rfl, ?_⟩
    dsimp only [Prog.onReply_ok, Prog.ret_bind]
    rw [if_pos hname]
    exact ⟨rfl, rfl⟩
  have hserve : Prog.Emits
      (serveRouted g ⟨g.providers, req, req.messageDicts, required, defaultGatewayPolicy⟩ (some p)
        none) [⟨.failover (.openStream p), .ok opened⟩, ⟨.deferMetricsToStream, ()⟩]
        (.ok (namedStream g req p opened)) := by
    refine Prog.emits_bind.mpr (Or.inl ⟨[], _, (p, .forced p.name), rfl, ⟨rfl, rfl⟩, ?_⟩)
    dsimp only
    rw [if_pos hstream]
    exact Prog.emits_bind.mpr (Or.inl ⟨_, _, _, rfl, hopened _, hstreamed⟩)
  unfold chatCompletions
  rw [hrequired]
  refine ⟨snapshot, _, rfl, ?_⟩
  change Prog.Emits (ChatCompletions.failover
    (Prog.ofOutcome (forced g.providers req defaultGatewayPolicy required)) >>= _) _ _
  rw [hforced]
  change Prog.Emits (Prog.ofOutcome
    ((requestKey g.hexdigest req (some p) snapshot.version).mapError
      ChatCompletions.Exc.key) >>= _) _ _
  rw [hkey]
  exact ⟨_, _, rfl, hserve⟩

/-- A second mock, which differs in its name. -/
def secondMock : Provider := { streamingMock with name := "mock-b" }

def twoMocks : Deployment := { inFrontOf ⟨[], []⟩ with providers := [streamingMock, secondMock] }

/-- A stream from the second mock. -/
def askingSecond : GatewayRequest := { streaming with model := "mock-b", model_pos := by decide }

/-- The simulation takes the first of two equals, whatever the model. -/
theorem simulate_askingSecond : ∃ r, simulateRouting twoMocks.providers (fun _ => none)
    ⟨askingSecond, defaultGatewayPolicy⟩ = .ok r ∧ r.provider = "mock-a" :=
  @exists_eq_ok _ RoutingSimulationResponse _ (fun r => r.provider = "mock-a") _ (by decide +kernel)

theorem required_askingSecond : askingSecond.requiredCapabilities = .ok ["streaming"] := by
  simp [GatewayRequest.requiredCapabilities, askingSecond, streaming, GatewayRequest.plain,
    truthyList, Message.usesTools]
  rfl

theorem forced_askingSecond : forced twoMocks.providers askingSecond defaultGatewayPolicy
    ["streaming"] = .ok (some secondMock) := by
  simp [forced, Failover.forcedProvider, askingSecond, secondMock, twoMocks, streaming,
    GatewayRequest.plain, streamingMock, missingCapabilities]
  rfl

/-- The simulation answers with a mock that the request does not name, and is not sent to. -/
theorem named_not_predicted : ∃ es o, Prog.Emits (chatCompletions twoMocks askingSecond) es o ∧
    Live defaultGatewayPolicy (fun _ => none) es ∧ ¬ Predicts
      (simulateRouting twoMocks.providers (fun _ => none) ⟨askingSecond, defaultGatewayPolicy⟩)
      es o := by
  refine ⟨_, _, emits_namedRun required_askingSecond forced_askingSecond rfl (by decide +kernel)
    ⟨"", 12, 0⟩, live_namedRun _ _, fun hpredicts => ?_⟩
  obtain ⟨r, hr, hname⟩ := simulate_askingSecond
  obtain ⟨p, hcall, hp⟩ := (hpredicts.provider "mock-a").mp ⟨r, hr, hname⟩
  have hsecond : firstCall (namedRun secondMock ⟨"", 12, 0⟩) = some secondMock := rfl
  rw [hsecond] at hcall
  cases hcall
  exact absurd hp (by decide)

theorem forced_streaming : forced twoMocks.providers streaming defaultGatewayPolicy
    ["streaming"] = .ok (some streamingMock) := by
  simp [forced, Failover.forcedProvider, twoMocks, streaming, GatewayRequest.plain, streamingMock,
    missingCapabilities]
  rfl

theorem selects_streaming : ∃ sel, Selects twoMocks.providers streaming (fun _ => none)
    defaultGatewayPolicy ["streaming"] sel ∧ sel.chosen.name = "mock-a" ∧ Whole sel.chosen :=
  @exists_eq_ok _ Selection _ (fun sel => sel.chosen.name = "mock-a" ∧ Whole sel.chosen)
    (fun sel => inferInstanceAs (Decidable (_ ∧ (sel.chosen.typicalLatencyMs.getD 0).den = 1)))
    (by decide +kernel)

/-- The mock that the selector chooses can be named. -/
theorem predicts_iff_streaming : ∃ es o, Prog.Emits (chatCompletions twoMocks streaming) es o ∧
    Predicts (simulateRouting twoMocks.providers (fun _ => none) ⟨streaming, defaultGatewayPolicy⟩)
      es o := by
  obtain ⟨sel, hsel, hname, hwhole⟩ := selects_streaming
  have hrequired : streaming.requiredCapabilities = .ok ["streaming"] :=
    ChatCompletions.CountedOnce.required_streaming
  have hrun := emits_namedRun (g := twoMocks) hrequired forced_streaming rfl (by decide +kernel)
    ⟨"", 12, 0⟩
  refine ⟨_, _, hrun, (predicts_iff hrun (live_namedRun _ _)).mpr ⟨?_, ?_⟩⟩
  · intro required requires sel' hsel' _
    obtain rfl := Except.ok.inj (requires.symm.trans hrequired)
    obtain rfl := Except.ok.inj (hsel'.symm.trans hsel)
    refine ⟨fun hkept => ?_, Or.inr ⟨streamingMock, forced_streaming, hname.symm⟩⟩
    cases hkept
  · intro required requires hnone
    obtain rfl := Except.ok.inj (requires.symm.trans hrequired)
    exact absurd hwhole (hnone sel hsel)

end Named

end PolyGate.Gateway.PredictedRouting
