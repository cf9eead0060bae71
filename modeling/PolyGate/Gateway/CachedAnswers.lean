import PolyGate.Gateway.CompleteKey
import PolyGate.Gateway.LastKnownGood
import PolyGate.Gateway.SafeFailover

/-!
# `Gateway/CachedAnswers.lean` — which policy a cached answer was routed under

Some Gateways share one Redis. Each starts from its mounted file, or without one, and refreshes
its policy; a request keeps the snapshot it arrived under while it looks for its key, is routed,
and stores its answer, each a step of its own. Entries can disappear, and a lookup or a store can
come to nothing.

The key holds the number of a policy, so an answer is served under the policy it was routed under
if every snapshot holds, under its number, what the policy API has under that number. Refreshes
bring nothing else. The fallback of a Gateway without a file brings a policy of its own under the
number 1.
-/

namespace PolyGate.Gateway

open Lib Pydantic
open Automation (Body PolicyReply StoreFile)

namespace CachedAnswers

/-! ## Gateways that share a cache -/

/-- What is stored under a key, and the policy its provider was selected under. -/
structure CachedAnswer where
  answer : PyStr
  tokens : Tokens
  routedUnder : GatewayRoutingPolicy

inductive Phase
  | arrived
  /-- the answer is the one in the cache -/
  | served (cached : CachedAnswer)
  | missed
  | routed (result : Failover.Served AdapterResult)
  | stored

/-- A request in `chat_completions`. -/
structure Handled (ι : Type) where
  replica : ι
  req : GatewayRequest
  policySnapshot : GatewayPolicySnapshot
  /-- `none` is a bypass -/
  key : Option String
  phase : Phase

structure World (ι : Type) where
  /-- `none` until it has started -/
  replicas : ι → Option PolicyRuntime
  cache : String → Option CachedAnswer
  requests : Nat → Option (Handled ι)

namespace World

variable {ι : Type}

/-- Nothing has started. -/
def new : World ι := ⟨fun _ => none, fun _ => none, fun _ => none⟩

variable (w : World ι)

def withReplica [DecidableEq ι] (i : ι) (s : PolicyRuntime) : World ι :=
  { w with replicas := Function.update w.replicas i (some s) }

theorem replicas_withReplica [DecidableEq ι] (i : ι) (s : PolicyRuntime) :
    (w.withReplica i s).replicas i = some s := Function.update_self ..

def withEntry (key : String) (entry : Option CachedAnswer) : World ι :=
  { w with cache := Function.update w.cache key entry }

theorem cache_withEntry (key : String) (entry : Option CachedAnswer) :
    (w.withEntry key entry).cache key = entry := Function.update_self ..

def withRequest (id : Nat) (r : Handled ι) : World ι :=
  { w with requests := Function.update w.requests id (some r) }

theorem requests_withRequest (id : Nat) (r : Handled ι) :
    (w.withRequest id r).requests id = some r := Function.update_self ..

end World

inductive Label (ι : Type)
  | start (i : ι) (file : StoreFile)
  | refresh (i : ι) (reply : PolicyReply)
  | arrive (id : Nat) (i : ι) (req : GatewayRequest)
  | lookup (id : Nat)
  | route (id : Nat)
  | store (id : Nat)
  | expire (key : String)

/-- What the handler is given: the registry of each Gateway, `hexdigest` of SHA-256, and what it
reads from a response, `result.content` and the tokens. -/
structure Setting (ι : Type) where
  coercions : Coercions
  hexdigest : ByteArray → String
  providers : ι → List Provider
  content : AdapterResult → PyStr
  tokens : AdapterResult → Tokens

section System

variable {ι : Type} [DecidableEq ι] (g : Setting ι)

inductive Step (w : World ι) : Label ι → World ι → Prop
  | start {i : ι} {file : StoreFile} {s : PolicyRuntime}
      (loads : PolicyRuntime.start g.coercions file = some s) :
      Step w (.start i file) (w.withReplica i s)
  | refresh {i : ι} {reply : PolicyReply} {s : PolicyRuntime} (running : w.replicas i = some s) :
      Step w (.refresh i reply) (w.withReplica i (s.refreshOnce g.coercions reply).2)
  /-- up to the key: the capabilities, the snapshot, the forced provider -/
  | arrive {id : Nat} {i : ι} {req : GatewayRequest} {s : PolicyRuntime} {ctx : Failover.Context}
      {forced : Option Provider} {key : Option String}
      (fresh : w.requests id = none) (running : w.replicas i = some s)
      (context : Failover.context (g.providers i) req s.snapshot.gateway = .ok ctx)
      (forces : Failover.forcedProvider ctx = .ok forced)
      (keyed : requestKey g.hexdigest req forced s.snapshot.version = .ok key) :
      Step w (.arrive id i req) (w.withRequest id ⟨i, req, s.snapshot, key, .arrived⟩)
  | hit {id : Nat} {r : Handled ι} {key : String} {cached : CachedAnswer}
      (handled : w.requests id = some r) (phase : r.phase = .arrived) (keyed : r.key = some key)
      (found : w.cache key = some cached) :
      Step w (.lookup id) (w.withRequest id { r with phase := .served cached })
  /-- there is no key or no entry, or Redis fails -/
  | miss {id : Nat} {r : Handled ι} (handled : w.requests id = some r)
      (phase : r.phase = .arrived) :
      Step w (.lookup id) (w.withRequest id { r with phase := .missed })
  | route {id : Nat} {r : Handled ι} {es : List Failover.Event}
      {result : Failover.Served AdapterResult} (handled : w.requests id = some r)
      (phase : r.phase = .missed) (stream : r.req.stream = false)
      (routes : Prog.Emits
        (Failover.chatNonStream (g.providers r.replica) r.req r.policySnapshot.gateway) es
        (.ok result)) :
      Step w (.route id) (w.withRequest id { r with phase := .routed result })
  | store {id : Nat} {r : Handled ι} {key : String} {result : Failover.Served AdapterResult}
      (handled : w.requests id = some r) (phase : r.phase = .routed result)
      (keyed : r.key = some key) (content : g.content result.result ≠ [])
      (once : result.triedNames.length = 1) :
      Step w (.store id) ((w.withEntry key (some ⟨g.content result.result,
        g.tokens result.result, r.policySnapshot.gateway⟩)).withRequest id
          { r with phase := .stored })
  | expire {key : String} : Step w (.expire key) (w.withEntry key none)

/-! ## The law, and what it needs -/

/-- An answer from the cache was routed under the policy of the request it is served to. -/
def NeverCrosses (w : World ι) : Prop :=
  ∀ id r cached, w.requests id = some r → r.phase = .served cached →
    cached.routedUnder = r.policySnapshot.gateway

variable (api : Nat → GatewayRoutingPolicy)

/-- The snapshot has under its number what the policy API has. -/
def Official (snapshot : GatewayPolicySnapshot) : Prop := snapshot.gateway = api snapshot.version

/-- A valid answer to a refresh comes from the policy API. -/
def Answered : Label ι → Prop
  | .refresh _ reply => ∀ snapshot etag,
      LastKnownGood.valid g.coercions reply = some (snapshot, etag) → Official api snapshot
  | _ => True

/-- A mounted file holds as active what the API has under that number; without a file, what the API
has under the number 1 is the default. -/
def Mounted : Label ι → Prop
  | .start _ .missing => api 1 = defaultGatewayPolicy
  | .start _ (.text (.json store)) => ∀ snapshot,
      readStore g.coercions store = .ok snapshot → Official api snapshot
  | _ => True

/-! ## The invariant -/

/-- Every snapshot is official, every key was computed for the snapshot it is kept with, and every
entry was routed under the policy with the number in its key. -/
structure Keyed (w : World ι) : Prop where
  replicas : ∀ i s, w.replicas i = some s → Official api s.snapshot
  requests : ∀ id r, w.requests id = some r → Official api r.policySnapshot ∧
    ∀ key, r.key = some key → ∃ forced,
      requestKey g.hexdigest r.req forced r.policySnapshot.version = .ok (some key)
  cache : ∀ key cached, w.cache key = some cached → ∃ req forced version,
    requestKey g.hexdigest req forced version = .ok (some key) ∧ cached.routedUnder = api version
  served : NeverCrosses w

variable {g} {api} {w : World ι}

omit [DecidableEq ι] in
theorem Keyed.new : Keyed g api (World.new : World ι) := by
  refine ⟨?_, ?_, ?_, ?_⟩
  · intro i s h
    cases h
  · intro id r h
    cases h
  · intro key cached h
    cases h
  · intro id r cached h
    cases h

theorem Keyed.withReplica (hi : Keyed g api w) {i : ι} {s : PolicyRuntime}
    (h : Official api s.snapshot) : Keyed g api (w.withReplica i s) := by
  refine ⟨?_, hi.requests, hi.cache, hi.served⟩
  intro j s' hj
  by_cases hji : j = i
  · subst hji
    cases (w.replicas_withReplica j s).symm.trans hj
    exact h
  · exact hi.replicas j s' ((Function.update_of_ne hji ..).symm.trans hj)

omit [DecidableEq ι] in
theorem Keyed.withRequest (hi : Keyed g api w) {id : Nat} {r : Handled ι}
    (hofficial : Official api r.policySnapshot)
    (hkey : ∀ key, r.key = some key → ∃ forced,
      requestKey g.hexdigest r.req forced r.policySnapshot.version = .ok (some key))
    (hserved : ∀ cached, r.phase = .served cached →
      cached.routedUnder = r.policySnapshot.gateway) : Keyed g api (w.withRequest id r) := by
  refine ⟨hi.replicas, ?_, hi.cache, ?_⟩
  · intro id' r' h
    by_cases hid : id' = id
    · subst hid
      cases (w.requests_withRequest id' r).symm.trans h
      exact ⟨hofficial, hkey⟩
    · exact hi.requests id' r' ((Function.update_of_ne hid ..).symm.trans h)
  · intro id' r' cached h
    by_cases hid : id' = id
    · subst hid
      cases (w.requests_withRequest id' r).symm.trans h
      exact hserved cached
    · exact hi.served id' r' cached ((Function.update_of_ne hid ..).symm.trans h)

omit [DecidableEq ι] in
/-- A request goes on to a phase that serves nothing from the cache. -/
theorem Keyed.withPhase (hi : Keyed g api w) {id : Nat} {r : Handled ι}
    (h : w.requests id = some r) {phase : Phase} (hphase : ∀ cached, phase ≠ .served cached) :
    Keyed g api (w.withRequest id { r with phase := phase }) := by
  obtain ⟨hofficial, hkey⟩ := hi.requests id r h
  exact hi.withRequest hofficial hkey fun cached hserved => absurd hserved (hphase cached)

omit [DecidableEq ι] in
theorem Keyed.withEntry (hi : Keyed g api w) {key : String} {entry : Option CachedAnswer}
    (h : ∀ cached, entry = some cached → ∃ req forced version,
      requestKey g.hexdigest req forced version = .ok (some key) ∧
        cached.routedUnder = api version) : Keyed g api (w.withEntry key entry) := by
  refine ⟨hi.replicas, hi.requests, ?_, hi.served⟩
  intro key' cached hk
  by_cases hkey : key' = key
  · subst hkey
    exact h cached ((w.cache_withEntry key' entry).symm.trans hk)
  · exact hi.cache key' cached ((Function.update_of_ne hkey ..).symm.trans hk)

omit [DecidableEq ι] in
/-- A start under the condition loads an official snapshot. -/
theorem official_start {i : ι} {file : StoreFile} {s : PolicyRuntime}
    (hmounted : Mounted g api (.start i file))
    (h : PolicyRuntime.start g.coercions file = some s) : Official api s.snapshot := by
  unfold PolicyRuntime.start at h
  split at h
  · cases h
    exact (show api 1 = defaultGatewayPolicy from hmounted).symm
  · split at h
    · rename_i store snapshot hread
      cases h
      exact hmounted snapshot hread
    · cases h
  all_goals cases h

omit [DecidableEq ι] in
/-- A refresh keeps the snapshot or takes the answer's. -/
theorem official_refresh {i : ι} {reply : PolicyReply} {s : PolicyRuntime}
    (hanswered : Answered g api (.refresh i reply)) (h : Official api s.snapshot) :
    Official api (s.refreshOnce g.coercions reply).2.snapshot := by
  unfold PolicyRuntime.refreshOnce
  split
  · rw [LastKnownGood.receive_state]
    cases hv : LastKnownGood.valid g.coercions reply with
    | none => exact h
    | some p => exact hanswered p.1 p.2 hv
  · exact h

theorem Keyed.step (hinj : Function.Injective g.hexdigest) (hi : Keyed g api w) {w' : World ι}
    {l : Label ι} (hok : Answered g api l ∧ Mounted g api l) (hst : Step g w l w') :
    Keyed g api w' := by
  cases hst with
  | start loads => exact hi.withReplica (official_start hok.2 loads)
  | refresh running => exact hi.withReplica (official_refresh hok.1 (hi.replicas _ _ running))
  | @arrive id i req s ctx forced key fresh running context forces keyed =>
    refine hi.withRequest (hi.replicas _ _ running) ?_ fun cached hserved => (by cases hserved)
    rintro key rfl
    exact ⟨forced, keyed⟩
  | @hit id r key cached handled phase keyed found =>
    -- the entry and the request have one key, so one version
    obtain ⟨hofficial, hkey⟩ := hi.requests _ _ handled
    obtain ⟨forced, hrequest⟩ := hkey key keyed
    obtain ⟨req', forced', version, hentry, hrouted⟩ := hi.cache _ _ found
    have hversion := requestKey_version hinj hentry hrequest
    refine hi.withRequest hofficial hkey fun cached' hserved => ?_
    cases hserved
    rw [hrouted, hversion]
    exact hofficial.symm
  | miss handled => exact hi.withPhase handled fun cached h => (by cases h)
  | route handled => exact hi.withPhase handled fun cached h => (by cases h)
  | @store id r key result handled phase keyed content once =>
    obtain ⟨hofficial, hkey⟩ := hi.requests _ _ handled
    obtain ⟨forced, hrequest⟩ := hkey key keyed
    have hentry : Keyed g api (w.withEntry key (some ⟨g.content result.result,
        g.tokens result.result, r.policySnapshot.gateway⟩)) := by
      refine hi.withEntry fun cached hcached => ?_
      cases hcached
      exact ⟨r.req, forced, _, hrequest, hofficial⟩
    exact hentry.withPhase handled fun cached h => (by cases h)
  | expire => exact hi.withEntry fun cached h => (by cases h)

/-- **Cached answers do not cross policies**, as long as no Gateway starts from a policy that the
policy API does not have under that number. -/
theorem never_crosses (g : Setting ι) (api : Nat → GatewayRoutingPolicy)
    (hinj : Function.Injective g.hexdigest) {ts : List (World ι × Label ι × World ι)}
    {w : World ι} (hrun : Run (Step g) .new ts w) (hapi : ∀ t ∈ ts, Answered g api t.2.1)
    (hmounted : ∀ t ∈ ts, Mounted g api t.2.1) : NeverCrosses w := by
  have hok : ∀ t ∈ ts, Answered g api t.2.1 ∧ Mounted g api t.2.1 := fun t ht =>
    ⟨hapi t ht, hmounted t ht⟩
  have hkeyed := (hrun.restrict (P := fun _ l => Answered g api l ∧ Mounted g api l) hok).invariant
    (I := Keyed g api) .new fun w₁ l w₂ hi hst => hi.step hinj hst.1 hst.2
  exact hkeyed.served

end System

/-! ## A Gateway without a file -/

/-- The default with a hard budget. -/
def hardBudget : GatewayRoutingPolicy := { defaultGatewayPolicy with budgetMode := .hard }

/-- The policy API with the hard budget as its first version. -/
def firstBody : Json := .obj
  [(str "version", .int 1), (str "policy", .obj [(str "gateway", hardBudget.json)])]

theorem readBody_firstBody : readBody .textless firstBody = .ok ⟨1, hardBudget, le_rfl⟩ := by
  refine readBody_eq_ok.mpr ⟨_, _, rfl, rfl, ?_, rfl⟩
  rw [required_cons, if_pos rfl]
  exact readGatewayRoutingPolicy_json _ _

/-- One Gateway with two mocks. -/
def mocks : Setting Unit where
  coercions := .textless
  hexdigest := CompleteKey.helloDigest
  providers _ := Failover.twoMocks
  content _ := str "hi"
  tokens _ := ⟨1, 1⟩

open Failover (hello helloContext twoMocks)

/-- A provider is selected and answers. -/
theorem emits_answer : ∃ es s, s.triedNames.length = 1 ∧
    Prog.Emits (Failover.chatNonStream twoMocks hello defaultGatewayPolicy) es (.ok s) := by
  obtain ⟨sel, -, hrun⟩ := Failover.emits_select_hello twoMocks (fun _ => none)
    (by decide +kernel)
  have hroute : Prog.Emits (Failover.route helloContext) [⟨.healthSnapshot, fun _ => none⟩]
      (.ok (sel.chosen, .selected sel.reason)) := by
    show Prog.Emits (do
      let sel ← Failover.select helloContext twoMocks
      return (sel.chosen, Reason.selected sel.reason)) _ _
    exact Prog.emits_bind.mpr (Or.inl ⟨_, [], sel, (List.append_nil _).symm, hrun, rfl, rfl⟩)
  refine ⟨[⟨.healthSnapshot, fun _ => none⟩, ⟨.callProvider sel.chosen, .ok Failover.answer⟩,
    ⟨.recordProvider sel.chosen.name "success", ()⟩],
    ⟨Failover.answer, sel.chosen, .selected sel.reason, [sel.chosen.name]⟩, rfl, ?_⟩
  refine Prog.emits_bind.mpr (Or.inl ⟨[], _, helloContext, rfl, ⟨rfl, rfl⟩, ?_⟩)
  refine Prog.emits_bind.mpr (Or.inl ⟨_, _, _, rfl, hroute, ?_⟩)
  show Prog.Emits (Failover.failover helloContext Failover.nonStream sel.chosen _ [] 0) _ _
  rw [Failover.failover]
  refine Prog.emits_bind.mpr (Or.inl ⟨[_], _, .ok Failover.answer, rfl, ⟨_, _, rfl, rfl, rfl⟩, ?_⟩)
  exact ⟨(), [], rfl, rfl, rfl⟩

theorem hello_key : ∃ key, requestKey mocks.hexdigest hello none 1 = .ok (some key) :=
  (CompleteKey.requestKey_isSome (CompleteKey.oneMessage_cached (str "hello"))).mpr
    (CompleteKey.oneMessage_noSurrogates.mpr (surrogateFree_str _))

/-- The request "hello" under a snapshot. -/
def handledHello (snapshot : GatewayPolicySnapshot) (key : String) (phase : Phase) : Handled Unit :=
  ⟨(), hello, snapshot, some key, phase⟩

theorem arrive_hello {w : World Unit} {s : PolicyRuntime} {key : String} (id : Nat)
    (hkey : requestKey mocks.hexdigest hello none s.snapshot.version = .ok (some key))
    (hs : w.replicas () = some s) (hfresh : w.requests id = none) :
    Step mocks w (.arrive id () hello)
      (w.withRequest id (handledHello s.snapshot key .arrived)) :=
  .arrive hfresh hs rfl rfl hkey

/-- It starts without a file, answers a request and stores the answer. -/
theorem stores_hello {key : String}
    (hkey : requestKey mocks.hexdigest hello none 1 = .ok (some key)) :
    ∃ ts w cached, Run (Step mocks) .new ts w ∧
      ts.map (·.2.1) = [.start () .missing, .arrive 0 () hello, .lookup 0, .route 0, .store 0] ∧
      w.replicas () = some .fallback ∧ w.cache key = some cached ∧
      cached.routedUnder = defaultGatewayPolicy ∧ w.requests 1 = none := by
  obtain ⟨es, s, honce, hrun⟩ := emits_answer
  let snapshot := PolicyRuntime.fallback.snapshot
  let w₁ : World Unit := World.new.withReplica () .fallback
  let w₂ := w₁.withRequest 0 (handledHello snapshot key .arrived)
  let w₃ := w₂.withRequest 0 (handledHello snapshot key .missed)
  let routed := handledHello snapshot key (.routed s)
  let w₄ := w₃.withRequest 0 routed
  have hstart : Step mocks .new (.start () .missing) w₁ := .start rfl
  have harrive : Step mocks w₁ (.arrive 0 () hello) w₂ :=
    arrive_hello 0 hkey (World.replicas_withReplica ..) rfl
  have hmiss : Step mocks w₂ (.lookup 0) w₃ := .miss (w₁.requests_withRequest ..) rfl
  have hroute : Step mocks w₃ (.route 0) w₄ := .route (w₂.requests_withRequest ..) rfl rfl hrun
  have hstore := Step.store (g := mocks) (w₃.requests_withRequest 0 routed) rfl rfl
    (by simp [mocks, str]) honce
  exact ⟨_, _, _, .tail (.tail (.tail (.tail (.tail .refl hstart) harrive) hmiss) hroute) hstore,
    rfl, World.replicas_withReplica .new () .fallback, World.cache_withEntry _ key _, rfl, rfl⟩

/-- The same request is served from the cache. -/
theorem serves_hello {w : World Unit} {s : PolicyRuntime} {cached : CachedAnswer} {key : String}
    (hkey : requestKey mocks.hexdigest hello none 1 = .ok (some key))
    (hs : w.replicas () = some s) (hversion : s.snapshot.version = 1)
    (hcache : w.cache key = some cached) (hfresh : w.requests 1 = none) :
    ∃ ts w' r, Run (Step mocks) w ts w' ∧ ts.map (·.2.1) = [.arrive 1 () hello, .lookup 1] ∧
      w'.requests 1 = some r ∧ r.phase = .served cached ∧ r.policySnapshot = s.snapshot := by
  rw [← hversion] at hkey
  let w₁ := w.withRequest 1 (handledHello s.snapshot key .arrived)
  have hhit : Step mocks w₁ (.lookup 1)
      (w₁.withRequest 1 (handledHello s.snapshot key (.served cached))) :=
    .hit (w.requests_withRequest ..) rfl rfl hcache
  exact ⟨_, _, _, .tail (.tail .refl (arrive_hello 1 hkey hs hfresh)) hhit, rfl,
    w₁.requests_withRequest .., rfl, rfl⟩

/-- Answered again under the fallback, while the API's first policy is the default. -/
theorem never_crosses_hello : ∃ ts w, Run (Step mocks) .new ts w ∧
    (∃ r cached, w.requests 1 = some r ∧ r.phase = .served cached) ∧ NeverCrosses w := by
  obtain ⟨key, hkey⟩ := hello_key
  obtain ⟨ts, w, cached, hrun, hlabels, hs, hcache, -, hfresh⟩ := stores_hello hkey
  obtain ⟨ts', w', r, hrun', hlabels', hr, hphase, -⟩ := serves_hello hkey hs rfl hcache hfresh
  have hok : ∀ t ∈ ts ++ ts', Answered mocks (fun _ => defaultGatewayPolicy) t.2.1 ∧
      Mounted mocks (fun _ => defaultGatewayPolicy) t.2.1 := by
    intro t ht
    have hmem : t.2.1 ∈ (ts ++ ts').map (·.2.1) := List.mem_map_of_mem ht
    rw [List.map_append, hlabels, hlabels'] at hmem
    simp only [List.cons_append, List.nil_append, List.mem_cons, List.not_mem_nil, or_false] at hmem
    rcases hmem with h | h | h | h | h | h | h <;> rw [h] <;> exact ⟨trivial, by trivial⟩
  exact ⟨_, w', hrun.append hrun', ⟨r, cached, hr, hphase⟩,
    never_crosses mocks _ CompleteKey.helloDigest_injective (hrun.append hrun')
      (fun t ht => (hok t ht).1) fun t ht => (hok t ht).2⟩

/-- **The fallback crosses policies.** A Gateway that started without a file answers under the
default, refreshes to the API's first policy, which has a hard budget, and serves that answer. -/
theorem fallback_crosses : ∃ (api : Nat → GatewayRoutingPolicy) (ts : _) (w : World Unit),
    Run (Step mocks) .new ts w ∧ (∀ t ∈ ts, Answered mocks api t.2.1) ∧ ¬NeverCrosses w := by
  obtain ⟨key, hkey⟩ := hello_key
  obtain ⟨ts, w, cached, hrun, hlabels, hs, hcache, hrouted, hfresh⟩ := stores_hello hkey
  let reply : PolicyReply := .response 200 (.json firstBody) none
  let first : PolicyRuntime := ⟨⟨1, hardBudget, le_rfl⟩, none⟩
  have hrefreshed : (PolicyRuntime.fallback.refreshOnce .textless reply).2 = first :=
    congrArg Prod.snd ((if_pos rfl).trans
      (PolicyRuntime.receive_valid .fallback none readBody_firstBody))
  have hrefresh : Step mocks w (.refresh () reply) (w.withReplica () first) := by
    rw [← hrefreshed]
    exact .refresh hs
  obtain ⟨ts', w', r, hrun', hlabels', hr, hphase, hsnapshot⟩ := serves_hello hkey
    (w.replicas_withReplica () first) rfl hcache hfresh
  refine ⟨fun _ => hardBudget, _, w', (hrun.tail hrefresh).append hrun', ?_, ?_⟩
  · intro t ht
    have hmem : t.2.1 ∈ _ := List.mem_map_of_mem (f := (·.2.1)) ht
    rw [List.map_append, List.map_append, hlabels, hlabels'] at hmem
    simp only [List.map_cons, List.map_nil, List.cons_append, List.nil_append, List.mem_cons,
      List.not_mem_nil, or_false] at hmem
    rcases hmem with h | h | h | h | h | h | h | h <;> rw [h] <;> try trivial
    -- the answer to the refresh is the API's first version
    intro snapshot etag hvalid
    obtain ⟨v, hreply, hread⟩ := LastKnownGood.valid_eq_some.mp hvalid
    have hbody : Body.json firstBody = .json v := (PolicyReply.response.inj hreply).2.1
    cases hbody
    cases readBody_firstBody.symm.trans hread
    rfl
  · intro hlaw
    have hpolicy := hlaw 1 r cached hr hphase
    rw [hrouted, hsnapshot] at hpolicy
    exact absurd hpolicy (by decide +kernel)

end CachedAnswers

end PolyGate.Gateway
