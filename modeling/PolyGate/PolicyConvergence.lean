import PolyGate.Lib.Session
import PolyGate.Automation.Policy.NextDocument
import PolyGate.Automation.PolicyRuntime
import PolyGate.Gateway.Policy

/-!
# `PolicyConvergence.lean` — the policy API and the two components that follow it

One manager publishes and rolls back, one call after another, and answers
`GET /v1/policies/active` between any two of its commands. The Gateway and the Worker each load a
document the repository held before the call in progress, and then poll; a request or a reply may
be lost. Every step of every poll is a step of its own.

What makes a 304 safe is that the three agree on what the ETag says: the server makes it from
the version, the Worker makes it from its own version, and the Gateway keeps the header of the
answer its snapshot came with. And a version says which record it is: of the records the manager
has had active, one is older than the other or they are the same (`Older`).
-/

namespace PolyGate.PolicyConvergence

open Lib Pydantic Automation

/-! ## The components -/

inductive Component | gateway | worker
  deriving DecidableEq, Repr

namespace Component

abbrev Runtime : Component → Type
  | .gateway => Gateway.PolicyRuntime
  | .worker => Automation.PolicyRuntime

variable (c : Coercions) (datetime : DatetimeFormat)

/-- What it starts with, given the mounted file. -/
def start : (k : Component) → StoreFile → Option k.Runtime
  | .gateway, file => Gateway.PolicyRuntime.start c file
  | .worker, file => Automation.PolicyRuntime.loadInitialSnapshot datetime file .transportError

def ifNoneMatch : (k : Component) → k.Runtime → Option String
  | .gateway, s => s.ifNoneMatch
  | .worker, w => some w.ifNoneMatch

/-- Its request can be sent. -/
def sendable : (k : Component) → k.Runtime → Bool
  | .gateway, s => s.sendable
  | .worker, _ => true

/-- What `refresh_once` leaves, once the request was sent. -/
def receive : (k : Component) → k.Runtime → PolicyReply → k.Runtime
  | .gateway, s, reply => (s.receive c reply).2
  | .worker, w, reply => (w.refreshOnce datetime.read reply).2

def version : (k : Component) → k.Runtime → Nat
  | .gateway, s => s.snapshot.version
  | .worker, w => w.active.version

/-- Its loaded version and policy are the record's; the Gateway loads the gateway section. -/
def Loaded : (k : Component) → k.Runtime → PolicyVersion → Prop
  | .gateway, s, r => s.snapshot.version = r.version ∧ s.snapshot.gateway = r.policy.gateway
  | .worker, w, r => w.active = r.response

end Component

/-! ## The system -/

/-- Where a poll is. -/
inductive Poll
  | idle
  | asked (ifNoneMatch : Option String)
  /-- the reply, and what the manager had active when it answered -/
  | answered (reply : PolicyReply) (active : PolicyVersion)

structure Client (k : Component) where
  /-- `none` until it has started -/
  runtime : Option k.Runtime
  poll : Poll

abbrev Manager := Session Service PolicyCmd PolicyCmd.Reply PolicyExc PublishResult

structure World where
  manager : Manager
  /-- the records the manager has had active, latest first -/
  actives : List PolicyVersion
  /-- the documents the repository has held between calls, latest first -/
  held : List PolicyStoreDocument
  clients : (k : Component) → Client k

def World.new (repository : InMemoryPolicyRepository) : World where
  manager := ⟨.new repository, none⟩
  actives := [repository.document.active]
  held := [repository.document]
  clients _ := ⟨none, .idle⟩

/-- The manager has gone on. -/
def World.withManager (w : World) (m : Manager) : World where
  manager := m
  actives := m.world.active :: w.actives
  held := if m.call.isNone then m.world.repository.document :: w.held else w.held
  clients := w.clients

def World.withClient (w : World) {k : Component} (client : Client k) : World :=
  { w with clients := Function.update w.clients k client }

@[simp] theorem World.withClient_self (w : World) {k : Component} (client : Client k) :
    (w.withClient client).clients k = client := Function.update_self ..

theorem World.withClient_of_ne (w : World) {j k : Component} (client : Client j) (h : k ≠ j) :
    (w.withClient client).clients k = w.clients k := Function.update_of_ne h ..

inductive Label
  | manager (l : Session.Label PolicyCall PolicyCmd)
  | start (k : Component)
  | ask (k : Component)
  | answer (k : Component)
  | receive (k : Component)
  | lose (k : Component)

/-- The repository does not fail; the cache may. -/
abbrev faults (cache : Bool) : Faults := ⟨false, cache⟩

variable (c : Coercions) (datetime : DatetimeFormat) (cache : Bool)

inductive Step (w : World) : Label → World → Prop
  | manager {l : Session.Label PolicyCall PolicyCmd} {m : Manager}
      (does : Session.Step (Service.does (faults cache)) PolicyCall.program w.manager l m) :
      Step w (.manager l) (w.withManager m)
  | start {k : Component} {d : PolicyStoreDocument} {s : k.Runtime}
      (fresh : (w.clients k).runtime = none) (earlier : d ∈ w.held)
      (loads : k.start c datetime (.of datetime d) = some s) :
      Step w (.start k) (w.withClient ⟨some s, .idle⟩)
  | ask {k : Component} {s : k.Runtime} (idle : w.clients k = ⟨some s, .idle⟩)
      (sends : k.sendable s = true) :
      Step w (.ask k) (w.withClient ⟨some s, .asked (k.ifNoneMatch s)⟩)
  | answer {k : Component} {s : k.Runtime} {ifNoneMatch : Option String}
      (asked : w.clients k = ⟨some s, .asked ifNoneMatch⟩) :
      Step w (.answer k) (w.withClient ⟨some s, .answered
        (activePolicy datetime w.manager.world.active ifNoneMatch) w.manager.world.active⟩)
  | receive {k : Component} {s : k.Runtime} {reply : PolicyReply} {active : PolicyVersion}
      (answered : w.clients k = ⟨some s, .answered reply active⟩) :
      Step w (.receive k) (w.withClient ⟨some (k.receive c datetime s reply), .idle⟩)
  /-- the request or the reply is lost -/
  | lose {k : Component} {s : k.Runtime} {poll : Poll} (out : w.clients k = ⟨some s, poll⟩)
      (waiting : poll ≠ .idle) :
      Step w (.lose k) (w.withClient ⟨some (k.receive c datetime s .transportError), .idle⟩)

/-! ## The manager -/

/-- A record is older than another, or they are the same. -/
def Older (r r' : PolicyVersion) : Prop := r.version < r'.version ∨ r = r'

theorem Older.refl (r : PolicyVersion) : Older r r := Or.inr rfl

theorem Older.trans {r r' r'' : PolicyVersion} (h : Older r r') (h' : Older r' r'') :
    Older r r'' := by
  rcases h with h | rfl
  · rcases h' with h' | rfl
    · exact Or.inl (h.trans h')
    · exact Or.inl h
  · exact h'

theorem Older.version_le {r r' : PolicyVersion} (h : Older r r') : r.version ≤ r'.version := by
  rcases h with h | rfl
  · exact h.le
  · exact le_rfl

/-- A version says which record it is. -/
theorem Older.eq_of_version_eq {r r' : PolicyVersion} (h : Older r r')
    (hv : r.version = r'.version) : r = r' := by
  rcases h with h | h
  · exact absurd hv h.ne
  · exact h

/-- What one command of a call does: the durable record gets younger, and the active one stays
or becomes the durable one. -/
def Grew (s s' : Service) : Prop :=
  Older s.durable s'.durable ∧ (s'.active = s.active ∨ s'.active = s'.durable)

theorem Grew.refl (s : Service) : Grew s s := ⟨.refl _, Or.inl rfl⟩

/-- The active record is the durable one, or an older one. -/
theorem Grew.active_durable {s s' : Service} (h : Grew s s') (hs : Older s.active s.durable) :
    Older s'.active s'.durable := by
  rcases h.2 with h' | h'
  · rw [h']
    exact hs.trans h.1
  · rw [h']
    exact .refl _

/-- So the active record gets younger too. -/
theorem Grew.active {s s' : Service} (h : Grew s s') (hs : Older s.active s.durable) :
    Older s.active s'.active := by
  rcases h.2 with h' | h'
  · rw [h']
    exact .refl _
  · rw [h']
    exact hs.trans h.1

section Call

variable {cache : Bool} {args : CommitArgs} {s : Service}

/-- Between calls the active record is the durable one. -/
def Synced (s : Service) : Prop := s.active = s.durable

abbrev SafeCall (cache : Bool) : Pm PublishResult → Service → Prop :=
  Prog.Safe (Service.does (faults cache)) Eq (fun s _ s' _ => Grew s s') fun _ s => Synced s

theorem safe_raise {e : PolicyExc} (h : Synced s) : SafeCall cache (.raise e) s := by
  rintro _ rfl
  exact h

theorem safe_finishCommit {persisted : RepositorySnapshot}
    (hp : persisted.document = s.repository.document) :
    SafeCall cache (finishCommit args persisted) s := by
  rw [finishCommit_eq, hp]
  refine Prog.safe_cmd_alone.mpr fun v s₁ h₁ => ?_
  cases v with
  | error e => exact h₁.elim
  | ok x =>
  subst h₁
  refine ⟨.refl _, Prog.safe_cmd_alone.mpr fun v s₂ h₂ => ?_⟩
  cases v with
  | error e => exact h₂.elim
  | ok x =>
  subst h₂
  refine ⟨⟨.refl _, Or.inr rfl⟩, Prog.safe_cmd_alone.mpr fun v s₃ h₃ => ?_⟩
  -- the cache write changes neither record
  have hsame : s₃.repository = s.repository ∧ s₃.active = s.durable := by
    cases v with
    | ok x =>
      subst h₃
      exact ⟨rfl, rfl⟩
    | error e => obtain ⟨-, -, rfl | rfl⟩ := h₃ <;> exact ⟨rfl, rfl⟩
  have hdurable : s₃.durable = s.durable := by rw [Service.durable, hsame.1]; rfl
  refine ⟨⟨?_, Or.inl hsame.2⟩, ?_⟩
  · rw [hdurable]
    exact .refl _
  · rintro _ rfl
    exact hsame.2.trans hdurable.symm

theorem safe_commit (h : Synced s) : SafeCall cache (commit args) s := by
  rw [commit_eq]
  refine Prog.safe_cmd_alone.mpr fun v s₁ h₁ => ?_
  cases v with
  | error e => exact absurd h₁.1 (by simp)
  | ok snapshot =>
  obtain ⟨rfl, rfl⟩ := h₁
  refine ⟨.refl _, ?_⟩
  simp only [Prog.onReply_ok]
  split_ifs
  · exact safe_raise h
  refine Prog.safe_cmd_alone.mpr fun v s₂ h₂ => ?_
  cases v with
  | error e => exact h₂.elim
  | ok now =>
  subst h₂
  refine ⟨.refl _, ?_⟩
  dsimp only [Prog.onReply_ok]
  rcases buildDocument_spec args s₂.repository.document now with ⟨d', hb, hext, -⟩ | ⟨e, hb⟩
  · simp only [InMemoryPolicyRepository.load_document, hb]
    refine Prog.safe_cmd_alone.mpr fun v s₃ h₃ => ?_
    cases v with
    | ok persisted =>
      simp only [InMemoryPolicyRepository.load_revision, Service.does,
        InMemoryPolicyRepository.compareAndSwap_current, Except.ok.injEq] at h₃
      obtain ⟨rfl, rfl⟩ := h₃
      have holder : s₂.durable.version < d'.active.version := by
        rw [hext.version, Service.durable, PolicyStoreDocument.active_version]
        exact Nat.lt_succ_self _
      exact ⟨⟨Or.inl holder, Or.inl rfl⟩, safe_finishCommit rfl⟩
    | error e =>
      -- nothing else writes, so the revision is the loaded one
      simp only [InMemoryPolicyRepository.load_revision, Service.does,
        InMemoryPolicyRepository.compareAndSwap_current] at h₃
      rcases h₃ with ⟨h₃, -⟩ | ⟨h₃, -⟩ <;> cases h₃
  · simp only [InMemoryPolicyRepository.load_document, hb]
    exact safe_raise h

theorem safe_program (call : PolicyCall) (s : Service) (h : Synced s) :
    SafeCall cache call.program s := by
  cases call with
  | publish baseVersion draft changeNote actor => exact safe_commit h
  | rollback targetVersion baseVersion changeNote actor =>
    simp only [PolicyCall.program, rollback, Prog.perform_bind]
    refine Prog.safe_cmd_alone.mpr fun v s₁ h₁ => ?_
    cases v with
    | error e => exact absurd h₁.1 (by simp)
    | ok snapshot =>
      obtain ⟨rfl, rfl⟩ := h₁
      refine ⟨.refl _, ?_⟩
      dsimp only [Prog.onReply_ok]
      split
      · exact safe_raise h
      · exact safe_commit h

end Call

/-! ## One poll -/

/-- The component holds the record, and the ETag it would send is the record's. -/
def Component.Holds : (k : Component) → k.Runtime → PolicyVersion → Prop
  | .gateway, s, r => Component.Loaded .gateway s r ∧ ∀ etag ∈ s.etag, etag = policyEtag r.version
  | .worker, w, r => Component.Loaded .worker w r

section Poll

variable {c : Coercions} {datetime : DatetimeFormat} {k : Component} {s : k.Runtime}
  {r active : PolicyVersion}

theorem Component.Holds.loaded (h : k.Holds s r) : k.Loaded s r := by
  cases k with
  | gateway => exact h.1
  | worker => exact h

theorem Component.Holds.version (h : k.Holds s r) : k.version s = r.version := by
  cases k with
  | gateway => exact h.1.1
  | worker => exact congrArg ActivePolicyResponse.version h

/-- The ETag that is sent is that of the record that is held. -/
theorem Component.Holds.asks (h : k.Holds s r) {etag : String} (he : k.ifNoneMatch s = some etag) :
    etag = policyEtag r.version := by
  cases k with
  | gateway => exact h.2 etag (Option.filter_eq_some_iff.mp he).1
  | worker =>
    have hsent : policyEtag s.active.version = etag := Option.some.inj he
    have hactive : s.active = r.response := h
    rw [← hsent, hactive]
    rfl

/-- What the server sends of a record, each component reads as that record. -/
theorem Component.receive_record :
    k.Holds (k.receive c datetime s (.response 200 (.json (active.response.json datetime))
      (some (policyEtag active.version)))) active := by
  cases k with
  | gateway =>
    have hbody : Gateway.readBody c (active.response.json datetime) =
        .ok ⟨active.version, active.policy.gateway, active.version_pos⟩ := by
      refine Gateway.readBody_eq_ok.mpr ⟨_, _, rfl, rfl, ?_, ?_⟩
      · rw [required_cons, if_neg (by decide), required_cons, if_pos rfl]
        exact Gateway.readGatewayRoutingPolicy_json c _
      · rw [required_cons, if_pos rfl]
        exact (laxInt_extends c).bind _ _ _ (intFrom_int active.version_pos)
    have hreceive := Gateway.PolicyRuntime.receive_valid s (some (policyEtag active.version)) hbody
    show Component.Holds .gateway (Gateway.PolicyRuntime.receive c s _).2 active
    rw [hreceive]
    exact ⟨⟨rfl, rfl⟩, fun etag he => (Option.some.inj he).symm⟩
  | worker =>
    have hread :=
      readActivePolicyResponse_json datetime (r := active.response) active.version_pos rfl
    have hreceive := s.refreshOnce_valid (some (policyEtag active.version)) hread
    show (Automation.PolicyRuntime.refreshOnce datetime.read s _).2.active = _
    rw [hreceive]

/-- **One poll.** Whoever holds an older record holds, after an answer, the record that was active.
-/
theorem Component.receive_answer (hs : k.Holds s r) (hr : Older r active) :
    k.Holds (k.receive c datetime s (activePolicy datetime active (k.ifNoneMatch s))) active := by
  unfold activePolicy
  by_cases he : k.ifNoneMatch s = some (policyEtag active.version)
  · -- a 304: the version asked about is the version held
    have hv : active.version = r.version := policyEtag_injective (hs.asks he)
    obtain rfl := hr.eq_of_version_eq hv.symm
    simp only [he, if_true]
    have hsame :
        k.receive c datetime s (.response 304 .notJson (some (policyEtag r.version))) = s := by
      cases k <;> rfl
    rwa [hsame]
  · simp only [he, if_false]
    exact Component.receive_record

theorem Component.receive_lost : k.receive c datetime s .transportError = s := by
  cases k <;> rfl

/-- What a component loads from a document is its active record. -/
theorem Component.start_of {d : PolicyStoreDocument}
    (h : k.start c datetime (.of datetime d) = some s) : k.Holds s d.active := by
  cases k with
  | gateway =>
    have hs := (Gateway.PolicyRuntime.start_of (c := c) datetime d).symm.trans h
    cases hs
    exact ⟨⟨d.active_version.symm, rfl⟩, fun etag he => by cases he⟩
  | worker =>
    have hs := (Automation.PolicyRuntime.loadInitialSnapshot_of datetime d _).symm.trans h
    cases hs
    rfl

end Poll

/-! ## The run -/

/-- What is known of a poll of a component that holds `r`. -/
def PollOk (datetime : DatetimeFormat) (w : World) {k : Component} (s : k.Runtime)
    (r : PolicyVersion) : Poll → Prop
  | .idle => True
  | .asked ifNoneMatch => ifNoneMatch = k.ifNoneMatch s
  | .answered reply active =>
    reply = activePolicy datetime active (k.ifNoneMatch s) ∧ Older r active ∧ active ∈ w.actives

/-- A component that has started holds a record that was active. -/
def ClientOk (datetime : DatetimeFormat) (w : World) {k : Component} (client : Client k) : Prop :=
  ∀ s ∈ client.runtime, ∃ r ∈ w.actives, k.Holds s r ∧ PollOk datetime w s r client.poll

structure Inv (datetime : DatetimeFormat) (cache : Bool) (w : World) : Prop where
  manager : w.manager.Guarded (Service.does (faults cache)) Grew Synced
  active_mem : w.manager.world.active ∈ w.actives
  active_youngest : ∀ r ∈ w.actives, Older r w.manager.world.active
  active_durable : Older w.manager.world.active w.manager.world.durable
  held : ∀ d ∈ w.held, d.active ∈ w.actives
  clients : ∀ k, ClientOk datetime w (w.clients k)

section Run

variable {c : Coercions} {datetime : DatetimeFormat} {cache : Bool} {w w' : World} {l : Label}

theorem Inv.new (repository : InMemoryPolicyRepository) : Inv datetime cache (.new repository) where
  manager := rfl
  active_mem := List.mem_singleton_self _
  active_youngest r hr := by
    rw [List.mem_singleton.mp hr]
    exact .refl _
  active_durable := .refl _
  held d hd := by
    rw [List.mem_singleton.mp hd]
    exact List.mem_singleton_self _
  clients k s hs := by cases hs

/-- What is known of a component is known as the manager goes on. -/
theorem ClientOk.mono {k : Component} {client : Client k} (h : ClientOk datetime w client)
    (hle : ∀ r ∈ w.actives, r ∈ w'.actives) : ClientOk datetime w' client := by
  intro s hs
  obtain ⟨r, hr, hholds, hpoll⟩ := h s hs
  refine ⟨r, hle r hr, hholds, ?_⟩
  cases hp : client.poll with
  | idle => trivial
  | asked ifNoneMatch =>
    rw [hp] at hpoll
    exact hpoll
  | answered reply active =>
    rw [hp] at hpoll
    exact ⟨hpoll.1, hpoll.2.1, hle _ hpoll.2.2⟩

/-- A step of one component leaves the rest as it is. -/
theorem Inv.withClient (h : Inv datetime cache w) {k : Component} {client : Client k}
    (hc : ClientOk datetime w client) : Inv datetime cache (w.withClient client) where
  manager := h.manager
  active_mem := h.active_mem
  active_youngest := h.active_youngest
  active_durable := h.active_durable
  held := h.held
  clients k' := by
    by_cases hk : k' = k
    · subst hk
      rw [World.withClient_self]
      exact hc
    · rw [World.withClient_of_ne w client hk]
      exact h.clients k'

theorem Inv.withManager {l : Session.Label PolicyCall PolicyCmd} {m : Manager}
    (h : Inv datetime cache w)
    (hst : Session.Step (Service.does (faults cache)) PolicyCall.program w.manager l m) :
    Inv datetime cache (w.withManager m) := by
  obtain ⟨hgrew, hm⟩ := h.manager.step hst Grew.refl safe_program
  refine ⟨hm, List.mem_cons_self, fun r hr => ?_, hgrew.active_durable h.active_durable,
    fun d hd => ?_, fun k => (h.clients k).mono fun r hr => List.mem_cons_of_mem _ hr⟩
  · rcases List.mem_cons.mp hr with rfl | hr
    · exact .refl _
    · exact (h.active_youngest r hr).trans (hgrew.active h.active_durable)
  · by_cases hidle : m.call.isNone = true
    · rw [World.withManager] at hd
      simp only [hidle, if_true] at hd
      rcases List.mem_cons.mp hd with rfl | hd
      · -- between calls, what the repository holds is what is active
        have hsynced : m.world.active = m.world.durable := by
          rw [Session.Guarded, Option.isNone_iff_eq_none.mp hidle] at hm
          exact hm
        show m.world.durable ∈ _
        rw [← hsynced]
        exact List.mem_cons_self
      · exact List.mem_cons_of_mem _ (h.held d hd)
    · rw [World.withManager] at hd
      simp only [hidle] at hd
      exact List.mem_cons_of_mem _ (h.held d hd)

/-- **One step.** -/
theorem Inv.step (h : Inv datetime cache w) (hst : Step c datetime cache w l w') :
    Inv datetime cache w' := by
  cases hst with
  | manager does => exact h.withManager does
  | @start k d s fresh earlier loads =>
    refine h.withClient fun s' hs => ?_
    cases hs
    exact ⟨d.active, h.held d earlier, Component.start_of loads, trivial⟩
  | @ask k s idle sends =>
    refine h.withClient fun s' hs => ?_
    cases hs
    obtain ⟨r, hr, hholds, -⟩ := h.clients k s (by rw [idle]; rfl)
    exact ⟨r, hr, hholds, rfl⟩
  | @answer k s ifNoneMatch asked =>
    refine h.withClient fun s' hs => ?_
    cases hs
    obtain ⟨r, hr, hholds, hpoll⟩ := h.clients k s (by rw [asked]; rfl)
    rw [asked] at hpoll
    obtain rfl : ifNoneMatch = k.ifNoneMatch s := hpoll
    exact ⟨r, hr, hholds, rfl, h.active_youngest r hr, h.active_mem⟩
  | @receive k s reply active answered =>
    refine h.withClient fun s' hs => ?_
    cases hs
    obtain ⟨r, hr, hholds, hpoll⟩ := h.clients k s (by rw [answered]; rfl)
    rw [answered] at hpoll
    obtain ⟨rfl, hyounger, hactive⟩ := hpoll
    exact ⟨active, hactive, Component.receive_answer hholds hyounger, trivial⟩
  | @lose k s poll out waiting =>
    refine h.withClient fun s' hs => ?_
    cases hs
    rw [Component.receive_lost]
    obtain ⟨r, hr, hholds, -⟩ := h.clients k s (by rw [out]; rfl)
    exact ⟨r, hr, hholds, trivial⟩

/-- What a step does to the component that receives an answer. -/
theorem Inv.receives (h : Inv datetime cache w) {k : Component}
    (hst : Step c datetime cache w (.receive k) w') :
    ∃ s s' reply active, w.clients k = ⟨some s, .answered reply active⟩ ∧
      w'.clients k = ⟨some s', .idle⟩ ∧ k.Holds s' active ∧ k.version s ≤ active.version := by
  cases hst with
  | @receive k s reply active answered =>
    obtain ⟨r, hr, hholds, hpoll⟩ := h.clients k s (by rw [answered]; rfl)
    rw [answered] at hpoll
    obtain ⟨rfl, hyounger, -⟩ := hpoll
    refine ⟨s, _, _, active, answered, w.withClient_self _, ?_, ?_⟩
    · exact Component.receive_answer hholds hyounger
    · rw [hholds.version]
      exact hyounger.version_le

/-- The other component keeps what it has loaded. -/
theorem withClient_version_le {j : Component} {client : Client j}
    (hj : ∀ s s', (w.clients j).runtime = some s → client.runtime = some s' →
      j.version s ≤ j.version s')
    {k : Component} {s s' : k.Runtime} (hs : (w.clients k).runtime = some s)
    (hs' : ((w.withClient client).clients k).runtime = some s') : k.version s ≤ k.version s' := by
  by_cases hk : k = j
  · subst hk
    rw [World.withClient_self] at hs'
    exact hj s s' hs hs'
  · rw [World.withClient_of_ne w client hk] at hs'
    cases hs.symm.trans hs'
    exact le_rfl

/-- No step takes a component back. -/
theorem Inv.version_le (h : Inv datetime cache w) (hst : Step c datetime cache w l w')
    {k : Component} {s s' : k.Runtime} (hs : (w.clients k).runtime = some s)
    (hs' : (w'.clients k).runtime = some s') : k.version s ≤ k.version s' := by
  cases hst with
  | manager does =>
    cases hs.symm.trans hs'
    exact le_rfl
  | start fresh earlier loads =>
    refine withClient_version_le (fun t t' ht _ => ?_) hs hs'
    cases fresh.symm.trans ht
  | ask idle sends =>
    refine withClient_version_le (fun t t' ht ht' => ?_) hs hs'
    rw [idle] at ht
    cases ht.symm.trans ht'
    exact le_rfl
  | answer asked =>
    refine withClient_version_le (fun t t' ht ht' => ?_) hs hs'
    rw [asked] at ht
    cases ht.symm.trans ht'
    exact le_rfl
  | @receive j t reply active answered =>
    obtain ⟨t₁, t₂, reply', active', hc, hc', hholds, hle⟩ := h.receives (.receive answered)
    refine withClient_version_le (fun u u' hu hu' => ?_) hs hs'
    rw [World.withClient_self] at hc'
    have hu₁ : t₁ = u := Option.some.inj ((congrArg Client.runtime hc).symm.trans hu)
    have hu₂ : t₂ = u' := Option.some.inj ((congrArg Client.runtime hc').symm.trans hu')
    rw [← hu₁, ← hu₂, hholds.version]
    exact hle
  | lose out waiting =>
    refine withClient_version_le (fun t t' ht ht' => ?_) hs hs'
    rw [out] at ht
    rw [Component.receive_lost] at ht'
    cases ht.symm.trans ht'
    exact le_rfl

/-- **The components follow the manager.** In every run of publishes, rollbacks and polls, with any
request or reply lost: what a component has loaded is a version and policy the manager has had
active; no step takes it back; and once it has received an answer, it has loaded what the manager
had active when it answered. -/
theorem policies_converge {repository : InMemoryPolicyRepository}
    {ts : List (World × Label × World)}
    (hrun : Run (Step c datetime cache) (.new repository) ts w) :
    (∀ k, ∀ s ∈ (w.clients k).runtime, ∃ r ∈ w.actives, k.Loaded s r) ∧
    (∀ t ∈ ts, ∀ k, ∀ s ∈ (t.1.clients k).runtime, ∀ s' ∈ (t.2.2.clients k).runtime,
      k.version s ≤ k.version s') ∧
    ∀ t ∈ ts, ∀ k reply active, t.2.1 = .receive k → (t.1.clients k).poll = .answered reply active →
      ∃ s' ∈ (t.2.2.clients k).runtime, k.Loaded s' active := by
  have hall := hrun.each (I := Inv datetime cache)
    (P := fun w l w' => Inv datetime cache w ∧ Step c datetime cache w l w') (.new repository)
    fun _ _ _ h hst => ⟨⟨h, hst⟩, h.step hst⟩
  refine ⟨fun k s hs => ?_, fun t ht k s hs s' hs' => ?_, fun t ht k reply active hl hp => ?_⟩
  · obtain ⟨r, hr, hholds, -⟩ := hall.2.clients k s hs
    exact ⟨r, hr, hholds.loaded⟩
  · obtain ⟨hinv, hst⟩ := hall.1 t ht
    exact hinv.version_le hst hs hs'
  · obtain ⟨hinv, hst⟩ := hall.1 t ht
    rw [hl] at hst
    obtain ⟨s, s', reply', active', hc, hc', hholds, -⟩ := hinv.receives hst
    rw [hc] at hp
    cases hp
    exact ⟨s', by rw [hc']; rfl, hholds.loaded⟩

end Run

/-! ## A publish and a poll -/

/-- The manager's own runs are runs of the system. -/
theorem run_manager {c : Coercions} (datetime : DatetimeFormat) {cache : Bool} {w : World}
    {m : Manager} {ts : List (Manager × Session.Label PolicyCall PolicyCmd × Manager)}
    (h : Run (Session.Step (Service.does (faults cache)) PolicyCall.program) w.manager ts m) :
    ∃ us w', Run (Step c datetime cache) w us w' ∧ w'.manager = m ∧ w'.clients = w.clients := by
  induction h with
  | refl => exact ⟨[], w, .refl, rfl, rfl⟩
  | tail _ hst ih =>
    obtain ⟨us, w', hrun, rfl, hclients⟩ := ih
    exact ⟨_, _, .tail hrun (.manager hst), rfl, hclients⟩

/-- The epoch as pydantic writes it; any other time in unary. -/
def writeTime (t : Time) : PyStr :=
  if t = 0 then str "1970-01-01T00:00:00Z"
  else List.replicate t.num.natAbs (codePoint 'n') ++ List.replicate t.den (codePoint 'd') ++
    if t.num < 0 then [codePoint '-'] else []

def readTime : Validator Time
  | .str s =>
    if s = str "1970-01-01T00:00:00Z" then some 0
    else
      let magnitude : Int := s.count (codePoint 'n')
      some (mkRat (if codePoint '-' ∈ s then -magnitude else magnitude) (s.count (codePoint 'd')))
  | _ => none

theorem readTime_writeTime (t : Time) : readTime (.str (writeTime t)) = some t := by
  by_cases ht : t = 0
  · subst ht
    rfl
  · have hnum : t.num.natAbs ≠ 0 := by simpa using ht
    obtain ⟨a, ha⟩ := Nat.exists_eq_succ_of_ne_zero hnum
    have hne : writeTime t ≠ str "1970-01-01T00:00:00Z" := by
      rw [writeTime, if_neg ht, ha]
      simp [List.replicate_succ, str, codePoint]
    have hdigits : (writeTime t).count (codePoint 'n') = t.num.natAbs ∧
        (writeTime t).count (codePoint 'd') = t.den ∧
        (codePoint '-' ∈ writeTime t ↔ t.num < 0) := by
      have hnd : codePoint 'n' ≠ codePoint 'd' := by decide
      have hn : codePoint 'n' ≠ codePoint '-' := by decide
      have hd : codePoint 'd' ≠ codePoint '-' := by decide
      rw [writeTime, if_neg ht]
      by_cases hneg : t.num < 0
      · simp [hneg, List.count_replicate, hnd, hnd.symm, hn.symm, hd.symm]
      · simp [hneg, List.count_replicate, hnd, hnd.symm, hn.symm, hd.symm]
    obtain ⟨hn, hd, hneg⟩ := hdigits
    simp only [readTime, if_neg hne, hn, hd, hneg]
    have hsign : (if t.num < 0 then -(t.num.natAbs : Int) else t.num.natAbs) = t.num := by
      split <;> omega
    rw [hsign, Rat.mkRat_self]

def unaryFormat : DatetimeFormat where
  write := writeTime
  read := readTime
  readZoned := readTime
  read_write := readTime_writeTime
  readZoned_write := readTime_writeTime

/-- The Gateway starts at version 1, version 2 is published, and the Gateway's poll brings it. -/
theorem policies_converge_publish : ∃ ts w,
    Run (Step .textless unaryFormat false) (.new (.new seedDocument)) ts w ∧
    ∃ s ∈ (w.clients .gateway).runtime, s.snapshot.version = 2 := by
  obtain ⟨d', hb, hext⟩ := buildDocument_ok ⟨1, exampleDraft, "v2", "policy-admin", none⟩
    seedDocument 0 (by decide) (by decide) (by simp)
  let client : Client .gateway := ⟨some ⟨⟨seedDocument.activeVersion,
    seedDocument.active.policy.gateway, seedDocument.integrity.active_pos⟩, none⟩, .idle⟩
  have hstart : Step .textless unaryFormat false (.new (.new seedDocument)) (.start .gateway)
      ((World.new (.new seedDocument)).withClient client) :=
    .start (k := .gateway) rfl (List.mem_singleton_self _)
      (Gateway.PolicyRuntime.start_of unaryFormat seedDocument)
  have hpublish : Prog.Runs (Service.does (faults false))
      (PolicyCall.publish 1 exampleDraft "v2" "policy-admin").program
      (Service.new (.new seedDocument)) _ _ := runs_commit _ _ _ rfl hb
  obtain ⟨ts, hts⟩ := Session.run_call _ hpublish
  obtain ⟨us, w, hrun, hmanager, hclients⟩ := run_manager (c := .textless) unaryFormat
    (w := (World.new (.new seedDocument)).withClient client) hts
  have hidle : w.clients .gateway = client := by
    rw [hclients]
    exact World.withClient_self ..
  have hpoll := Run.tail (Run.tail (Run.tail hrun (.ask hidle rfl))
    (.answer (World.withClient_self ..))) (.receive (World.withClient_self ..))
  have hall := Run.head hstart hpoll
  refine ⟨_, _, hall, ?_⟩
  obtain ⟨s, hs, hloaded⟩ := (policies_converge hall).2.2 _
    (List.mem_cons_of_mem _ (List.mem_append_right _ List.mem_cons_self)) .gateway _ _ rfl
    (congrArg Client.poll (World.withClient_self ..))
  refine ⟨s, hs, hloaded.1.trans ?_⟩
  show w.manager.world.active.version = 2
  rw [hmanager]
  exact hext.version

end PolyGate.PolicyConvergence
