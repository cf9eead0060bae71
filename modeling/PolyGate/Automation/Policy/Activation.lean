import PolyGate.Lib.RelyGuarantee
import PolyGate.Automation.Policy.NextDocument

/-!
# `Automation/Policy/Activation.lean` — concurrent calls and the served policy

Any number of calls on one manager, each command one step, with a repository and a cache that
never fail. The writes are ordered by the revision; the assignments and cache writes that follow
them are not.

`Inv` says that the served record is the durable one unless a call is still going to assign it.
A call that assigns its own record after a later one has been assigned breaks that (`InOrder`
excludes it), and nothing puts it right: `overtaken_commit_is_served`.
-/

namespace PolyGate.Automation.Activation

open Lib

abbrev Calls (ι : Type) := Pool ι Service PolicyCmd PolicyCmd.Reply PolicyExc PublishResult

/-- What never fails. -/
abbrev does : Exec PolicyCmd PolicyCmd.Reply PolicyExc Service := Service.does ⟨false, false⟩

variable {ι : Type}

abbrev Calls.Step [DecidableEq ι] : Calls ι → ι × PolicyCmd → Calls ι → Prop :=
  Pool.Step fun _ => does

def Calls.start (repository : InMemoryPolicyRepository) (calls : ι → PolicyCall) : Calls ι where
  shared := .new repository
  threads i := (calls i).program

/-- The condition: what is assigned, or written to the cache, is not older than what is there. -/
def InOrder (s : Service) : PolicyCmd → Prop
  | .setActive record => s.active.version ≤ record.version
  | .cacheSetActive response => ∀ old ∈ s.cached, old.version ≤ response.version
  | _ => True

/-! ## What a call does to the service -/

/-- The repository is left alone or written, and then revision and version go up. -/
def Grows (s s' : Service) : Prop :=
  s'.repository = s.repository ∨
    s.repository.revisionCounter < s'.repository.revisionCounter ∧
      s.repository.document.activeVersion < s'.repository.document.activeVersion

theorem Grows.refl (s : Service) : Grows s s := Or.inl rfl

theorem Grows.trans {a b c : Service} (h : Grows a b) (h' : Grows b c) : Grows a c := by
  unfold Grows at *
  rcases h' with h' | ⟨hr', hv'⟩
  · rw [h']
    exact h
  · rcases h with h | ⟨hr, hv⟩
    · rw [h] at hr' hv'
      exact Or.inr ⟨hr', hv'⟩
    · exact Or.inr ⟨hr.trans hr', hv.trans hv'⟩

theorem Grows.of_repository_eq {s s' : Service} (h : s'.repository = s.repository) : Grows s s' :=
  Or.inl h

/-- The revision tells whether the repository is the same. -/
theorem Grows.repository_eq {s s' : Service} (h : Grows s s')
    (hrev : s.repository.revisionCounter = s'.repository.revisionCounter) :
    s'.repository = s.repository := by
  rcases h with h | ⟨hr, -⟩
  · exact h
  · omega

theorem Grows.revision_le {s s' : Service} (h : Grows s s') :
    s.repository.revisionCounter ≤ s'.repository.revisionCounter := by
  rcases h with h | ⟨hr, -⟩
  · rw [h]
  · exact hr.le

/-- A record that is, or was, the durable one. -/
def Past (s : Service) (r : PolicyVersion) : Prop :=
  r.version ≤ s.repository.document.activeVersion ∧
    (r.version = s.repository.document.activeVersion → r = s.durable)

theorem Past.durable (s : Service) : Past s s.durable :=
  ⟨(PolicyStoreDocument.active_version _).le, fun _ => rfl⟩

theorem Past.mono {s s' : Service} {r : PolicyVersion} (h : Past s r) (hg : Grows s s') :
    Past s' r := by
  rcases hg with hg | ⟨-, hv⟩
  · unfold Past Service.durable at *
    rwa [hg]
  · have := h.1
    exact ⟨by omega, fun he => by omega⟩

/-- Not older than the durable record, so it is the durable record. -/
theorem Past.eq_durable {s : Service} {r : PolicyVersion} (h : Past s r)
    (hle : s.durable.version ≤ r.version) : r = s.durable := by
  have hv : s.durable.version = s.repository.document.activeVersion :=
    PolicyStoreDocument.active_version _
  have := h.1
  exact h.2 (by omega)

/-- A command that cannot fail on this service. -/
def IsLocal : PolicyCmd → Prop
  | .setReady _ | .setActive _ | .cacheSetActive _ => True
  | _ => False

/-- The call is going to assign `r`. -/
abbrev WillAssign (r : PolicyVersion) (p : Pm PublishResult) : Prop :=
  p.Soon IsLocal (· = .setActive r)

/-- The call is going to write `r` to the cache. -/
abbrev WillCache (r : PolicyVersion) (p : Pm PublishResult) : Prop :=
  p.Soon IsLocal (· = .cacheSetActive r.response)

/-- What one command of a call does, with `q` left to do; the manager began on `initial`. -/
structure Guar (initial : InMemoryPolicyRepository) (s : Service) (p : Pm PublishResult)
    (s' : Service) (q : Pm PublishResult) : Prop where
  grows : Grows s s'
  /-- a write is followed up -/
  assigns : s'.repository ≠ s.repository → WillAssign s'.durable q
  caches : s'.repository ≠ s.repository → WillCache s'.durable q
  /-- nothing is served that was not durable -/
  assigned : ∀ r k, p = .cmd (.setActive r) k → Past s r
  cached : ∀ a k, p = .cmd (.cacheSetActive a) k →
    initial.revisionCounter < s.repository.revisionCounter ∧ ∃ r, Past s r ∧ a = r.response

/-- A command that leaves the repository alone and serves nothing. -/
theorem Guar.quiet {initial : InMemoryPolicyRepository} {s s' : Service} {c : PolicyCmd}
    {k : Except PolicyExc c.Reply → Pm PublishResult}
    {q : Pm PublishResult} (hs : s'.repository = s.repository)
    (hc : ∀ r, c ≠ .setActive r) (hc' : ∀ a, c ≠ .cacheSetActive a) :
    Guar initial s (.cmd c k) s' q where
  grows := .of_repository_eq hs
  assigns h := absurd hs h
  caches h := absurd hs h
  assigned r k' h := by
    cases h
    exact absurd rfl (hc r)
  cached a k' h := by
    cases h
    exact absurd rfl (hc' a)

section Call

variable {initial : InMemoryPolicyRepository} {args : CommitArgs} {s : Service}

abbrev SafeCall (initial : InMemoryPolicyRepository) : Pm PublishResult → Service → Prop :=
  Prog.Safe does Grows (Guar initial) fun _ _ => True

theorem safe_finishCommit {persisted : RepositorySnapshot}
    (hp : Past s persisted.document.active)
    (hlater : initial.revisionCounter < s.repository.revisionCounter) :
    SafeCall initial (finishCommit args persisted) s := by
  rw [finishCommit_eq]
  intro s₁ h₁ v s₁' hv
  cases v with
  | error e => exact hv.elim
  | ok x =>
  have hg₁ : s₁'.repository = s₁.repository := by rw [hv]
  refine ⟨.quiet hg₁ (by simp) (by simp), fun s₂ h₂ v s₂' hv => ?_⟩
  have hp₂ : Past s₂ persisted.document.active :=
    hp.mono (h₁.trans (.trans (.of_repository_eq hg₁) h₂))
  cases v with
  | error e => exact hv.elim
  | ok x =>
  have hg₂ : s₂'.repository = s₂.repository := by rw [hv]
  refine ⟨⟨.of_repository_eq hg₂, fun h => absurd hg₂ h, fun h => absurd hg₂ h, fun r k h => ?_,
    by simp⟩, fun s₃ h₃ v s₃' hv => ?_⟩
  · cases h
    exact hp₂
  have hp₃ : Past s₃ persisted.document.active := hp₂.mono (.trans (.of_repository_eq hg₂) h₃)
  have hlater₃ : initial.revisionCounter < s₃.repository.revisionCounter :=
    hlater.trans_le (h₁.trans (.trans (.of_repository_eq hg₁)
      (h₂.trans (.trans (.of_repository_eq hg₂) h₃)))).revision_le
  cases v with
  | error e => exact absurd hv.1 (by simp)
  | ok x =>
  have hg₃ : s₃'.repository = s₃.repository := by rw [hv]
  refine ⟨⟨.of_repository_eq hg₃, fun h => absurd hg₃ h, fun h => absurd hg₃ h, by simp,
    fun a k h => ?_⟩, fun _ _ => trivial⟩
  cases h
  exact ⟨hlater₃, _, hp₃, rfl⟩

/-- After a write comes its assignment and its cache write. -/
theorem soon_finishCommit (args : CommitArgs) (persisted : RepositorySnapshot) :
    WillAssign persisted.document.active (finishCommit args persisted) ∧
      WillCache persisted.document.active (finishCommit args persisted) := by
  rw [finishCommit_eq]
  constructor
  · exact Or.inr ⟨trivial, fun _ => Or.inl rfl⟩
  · exact Or.inr ⟨trivial, fun _ => Or.inr ⟨trivial, fun _ => Or.inl rfl⟩⟩

theorem safe_commit (hinit : initial.revisionCounter ≤ s.repository.revisionCounter) :
    SafeCall initial (commit args) s := by
  rw [commit_eq]
  intro s₁ h₁ v s₁' hv
  cases v with
  | error e => exact absurd hv.1 (by simp)
  | ok snapshot =>
  obtain ⟨rfl, rfl⟩ := hv
  refine ⟨.quiet rfl (by simp) (by simp), ?_⟩
  simp only [Prog.onReply_ok]
  split_ifs
  · exact fun _ _ => trivial
  intro s₂ h₂ v s₂' hv
  cases v with
  | error e => exact hv.elim
  | ok now =>
  obtain rfl : s₂' = s₂ := hv
  refine ⟨.quiet rfl (by simp) (by simp), ?_⟩
  dsimp only [Prog.onReply_ok]
  rcases buildDocument_spec args s₁'.repository.load.document now with ⟨d', hb, hext, -⟩ | ⟨e, hb⟩
  · simp only [hb]
    intro s₃ h₃ v s₃' hv
    cases v with
    | error e =>
      rcases hv with ⟨herr, rfl⟩ | ⟨hf, -⟩
      · refine ⟨.quiet rfl (by simp) (by simp), ?_⟩
        -- the only error of the repository is the conflict
        unfold InMemoryPolicyRepository.compareAndSwap at herr
        split_ifs at herr
        cases herr
        exact fun _ _ => trivial
      · cases hf
    | ok persisted =>
      obtain ⟨hok, hs₃⟩ := hv
      unfold InMemoryPolicyRepository.compareAndSwap at hok hs₃
      split_ifs at hok hs₃ with hrev
      cases hok
      have hsame : s₃.repository = s₁'.repository :=
        (h₂.trans h₃).repository_eq (not_not.mp hrev)
      have hrepo : s₃'.repository = s₃.repository.written d' := by rw [hs₃]
      have hdurable : s₃'.durable = (s₃.repository.written d').load.document.active := by
        rw [Service.durable, hrepo]
        rfl
      have hgrows : Grows s₃ s₃' := by
        refine Or.inr ⟨?_, ?_⟩
        · rw [hrepo, InMemoryPolicyRepository.written_revisionCounter]
          exact Nat.lt_succ_self _
        · have := hext.activeVersion
          rw [hrepo, InMemoryPolicyRepository.written_document, hsame]
          rw [InMemoryPolicyRepository.load_document] at this
          omega
      have hsoon := soon_finishCommit args (s₃.repository.written d').load
      rw [← hdurable] at hsoon
      refine ⟨⟨hgrows, fun _ => hsoon.1, fun _ => hsoon.2, by simp, by simp⟩, ?_⟩
      refine safe_finishCommit (hdurable ▸ Past.durable s₃') ?_
      have hle := hinit.trans (h₁.trans (h₂.trans h₃)).revision_le
      rw [hrepo, InMemoryPolicyRepository.written_revisionCounter]
      omega
  · simp only [hb]
    exact fun _ _ => trivial

theorem safe_program (call : PolicyCall)
    (hinit : initial.revisionCounter ≤ s.repository.revisionCounter) :
    SafeCall initial call.program s := by
  cases call with
  | publish baseVersion draft changeNote actor => exact safe_commit hinit
  | rollback targetVersion baseVersion changeNote actor =>
    simp only [PolicyCall.program, rollback, Prog.perform_bind]
    intro s₁ h₁ v s₁' hv
    cases v with
    | error e => exact absurd hv.1 (by simp)
    | ok snapshot =>
      obtain ⟨rfl, rfl⟩ := hv
      refine ⟨.quiet rfl (by simp) (by simp), ?_⟩
      dsimp only [Prog.onReply_ok]
      split
      · exact fun _ _ => trivial
      · exact safe_commit (hinit.trans h₁.revision_le)

end Call

/-! ## What is served -/

/-- What is served is the durable record, or somebody is about to put that right. -/
structure Inv (initial : InMemoryPolicyRepository) (w : Calls ι) : Prop where
  safe : ∀ i, SafeCall initial (w.threads i) w.shared
  active : w.shared.active = w.shared.durable ∨ ∃ i, WillAssign w.shared.durable (w.threads i)
  cached : w.shared.cached = some w.shared.durable.response ∨
    (∃ i, WillCache w.shared.durable (w.threads i)) ∨
    w.shared.cached = none ∧ w.shared.repository = initial

theorem Inv.start (initial : InMemoryPolicyRepository) (calls : ι → PolicyCall) :
    Inv initial (Calls.start initial calls) where
  safe i := safe_program (calls i) le_rfl
  active := Or.inl rfl
  cached := Or.inr (Or.inr ⟨rfl, rfl⟩)

/-- The service after a command. -/
def after (s : Service) : PolicyCmd → Service
  | .load | .now => s
  | .compareAndSwap d rev => { s with repository := (s.repository.compareAndSwap d rev).2 }
  | .setReady ready => { s with ready := ready }
  | .setActive record => { s with active := record }
  | .cacheSetActive response => { s with cached := some response }

/-- Without faults a local command is answered, and what a command does is determined. -/
theorem does_cases {s s' : Service} {c : PolicyCmd} {v : Except PolicyExc c.Reply}
    (h : does s c v s') : s' = after s c ∧ (IsLocal c → ∃ x, v = .ok x) := by
  cases v with
  | ok x =>
    refine ⟨?_, fun _ => ⟨x, rfl⟩⟩
    cases c with
    | load | compareAndSwap => exact h.2
    | now | setReady | setActive | cacheSetActive => exact h
  | error e =>
    cases c with
    | load | cacheSetActive => exact absurd h.1 (by simp)
    | now | setReady | setActive => exact h.elim
    | compareAndSwap d rev =>
      rcases h with ⟨herr, rfl⟩ | ⟨hf, -⟩
      · refine ⟨?_, fun hc => hc.elim⟩
        unfold InMemoryPolicyRepository.compareAndSwap at herr
        split_ifs at herr with hrev
        simp [after, InMemoryPolicyRepository.compareAndSwap, hrev]
      · cases hf

section Steps

variable [DecidableEq ι] {initial : InMemoryPolicyRepository} {w w' : Calls ι}
  {l : ι × PolicyCmd}

/-- What somebody will do, somebody will still do, unless this was it. -/
theorem exists_soon {P : PolicyCmd → Prop} (hst : Calls.Step w l w') (hl : ¬ P l.2)
    (h : ∃ i, (w.threads i).Soon IsLocal P) : ∃ i, (w'.threads i).Soon IsLocal P := by
  obtain ⟨j, hj⟩ := h
  refine ⟨j, ?_⟩
  cases hst with
  | @run i c k v s next does =>
  dsimp only
  rcases eq_or_ne j i with rfl | hne
  · rw [next] at hj
    obtain ⟨hloc, hk⟩ := hj.resolve_left hl
    obtain ⟨x, rfl⟩ := (does_cases does).2 hloc
    rw [Function.update_self]
    exact hk x
  · rwa [Function.update_of_ne hne]

theorem Inv.step (h : Inv initial w) (hst : Calls.Step w l w') (hok : InOrder w.shared l.2) :
    Inv initial w' := by
  obtain ⟨hguar, hsafe⟩ := Pool.safe_step h.safe hst (fun _ => Grows.refl)
    (fun _ _ _ _ => Grows.trans) fun _ _ _ _ _ _ _ hg => hg.grows
  by_cases hrepo : w'.shared.repository = w.shared.repository
  · have hdurable : w'.shared.durable = w.shared.durable := by rw [Service.durable, hrepo]; rfl
    have hsoon {P : PolicyCmd → Prop} (hl : ¬ P l.2) := exists_soon (P := P) hst hl
    obtain ⟨i, c⟩ := l
    cases hst with
    | @run _ _ k v s next does =>
    dsimp only at hguar hsoon hdurable
    rw [next] at hguar
    obtain ⟨rfl, -⟩ := does_cases does
    refine ⟨hsafe, ?_, ?_⟩
    · dsimp only
      rw [hdurable]
      by_cases hc : c = .setActive w.shared.durable
      · exact Or.inl (by rw [hc]; rfl)
      rcases h.active with ha | hwill
      · cases c with
        | setActive r =>
          -- an older record would replace the durable one
          have hle : w.shared.active.version ≤ r.version := hok
          rw [ha] at hle
          exact absurd (congrArg _ ((hguar.assigned r k rfl).eq_durable hle)) hc
        | load | compareAndSwap | now | setReady | cacheSetActive => exact Or.inl ha
      · exact Or.inr (hsoon hc hwill)
    · dsimp only
      rw [hdurable]
      by_cases hc : c = .cacheSetActive w.shared.durable.response
      · exact Or.inl (by rw [hc]; rfl)
      rcases h.cached with ha | hwill | ⟨hnone, hsame⟩
      · cases c with
        | cacheSetActive a =>
          obtain ⟨-, r, hpast, rfl⟩ := hguar.cached _ k rfl
          have hle : w.shared.durable.version ≤ r.version := hok _ ha
          exact absurd (by rw [hpast.eq_durable hle]) hc
        | load | compareAndSwap | now | setReady | setActive => exact Or.inl ha
      · exact Or.inr (Or.inl (hsoon hc hwill))
      · cases c with
        | cacheSetActive a =>
          have hlater := (hguar.cached _ k rfl).1
          rw [hsame] at hlater
          exact absurd hlater (lt_irrefl _)
        | load | compareAndSwap | now | setReady | setActive =>
          exact Or.inr (Or.inr ⟨hnone, hrepo.trans hsame⟩)
  · exact ⟨hsafe, Or.inr ⟨l.1, hguar.assigns hrepo⟩, Or.inr (Or.inl ⟨l.1, hguar.caches hrepo⟩)⟩

theorem Inv.run {calls : ι → PolicyCall} {ts : List (Calls ι × (ι × PolicyCmd) × Calls ι)}
    (hrun : Run Calls.Step (Calls.start initial calls) ts w)
    (hok : ∀ t ∈ ts, InOrder t.1.shared t.2.1.2) : Inv initial w := by
  have hres : Run (fun a l b => InOrder a.shared l.2 ∧ Calls.Step a l b)
      (Calls.start initial calls) ts w := hrun.restrict hok
  exact hres.invariant (I := Inv initial) (.start initial calls) fun _ _ _ h hst =>
    h.step hst.2 hst.1

end Steps

/-- The call has returned or raised, or has not begun. -/
def Calls.AtRest (calls : ι → PolicyCall) (w : Calls ι) (i : ι) : Prop :=
  (∃ o, w.threads i = .ofOutcome o) ∨ w.threads i = (calls i).program

/-- A call that has not begun, or has ended, is not about to serve anything. -/
theorem not_soon_of_atRest {calls : ι → PolicyCall} {w : Calls ι} {i : ι} {P : PolicyCmd → Prop}
    (h : w.AtRest calls i) (hload : ¬ P .load) : ¬ (w.threads i).Soon IsLocal P := by
  intro hsoon
  rcases h with ⟨o, h⟩ | h <;> rw [h] at hsoon
  · cases o <;> exact hsoon.elim
  · have hfirst : ∃ k, (calls i).program = .cmd .load k := by
      cases calls i with
      | publish baseVersion draft changeNote actor => exact ⟨_, commit_eq _⟩
      | rollback targetVersion baseVersion changeNote actor =>
        exact ⟨_, Prog.perform_bind _ _⟩
    obtain ⟨k, hk⟩ := hfirst
    rw [hk] at hsoon
    rcases hsoon with hP | ⟨hloc, -⟩
    · exact hload hP
    · exact hloc

/-- **The served policy catches up with the durable one**, in every interleaving in which no
call assigns or caches a record older than the one already there: once all calls have returned
or raised, the active record is the durable one, and so is the last one written to the cache. -/
theorem served_catches_up [DecidableEq ι] {initial : InMemoryPolicyRepository}
    {calls : ι → PolicyCall} {ts : List (Calls ι × (ι × PolicyCmd) × Calls ι)} {w : Calls ι}
    (hrun : Run Calls.Step (Calls.start initial calls) ts w)
    (hok : ∀ t ∈ ts, InOrder t.1.shared t.2.1.2) (hover : ∀ i, w.AtRest calls i) :
    w.shared.active = w.shared.durable ∧
      (w.shared.cached = some w.shared.durable.response ∨
        w.shared.cached = none ∧ w.shared.repository = initial) := by
  have h := Inv.run hrun hok
  refine ⟨h.active.resolve_right ?_, h.cached.imp_right fun hc => hc.resolve_left ?_⟩
  · rintro ⟨i, hi⟩
    exact not_soon_of_atRest (hover i) (by simp) hi
  · rintro ⟨i, hi⟩
    exact not_soon_of_atRest (hover i) (by simp) hi

/-! ## Two publishes -/

/-- A call that is alone assigns and caches in order. -/
theorem steps_inOrder (s : Service) (args : CommitArgs) {now : Time} {d' : PolicyStoreDocument}
    (hbase : args.baseVersion = s.repository.document.activeVersion)
    (hb : buildDocument args s.repository.document now = .ok d')
    (hactive : s.active.version ≤ d'.active.version)
    (hcached : ∀ old ∈ s.cached, old.version ≤ d'.active.version) :
    Prog.Steps (Exec.within does fun s c _ => InOrder s c) (commit args) s
      (.ret (args.result d'.active [])) (s.committed d') := by
  rw [commit_eq]
  refine .cmd (v := .ok s.repository.load) ⟨trivial, rfl, rfl⟩ ?_
  simp only [Prog.onReply_ok, InMemoryPolicyRepository.load_document, hbase, ne_eq,
    not_true_eq_false, if_false]
  refine .cmd (v := .ok now) ⟨trivial, rfl⟩ ?_
  simp only [Prog.onReply_ok, hb]
  refine .cmd ⟨trivial, s.does_write _ d'⟩ ?_
  simp only [written, finishCommit_eq]
  exact .cmd (v := .ok ()) ⟨trivial, rfl⟩ (.cmd (v := .ok ()) ⟨hactive, rfl⟩
    (.cmd (v := .ok ()) ⟨hcached, rfl⟩ .refl))

/-- A publish alone on the manager is served. -/
theorem served_catches_up_publish : ∃ ts w,
    Run Calls.Step (Calls.start (.new seedDocument)
      fun _ : Unit => .publish 1 exampleDraft "v2" "policy-admin") ts w ∧
    w.shared.durable.version = 2 ∧ w.shared.active = w.shared.durable := by
  obtain ⟨d₂, hb₂, hext₂⟩ := buildDocument_ok ⟨1, exampleDraft, "v2", "policy-admin", none⟩
    seedDocument 0 (by decide) (by decide) (by simp)
  have hactive : (Service.new (.new seedDocument)).active.version ≤ d₂.active.version := by
    have hseed : (Service.new (.new seedDocument)).active = seedRecord := seedDocument_active
    rw [hext₂.version, hseed]
    decide
  have hthread : ∃ ts, Run (Pool.Step fun _ => Exec.within does fun s c _ => InOrder s c)
      (Calls.start (.new seedDocument) fun _ : Unit => .publish 1 exampleDraft "v2" "policy-admin")
      ts _ := Pool.run_thread () rfl (steps_inOrder _ _ rfl hb₂ hactive (by simp [Service.new]))
  obtain ⟨ts, hts⟩ := hthread
  obtain ⟨hrun, hok⟩ := Pool.run_within hts
  refine ⟨ts, _, hrun, hext₂.version, (served_catches_up hrun hok fun i => Or.inl ?_).1⟩
  exact ⟨.ok (CommitArgs.result _ d₂.active []), by cases i; rfl⟩

/-- **An overtaken commit is served.** The first publish commits version 2 and is overtaken by
the second, which loads that, commits version 3 and serves it; then the first goes on and serves
version 2. -/
theorem overtaken_commit_is_served : ∃ ts w,
    Run Calls.Step (Calls.start (.new seedDocument) fun second : Bool =>
      .publish (if second then 2 else 1) exampleDraft "note" "policy-admin") ts w ∧
    (∀ i, ∃ result, w.threads i = .ret result) ∧ w.shared.durable.version = 3 ∧
    w.shared.active.version = 2 ∧ w.shared.cached.map (·.version) = some 2 := by
  obtain ⟨d₂, hb₂, hext₂⟩ := buildDocument_ok ⟨1, exampleDraft, "note", "policy-admin", none⟩
    seedDocument 0 (by decide) (by decide) (by simp)
  obtain ⟨d₃, hb₃, hext₃⟩ := buildDocument_ok ⟨2, exampleDraft, "note", "policy-admin",
    none⟩ d₂ 0 (by decide) (by decide) (by simp)
  have hv₂ : d₂.activeVersion = 2 := hext₂.activeVersion
  have hv₃ : d₃.active.version = 3 := by rw [hext₃.version, hv₂]
  have hother := (steps_write ⟨false, false⟩ { Service.new (.new seedDocument) with
      repository := (InMemoryPolicyRepository.new seedDocument).written d₂ }
    ⟨2, exampleDraft, "note", "policy-admin", none⟩ (by simp [hv₂]) hb₃).trans
    (steps_finish ⟨false, false⟩ _ _ _)
  have hfirst : ∃ ts, Run Calls.Step (Calls.start (.new seedDocument) fun second : Bool =>
      .publish (if second then 2 else 1) exampleDraft "note" "policy-admin") ts _ :=
    Pool.run_thread false rfl (steps_write ⟨false, false⟩ (Service.new (.new seedDocument))
      ⟨1, exampleDraft, "note", "policy-admin", none⟩ rfl hb₂)
  obtain ⟨ts₁, h₁⟩ := hfirst
  obtain ⟨ts₂, h₂⟩ := Pool.run_on h₁ true hother
  obtain ⟨ts₃, h₃⟩ := Pool.run_on h₂ false (steps_finish ⟨false, false⟩ _ _ _)
  refine ⟨ts₃, _, h₃, fun i => ?_, hv₃, ?_, ?_⟩
  · cases i <;> simp
  · exact hext₂.version
  · exact congrArg some hext₂.version

end PolyGate.Automation.Activation
