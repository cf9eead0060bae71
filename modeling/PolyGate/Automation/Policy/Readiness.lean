import PolyGate.Lib.Session
import PolyGate.Automation.Policy.NextDocument

/-!
# `Automation/Policy/Readiness.lean` — a manager that is ready serves the durable policy

One manager, the only writer of its repository, publishing and rolling back one call after
another while loads, writes and reloads fail.

`Fresh` holds between calls as long as no call finds its write refused while the manager is
behind the repository: `_commit` then sets `ready` because the reload was answered, and leaves
the active record as it is, which after an earlier unreconciled commit is an old one.
-/

namespace PolyGate.Automation.Readiness

open Lib

/-- A service, and whether the command before was a write that failed without taking effect. -/
structure Watched where
  service : Service
  lost : Bool

/-- A failed write, by what became of the revision. -/
def lostWrite (s : Service) (c : PolicyCmd) (v : Except PolicyExc c.Reply) (s' : Service) : Bool :=
  match c, v with
  | .compareAndSwap _ _, .error _ =>
    s'.repository.revisionCounter = s.repository.revisionCounter
  | _, _ => false

def Watched.does (faults : Faults) (w : Watched) (c : PolicyCmd) (v : Except PolicyExc c.Reply)
    (w' : Watched) : Prop :=
  w.service.does faults c v w'.service ∧ w'.lost = lostWrite w.service c v w'.service

abbrev Manager := Session Watched PolicyCmd PolicyCmd.Reply PolicyExc PublishResult

abbrev Manager.Step (faults : Faults) :
    Manager → Session.Label PolicyCall PolicyCmd → Manager → Prop :=
  Session.Step (Watched.does faults) PolicyCall.program

def Manager.start (repository : InMemoryPolicyRepository) : Manager where
  world := ⟨.new repository, false⟩
  call := none

/-- Readiness implies freshness. -/
def Fresh (w : Watched) : Prop := w.service.ready = true → w.service.active = w.service.durable

/-- The condition: the reload after a write that did not take effect is not answered while the
manager is behind the repository. -/
def Reconcilable (w : Watched) (c : PolicyCmd) (answered : Bool) : Prop :=
  c = .load → answered = true → w.lost = true → w.service.active = w.service.durable

section Call

variable {faults : Faults} {args : CommitArgs} {d' : PolicyStoreDocument} {w : Watched}

abbrev SafeCall (faults : Faults) : Pm PublishResult → Watched → Prop :=
  Prog.Safe (Exec.within (Watched.does faults) Reconcilable) Eq (fun _ _ _ _ => True)
    fun _ w => Fresh w

theorem safe_raise {e : PolicyExc} (h : Fresh w) : SafeCall faults (.raise e) w := by
  rintro _ rfl
  exact h

/-- Adopting the durable record makes the manager fresh, whatever follows. -/
theorem safe_adopt {record : PolicyVersion} {k : Except PolicyExc Unit → Pm PublishResult}
    (hr : record = w.service.durable)
    (hk : ∀ v w', Fresh w' → SafeCall faults (k v) w') :
    SafeCall faults (.cmd (.setActive record) (Prog.onReply fun _ =>
      .cmd (.cacheSetActive record.response) k)) w := by
  refine Prog.safe_cmd_alone.mpr fun v w₁ h₁ => ⟨trivial, ?_⟩
  obtain ⟨-, h₁, -⟩ := h₁
  cases v with
  | error e => exact h₁.elim
  | ok x =>
  have hfresh : w₁.service.active = w₁.service.durable := by
    rw [h₁]
    exact hr
  refine Prog.safe_cmd_alone.mpr fun v w₂ h₂ => ⟨trivial, hk v w₂ fun _ => ?_⟩
  obtain ⟨-, h₂, -⟩ := h₂
  cases v with
  | ok x =>
    rw [h₂]
    exact hfresh
  | error e =>
    obtain ⟨-, -, h₂ | h₂⟩ := h₂ <;> rw [h₂] <;> exact hfresh

theorem safe_finishCommit {persisted : RepositorySnapshot}
    (hp : persisted.document = w.service.repository.document) :
    SafeCall faults (finishCommit args persisted) w := by
  rw [finishCommit_eq]
  refine Prog.safe_cmd_alone.mpr fun v w₁ h₁ => ⟨trivial, ?_⟩
  obtain ⟨-, h₁, -⟩ := h₁
  cases v with
  | error e => exact h₁.elim
  | ok x =>
  refine safe_adopt ?_ fun v w' hw => ?_
  · rw [hp, h₁]
    rfl
  · rintro _ rfl
    exact hw

/-- The reload. A failed one leaves the manager unready; an answered one shows the write, and
the manager adopts it, or shows that there was none, and then the manager was not behind. -/
theorem safe_reload {snapshot : RepositorySnapshot} {e : String}
    (hs : w.service.repository.document = d' ∨ w.lost = true) :
    SafeCall faults (written args snapshot d' (.error (.repositoryUnavailable e))) w := by
  refine Prog.safe_cmd_alone.mpr fun v w₁ h₁ => ⟨trivial, ?_⟩
  obtain ⟨hok, h₁, -⟩ := h₁
  cases v with
  | error e =>
    obtain ⟨-, ⟨msg, rfl⟩, -⟩ := h₁
    refine Prog.safe_cmd_alone.mpr fun v w₂ h₂ => ⟨trivial, ?_⟩
    obtain ⟨-, h₂, -⟩ := h₂
    cases v with
    | error e => exact h₂.elim
    | ok x =>
      refine safe_raise fun hready => ?_
      rw [h₂] at hready
      cases hready
  | ok persisted =>
    obtain ⟨rfl, hw₁⟩ := h₁
    refine Prog.safe_cmd_alone.mpr fun v w₂ h₂ => ⟨trivial, ?_⟩
    obtain ⟨-, h₂, -⟩ := h₂
    cases v with
    | error e => exact h₂.elim
    | ok x =>
    have hrepo : w₂.service.repository = w.service.repository := by rw [h₂, hw₁]
    simp only [Prog.onReply_ok]
    split_ifs with hnew hsame
    · exact safe_finishCommit (by rw [hrepo]; rfl)
    · -- the write was not committed, so it was lost, and the manager was fresh
      refine safe_raise fun _ => ?_
      have hlost := hs.resolve_left hnew
      have heq := hok rfl rfl hlost
      rw [Service.durable, hrepo, h₂, hw₁]
      exact heq
    · refine safe_adopt (by rw [Service.durable, hrepo]; rfl) fun v w' hw => ?_
      rintro _ rfl
      exact hw

theorem safe_commit (hfresh : Fresh w) : SafeCall faults (commit args) w := by
  rw [commit_eq]
  refine Prog.safe_cmd_alone.mpr fun v w₁ h₁ => ⟨trivial, ?_⟩
  obtain ⟨-, h₁, -⟩ := h₁
  cases v with
  | error e =>
    obtain ⟨-, -, hw₁⟩ := h₁
    refine safe_raise fun hready => ?_
    rw [hw₁] at hready ⊢
    exact hfresh hready
  | ok snapshot =>
  obtain ⟨rfl, hw₁⟩ := h₁
  have hfresh₁ : Fresh w₁ := fun hready => by
    rw [hw₁] at hready ⊢
    exact hfresh hready
  simp only [Prog.onReply_ok]
  split_ifs
  · exact safe_raise hfresh₁
  · refine Prog.safe_cmd_alone.mpr fun v w₂ h₂ => ⟨trivial, ?_⟩
    obtain ⟨-, h₂, -⟩ := h₂
    cases v with
    | error e => exact h₂.elim
    | ok now =>
    have hw₂ : w₂.service = w.service := h₂.trans hw₁
    have hfresh₂ : Fresh w₂ := fun hready => by
      rw [hw₂] at hready ⊢
      exact hfresh hready
    dsimp only [Prog.onReply_ok]
    cases buildDocument args w.service.repository.load.document now with
    | error e => exact safe_raise hfresh₂
    | ok d' =>
    refine Prog.safe_cmd_alone.mpr fun v w₃ h₃ => ⟨trivial, ?_⟩
    obtain ⟨-, h₃, hlost⟩ := h₃
    cases v with
    | ok persisted =>
      -- nobody else writes, so the revision is still the one that was loaded
      simp only [hw₂, InMemoryPolicyRepository.load_revision, Service.does,
        InMemoryPolicyRepository.compareAndSwap_current, Except.ok.injEq] at h₃
      obtain ⟨rfl, hw₃⟩ := h₃
      exact safe_finishCommit (by rw [hw₃]; rfl)
    | error e =>
      simp only [hw₂, InMemoryPolicyRepository.load_revision, Service.does,
        InMemoryPolicyRepository.compareAndSwap_current] at h₃
      -- a fault, after the write or before it
      rcases h₃ with ⟨h, -⟩ | ⟨-, ⟨msg, rfl⟩, hw₃ | hw₃⟩
      · cases h
      · refine safe_reload (Or.inr ?_)
        rw [hlost]
        simp [lostWrite, hw₂, hw₃]
      · exact safe_reload (Or.inl (by rw [hw₃]; rfl))

theorem safe_program (call : PolicyCall) (hfresh : Fresh w) : SafeCall faults call.program w := by
  cases call with
  | publish baseVersion draft changeNote actor => exact safe_commit hfresh
  | rollback targetVersion baseVersion changeNote actor =>
    simp only [PolicyCall.program, rollback, Prog.perform_bind]
    refine Prog.safe_cmd_alone.mpr fun v w₁ h₁ => ⟨trivial, ?_⟩
    obtain ⟨-, h₁, -⟩ := h₁
    have hservice : w₁.service = w.service := by
      cases v with
      | ok snapshot => exact h₁.2
      | error e => exact h₁.2.2
    have hfresh₁ : Fresh w₁ := fun hready => by
      rw [hservice] at hready ⊢
      exact hfresh hready
    cases v with
    | error e => exact safe_raise hfresh₁
    | ok snapshot =>
      dsimp only [Prog.onReply_ok]
      split
      · exact safe_raise hfresh₁
      · exact safe_commit hfresh₁

end Call

/-- **Readiness implies freshness**, in every state between calls of a run in which no answered
reload shows that a write was lost while the manager is behind the repository. -/
theorem ready_is_fresh {faults : Faults} {repository : InMemoryPolicyRepository} {w : Manager}
    {ts : List (Manager × Session.Label PolicyCall PolicyCmd × Manager)}
    (hrun : Run (Manager.Step faults) (.start repository) ts w)
    (hok : ∀ t ∈ ts, ∀ c a, t.2.1 = .command c a → Reconcilable t.1.world c a)
    (hidle : w.call = none) : w.world.service.ready = true →
      w.world.service.active = w.world.service.durable :=
  Session.invariant (I := Fresh) hrun hok (fun _ => rfl) (fun call _ h => safe_program call h) hidle

/-! ## Two calls with faults -/

section Faults

variable {w : Watched} {args : CommitArgs} {now : Time} {d' : PolicyStoreDocument}

/-- The write takes effect, its reply is lost, and the reload shows it. -/
theorem runs_lost_reply (hbase : args.baseVersion = w.service.repository.document.activeVersion)
    (hb : buildDocument args w.service.repository.document now = .ok d') (hlost : w.lost = false) :
    Prog.Runs (Exec.within (Watched.does ⟨true, false⟩) Reconcilable) (commit args) w
      (.ok (args.result d'.active [])) ⟨w.service.committed d', false⟩ := by
  rw [commit_eq]
  refine ⟨.ok w.service.repository.load, ⟨w.service, false⟩,
    ⟨by simp [Reconcilable, hlost], ⟨rfl, rfl⟩, rfl⟩, ?_⟩
  simp only [Prog.onReply_ok, InMemoryPolicyRepository.load_document, hbase, ne_eq,
    not_true_eq_false, if_false]
  refine ⟨.ok now, ⟨w.service, false⟩, ⟨by simp [Reconcilable], rfl, rfl⟩, ?_⟩
  simp only [Prog.onReply_ok, hb]
  refine ⟨.error (.repositoryUnavailable "Kubernetes policy ConfigMap request failed"),
    ⟨{ w.service with repository := w.service.repository.written d' }, false⟩,
    ⟨by simp [Reconcilable], Or.inr ⟨rfl, ⟨_, rfl⟩, Or.inr (by simp)⟩, by simp [lostWrite]⟩, ?_⟩
  refine ⟨.ok (w.service.repository.written d').load,
    ⟨{ w.service with repository := w.service.repository.written d' }, false⟩,
    ⟨by simp [Reconcilable], ⟨rfl, rfl⟩, rfl⟩, ?_⟩
  refine ⟨.ok (), ⟨{ w.service with repository := _, ready := true }, false⟩,
    ⟨by simp [Reconcilable], rfl, rfl⟩, ?_⟩
  simp only [Prog.onReply_ok, InMemoryPolicyRepository.load_document,
    InMemoryPolicyRepository.written_document, if_true, finishCommit_eq]
  exact ⟨.ok (), ⟨_, false⟩, ⟨by simp [Reconcilable], rfl, rfl⟩,
    .ok (), ⟨_, false⟩, ⟨by simp [Reconcilable], rfl, rfl⟩,
    .ok (), ⟨_, false⟩, ⟨by simp [Reconcilable], rfl, rfl⟩, rfl, rfl⟩

/-- The write takes effect, and neither it nor the reload is answered. -/
theorem runs_unreconciled (hbase : args.baseVersion = w.service.repository.document.activeVersion)
    (hb : buildDocument args w.service.repository.document now = .ok d') :
    Prog.Runs (Watched.does ⟨true, false⟩) (commit args) w
      (.error (.repositoryUnavailable "policy repository write outcome could not be reconciled"))
      ⟨{ w.service with
        repository := w.service.repository.written d'
        ready := false }, false⟩ := by
  rw [commit_eq]
  refine ⟨.ok w.service.repository.load, ⟨w.service, false⟩, ⟨⟨rfl, rfl⟩, rfl⟩, ?_⟩
  simp only [Prog.onReply_ok, InMemoryPolicyRepository.load_document, hbase, ne_eq,
    not_true_eq_false, if_false]
  refine ⟨.ok now, ⟨w.service, false⟩, ⟨rfl, rfl⟩, ?_⟩
  simp only [Prog.onReply_ok, hb]
  refine ⟨.error (.repositoryUnavailable "Kubernetes policy ConfigMap request failed"),
    ⟨{ w.service with repository := w.service.repository.written d' }, false⟩,
    ⟨Or.inr ⟨rfl, ⟨_, rfl⟩, Or.inr (by simp)⟩, by simp [lostWrite]⟩, ?_⟩
  exact ⟨.error (.repositoryUnavailable "Kubernetes policy ConfigMap request failed"),
    ⟨_, false⟩, ⟨⟨rfl, ⟨_, rfl⟩, rfl⟩, rfl⟩, .ok (), ⟨_, false⟩, ⟨rfl, rfl⟩, rfl, rfl⟩

/-- The write does not take effect, and the reload shows that. -/
theorem runs_lost_write (hbase : args.baseVersion = w.service.repository.document.activeVersion)
    (hb : buildDocument args w.service.repository.document now = .ok d') :
    Prog.Runs (Watched.does ⟨true, false⟩) (commit args) w
      (.error (.repositoryUnavailable "policy repository write was not committed"))
      ⟨{ w.service with ready := true }, false⟩ := by
  have hne : w.service.repository.document ≠ d' := fun he => by
    obtain ⟨d'', hb', hext, -⟩ | ⟨e, hb'⟩ :=
      buildDocument_spec args w.service.repository.document now
    · rw [hb] at hb'
      cases hb'
      have := hext.activeVersion
      rw [← he] at this
      omega
    · rw [hb] at hb'
      cases hb'
  rw [commit_eq]
  refine ⟨.ok w.service.repository.load, ⟨w.service, false⟩, ⟨⟨rfl, rfl⟩, rfl⟩, ?_⟩
  simp only [Prog.onReply_ok, InMemoryPolicyRepository.load_document, hbase, ne_eq,
    not_true_eq_false, if_false]
  refine ⟨.ok now, ⟨w.service, false⟩, ⟨rfl, rfl⟩, ?_⟩
  simp only [Prog.onReply_ok, hb]
  refine ⟨.error (.repositoryUnavailable "Kubernetes policy ConfigMap request failed"),
    ⟨w.service, true⟩, ⟨Or.inr ⟨rfl, ⟨_, rfl⟩, Or.inl rfl⟩, by simp [lostWrite]⟩, ?_⟩
  refine ⟨.ok w.service.repository.load, ⟨w.service, false⟩, ⟨⟨rfl, rfl⟩, rfl⟩, ?_⟩
  refine ⟨.ok (), ⟨{ w.service with ready := true }, false⟩, ⟨rfl, rfl⟩, ?_⟩
  simp only [Prog.onReply_ok, InMemoryPolicyRepository.load_document, if_neg hne, and_self, if_true]
  exact ⟨rfl, rfl⟩

end Faults

/-- The seed manager publishes and the reply is lost: it ends ready and fresh. -/
theorem ready_is_fresh_lost_reply : ∃ ts w, Run (Manager.Step ⟨true, false⟩)
      (.start (.new seedDocument)) ts w ∧ w.world.service.ready = true ∧
    w.world.service.active = w.world.service.durable := by
  obtain ⟨d', hb, -⟩ := buildDocument_ok ⟨1, exampleDraft, "v2", "policy-admin", none⟩
    seedDocument 0 (by decide) (by decide) (by simp)
  have hpublish : Prog.Runs (Exec.within (Watched.does ⟨true, false⟩) Reconcilable)
      (PolicyCall.publish 1 exampleDraft "v2" "policy-admin").program
      (Manager.start (.new seedDocument)).world _ _ := runs_lost_reply rfl hb rfl
  obtain ⟨ts, hts⟩ := Session.run_call _ hpublish
  obtain ⟨hrun, hok⟩ := Session.run_within hts
  exact ⟨ts, _, hrun, rfl, ready_is_fresh hrun hok rfl rfl⟩

/-- **A manager that is ready and not fresh.** The first publish takes effect and cannot be
reconciled, which leaves the manager unready with version 1; the second is refused before it
takes effect, and its answered reload makes the manager ready again, still with version 1. -/
theorem ready_but_stale : ∃ ts w, Run (Manager.Step ⟨true, false⟩)
      (.start (.new seedDocument)) ts w ∧ w.call = none ∧ w.world.service.ready = true ∧
    w.world.service.active.version = 1 ∧ w.world.service.durable.version = 2 := by
  obtain ⟨d₂, hb₂, hext₂⟩ := buildDocument_ok ⟨1, exampleDraft, "v2", "policy-admin", none⟩
    seedDocument 0 (by decide) (by decide) (by simp)
  obtain ⟨d₃, hb₃, -⟩ := buildDocument_ok ⟨d₂.activeVersion, exampleDraft, "v3", "policy-admin",
    none⟩ d₂ 0 (show 1 ≤ "policy-admin".length by decide)
    (show 1 ≤ "v3".length ∧ "v3".length ≤ 500 by decide) (by simp)
  have hfirst : Prog.Runs (Watched.does ⟨true, false⟩)
      (PolicyCall.publish 1 exampleDraft "v2" "policy-admin").program
      (Manager.start (.new seedDocument)).world _ _ := runs_unreconciled rfl hb₂
  have hsecond : Prog.Runs (Watched.does ⟨true, false⟩)
      (PolicyCall.publish d₂.activeVersion exampleDraft "v3" "policy-admin").program
      ⟨{ Service.new (.new seedDocument) with
        repository := (InMemoryPolicyRepository.new seedDocument).written d₂, ready := false },
          false⟩
      _ _ := runs_lost_write rfl hb₃
  obtain ⟨ts, hts⟩ := Session.run_call _ hfirst
  obtain ⟨us, hus⟩ := Session.run_call _ hsecond
  refine ⟨_, _, hts.append hus, rfl, rfl, ?_, ?_⟩
  · exact congrArg PolicyVersion.version seedDocument_active
  · exact hext₂.version

end PolyGate.Automation.Readiness
