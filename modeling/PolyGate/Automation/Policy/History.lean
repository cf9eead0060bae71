import PolyGate.Lib.RelyGuarantee
import PolyGate.Automation.Policy.NextDocument

/-!
# `Automation/Policy/History.lean` — the stored versions are a log

Publishing and rolling back, one call after another on one manager, while the repository and the
cache may fail at every command. Whatever a call ends with, the durable document is the one it began
with or extends it by the call's record (`CommitEnded`); `history_is_log` follows whole runs.
-/

namespace PolyGate.Automation

open Lib

/-- The document is about to be handed to the repository, and extends `d`. -/
def Hands (args : CommitArgs) (d : PolicyStoreDocument) (p : Pm PublishResult) : Prop :=
  ∀ d' rev k, p = .cmd (.compareAndSwap d' rev) k → args.Extends d d'

/-- What a call that found `d` leaves behind. -/
def CommitEnded (args : CommitArgs) (d : PolicyStoreDocument) (o : Except PolicyExc PublishResult)
    (s : Service) : Prop :=
  match o with
  | .ok result =>
    args.Extends d s.repository.document ∧ ∃ warnings, result = args.result s.durable warnings
  | .error e =>
    (∀ e', e ≠ .validationError "PolicyStoreDocument" e') ∧
      (s.repository.document = d ∨ args.Extends d s.repository.document)

section Call

variable {faults : Faults} {args : CommitArgs} {d d' : PolicyStoreDocument} {s : Service}

/-- Alone on the service. -/
abbrev SafeAlone (faults : Faults) (args : CommitArgs) (d : PolicyStoreDocument) :
    Pm PublishResult → Service → Prop :=
  Prog.Safe (Service.does faults) Eq (fun _ p _ _ => Hands args d p) (CommitEnded args d)

theorem safe_raise {e : PolicyExc} (he : ∀ e', e ≠ .validationError "PolicyStoreDocument" e')
    (hs : s.repository.document = d ∨ args.Extends d s.repository.document) :
    SafeAlone faults args d (.raise e) s := by
  rintro _ rfl
  exact ⟨he, hs⟩

theorem safe_finishCommit {persisted : RepositorySnapshot}
    (hp : persisted.document = s.repository.document)
    (hext : args.Extends d s.repository.document) :
    SafeAlone faults args d (finishCommit args persisted) s := by
  rw [finishCommit_eq, hp]
  refine Prog.safe_cmd_alone.mpr fun v s₁ h₁ => ⟨by simp [Hands], ?_⟩
  cases v with
  | error e => exact h₁.elim
  | ok x =>
  subst h₁
  refine Prog.safe_cmd_alone.mpr fun v s₂ h₂ => ⟨by simp [Hands], ?_⟩
  cases v with
  | error e => exact h₂.elim
  | ok x =>
  subst h₂
  refine Prog.safe_cmd_alone.mpr fun v s₃ h₃ => ⟨by simp [Hands], ?_⟩
  have hdoc : s₃.repository.document = s.repository.document := by
    cases v with
    | ok x =>
      subst h₃
      rfl
    | error e =>
      obtain ⟨-, -, rfl | rfl⟩ := h₃ <;> rfl
  rintro _ rfl
  exact ⟨hdoc ▸ hext, _, by rw [Service.durable, hdoc]⟩

/-- The reload after a failed write, whether it had taken effect or not. -/
theorem safe_reload {snapshot : RepositorySnapshot} (hext : args.Extends d d')
    (hs : s.repository.document = d ∨ s.repository.document = d') {e : String} :
    SafeAlone faults args d (written args snapshot d' (.error (.repositoryUnavailable e))) s := by
  have hdoc : s.repository.document = d ∨ args.Extends d s.repository.document :=
    hs.imp_right fun h => by rwa [h]
  refine Prog.safe_cmd_alone.mpr fun v s₁ h₁ => ⟨by simp [Hands], ?_⟩
  cases v with
  | error e =>
    obtain ⟨-, ⟨msg, rfl⟩, rfl⟩ := h₁
    refine Prog.safe_cmd_alone.mpr fun v s₂ h₂ => ⟨by simp [Hands], ?_⟩
    cases v with
    | error e => exact h₂.elim
    | ok x =>
      subst h₂
      exact safe_raise (by simp) hdoc
  | ok persisted =>
    obtain ⟨rfl, rfl⟩ := h₁
    refine Prog.safe_cmd_alone.mpr fun v s₂ h₂ => ⟨by simp [Hands], ?_⟩
    cases v with
    | error e => exact h₂.elim
    | ok x =>
    subst h₂
    simp only [Prog.onReply_ok]
    -- reloaded: the new document, the old one, or a third one
    split_ifs with hnew
    · subst hnew
      exact safe_finishCommit rfl hext
    · exact safe_raise (by simp) hdoc
    · refine Prog.safe_cmd_alone.mpr fun v s₃ h₃ => ⟨by simp [Hands], ?_⟩
      cases v with
      | error e => exact h₃.elim
      | ok x =>
      subst h₃
      refine Prog.safe_cmd_alone.mpr fun v s₄ h₄ => ⟨by simp [Hands], ?_⟩
      refine safe_raise (by simp) ?_
      cases v with
      | ok x =>
        subst h₄
        exact hdoc
      | error e => obtain ⟨-, -, rfl | rfl⟩ := h₄ <;> exact hdoc

theorem safe_commit (hd : s.repository.document = d) : SafeAlone faults args d (commit args) s := by
  subst hd
  rw [commit_eq]
  refine Prog.safe_cmd_alone.mpr fun v s₁ h₁ => ⟨by simp [Hands], ?_⟩
  cases v with
  | error e =>
    obtain ⟨-, ⟨msg, rfl⟩, rfl⟩ := h₁
    exact safe_raise (by simp) (Or.inl rfl)
  | ok snapshot =>
  obtain ⟨rfl, rfl⟩ := h₁
  simp only [Prog.onReply_ok]
  split_ifs
  · exact safe_raise (by simp) (Or.inl rfl)
  · refine Prog.safe_cmd_alone.mpr fun v s₂ h₂ => ⟨by simp [Hands], ?_⟩
    cases v with
    | error e => exact h₂.elim
    | ok now =>
    subst h₂
    dsimp only [Prog.onReply_ok]
    rcases buildDocument_spec args s₂.repository.document now with ⟨d', hb, hext, -⟩ | ⟨e, hb⟩
    · simp only [InMemoryPolicyRepository.load_document, hb]
      refine Prog.safe_cmd_alone.mpr fun v s₃ h₃ => ⟨fun d'' rev k heq => ?_, ?_⟩
      · cases heq
        exact hext
      · cases v with
        | ok persisted =>
          simp only [InMemoryPolicyRepository.load_revision, Service.does,
            InMemoryPolicyRepository.compareAndSwap_current, Except.ok.injEq] at h₃
          obtain ⟨rfl, rfl⟩ := h₃
          exact safe_finishCommit rfl hext
        | error e =>
          simp only [InMemoryPolicyRepository.load_revision, Service.does,
            InMemoryPolicyRepository.compareAndSwap_current] at h₃
          rcases h₃ with ⟨h, -⟩ | ⟨-, ⟨msg, rfl⟩, rfl | rfl⟩
          · cases h
          · exact safe_reload hext (Or.inl rfl)
          · exact safe_reload hext (Or.inr rfl)
    · simp only [InMemoryPolicyRepository.load_document, hb]
      exact safe_raise (by simp) (Or.inl rfl)

/-- A call leaves the document alone or commits what it is asked to. -/
theorem safe_program (faults : Faults) (call : PolicyCall) (s : Service) :
    (∃ args ∈ call.argsOn s.repository.document,
      SafeAlone faults args s.repository.document call.program s) ∨
    call.argsOn s.repository.document = none ∧
      Prog.Safe (Service.does faults) Eq
        (fun _ p _ _ => ∀ d rev k, p ≠ .cmd (.compareAndSwap d rev) k)
        (fun o s' => s'.repository.document = s.repository.document ∧
          ((∃ msg, o = .error (.repositoryUnavailable msg)) ∨
            o = .error (.policyVersionNotFound "policy version not found"))) call.program s := by
  cases call with
  | publish baseVersion draft changeNote actor => exact Or.inl ⟨_, rfl, safe_commit rfl⟩
  | rollback targetVersion baseVersion changeNote actor =>
    simp only [PolicyCall.program, rollback, Prog.perform_bind, PolicyCall.argsOn]
    cases hfind : s.repository.document.versions.find?
        (fun v => (v.version : Int) = targetVersion) with
    | some target =>
      refine Or.inl ⟨_, rfl, Prog.safe_cmd_alone.mpr fun v s₁ h₁ => ⟨by simp [Hands], ?_⟩⟩
      cases v with
      | error e =>
        obtain ⟨-, ⟨msg, rfl⟩, rfl⟩ := h₁
        exact safe_raise (by simp) (Or.inl rfl)
      | ok snapshot =>
        obtain ⟨rfl, rfl⟩ := h₁
        simp only [Prog.onReply_ok, InMemoryPolicyRepository.load_document, hfind]
        exact safe_commit rfl
    | none =>
      refine Or.inr ⟨rfl, Prog.safe_cmd_alone.mpr fun v s₁ h₁ => ⟨by simp, ?_⟩⟩
      cases v with
      | error e =>
        obtain ⟨-, ⟨msg, rfl⟩, rfl⟩ := h₁
        rintro _ rfl
        exact ⟨rfl, Or.inl ⟨msg, rfl⟩⟩
      | ok snapshot =>
        obtain ⟨rfl, rfl⟩ := h₁
        simp only [Prog.onReply_ok, InMemoryPolicyRepository.load_document, hfind]
        rintro _ rfl
        exact ⟨rfl, Or.inr rfl⟩

end Call

/-! ## Runs of calls -/

/-- One call from beginning to end, with nothing else on the service. -/
def Service.Called (faults : Faults) (s : Service)
    (l : PolicyCall × Except PolicyExc PublishResult) (s' : Service) : Prop :=
  Prog.Runs (Service.does faults) l.1.program s l.2 s'

/-- What a call does to the document, success or not. -/
theorem Service.Called.ended {faults : Faults} {s s' : Service} {call : PolicyCall}
    {o : Except PolicyExc PublishResult} (h : s.Called faults (call, o) s') :
    (∃ args ∈ call.argsOn s.repository.document, CommitEnded args s.repository.document o s') ∨
      s'.repository.document = s.repository.document ∧
        ((∃ msg, o = .error (.repositoryUnavailable msg)) ∨
          o = .error (.policyVersionNotFound "policy version not found")) := by
  rcases safe_program faults call s with ⟨args, hargs, hsafe⟩ | ⟨-, hsafe⟩
  · exact Or.inl ⟨args, hargs, hsafe.runs (fun _ => rfl) h⟩
  · exact Or.inr (hsafe.runs (fun _ => rfl) h)

theorem Service.Called.activeVersion_le {faults : Faults} {s s' : Service}
    {l : PolicyCall × Except PolicyExc PublishResult} (h : s.Called faults l s') :
    s.repository.document.activeVersion ≤ s'.repository.document.activeVersion := by
  obtain ⟨call, o⟩ := l
  rcases h.ended with ⟨args, -, hend⟩ | ⟨hdoc, -⟩
  · cases o with
    | ok result => exact (hend.1.activeVersion).symm ▸ Nat.le_succ _
    | error e =>
      rcases hend.2 with hdoc | hext
      · rw [hdoc]
      · exact hext.activeVersion.symm ▸ Nat.le_succ _
  · rw [hdoc]

/-- A number of a record that was durable at some point of the run. -/
def Issued {L : Type} (ts : List (Service × L × Service)) (s : Service) (n : Nat) : Prop :=
  (∃ t ∈ ts, ∃ v ∈ t.1.repository.document.versions, v.version = n) ∨
    ∃ v ∈ s.repository.document.versions, v.version = n

/-- The highest number ever issued is the active one. -/
theorem issued_le {faults : Faults} {s₀ s : Service}
    {ts : List (Service × (PolicyCall × Except PolicyExc PublishResult) × Service)}
    (hrun : Run (Service.Called faults) s₀ ts s) {n : Nat} (h : Issued ts s n) :
    n ≤ s.repository.document.activeVersion := by
  have hall : ∀ t ∈ ts,
      t.1.repository.document.activeVersion ≤ s.repository.document.activeVersion := by
    refine hrun.history (I := fun ts s => ∀ t ∈ ts,
      t.1.repository.document.activeVersion ≤ s.repository.document.activeVersion) (by simp) ?_
    intro ts w₁ l w₂ hts hcall t ht
    rcases List.mem_append.mp ht with ht | ht
    · exact (hts t ht).trans hcall.activeVersion_le
    · rw [List.mem_singleton.mp ht]
      exact hcall.activeVersion_le
  rcases h with ⟨t, ht, v, hv, rfl⟩ | ⟨v, hv, rfl⟩
  · exact (PolicyStoreDocument.le_active _ hv).trans (hall t ht)
  · exact PolicyStoreDocument.le_active _ hv

/-- The repository answers every write. -/
theorem Service.exists_does_compareAndSwap (faults : Faults) (s : Service)
    (d : PolicyStoreDocument) (rev : Revision) :
    ∃ v s', s.does faults (.compareAndSwap d rev) v s' := by
  cases hcas : (s.repository.compareAndSwap d rev).1 with
  | ok snapshot => exact ⟨.ok snapshot, _, hcas, rfl⟩
  | error e => exact ⟨.error e, s, Or.inl ⟨hcas, rfl⟩⟩

/-- **The stored versions are a log.** After any run of calls, and for the next call: what it
hands to the repository keeps the integrity rules and extends the durable document, so no
construction of a document fails; and if it succeeds, its record has a number above every number
ever issued, the twenty highest of the old records and the new one remain, and a rollback has
brought back its target's policy. -/
theorem history_is_log {faults : Faults} {s₀ s : Service}
    {ts : List (Service × (PolicyCall × Except PolicyExc PublishResult) × Service)}
    (hrun : Run (Service.Called faults) s₀ ts s) (call : PolicyCall) :
    (∀ d rev k s₁, Prog.Steps (Service.does faults) call.program s
        (.cmd (.compareAndSwap d rev) k) s₁ →
      DocumentRules d.activeVersion d.versions ∧
        ∃ args ∈ call.argsOn s.repository.document, args.Extends s.repository.document d) ∧
    ∀ o s', s.Called faults (call, o) s' →
      (∀ e, o ≠ .error (.validationError "PolicyStoreDocument" e)) ∧
      ∀ result, o = .ok result →
        result.version = s'.durable.version ∧
        (∀ n, Issued ts s n → n < result.version) ∧
        s'.repository.document.versions = retained (grown s.repository.document s'.durable) ∧
        ∀ target baseVersion changeNote actor,
          call = .rollback target baseVersion changeNote actor →
          ∃ v ∈ s.repository.document.versions, (v.version : Int) = target ∧
            s'.durable.policy = v.policy ∧ s'.durable.rollbackFrom = some target := by
  constructor
  · intro d rev k s₁ hst
    refine ⟨d.integrity, ?_⟩
    -- the swap is about to be sent, so what may be sent is said of it
    obtain ⟨v, s₂, hx⟩ := s₁.exists_does_compareAndSwap faults d rev
    rcases safe_program faults call s with ⟨args, hargs, hsafe⟩ | ⟨-, hsafe⟩
    · have hsafe' := hsafe.steps (fun _ => rfl) hst
      exact ⟨args, hargs, (Prog.safe_cmd_alone.mp hsafe' v s₂ hx).1 d rev k rfl⟩
    · have hsafe' := hsafe.steps (fun _ => rfl) hst
      exact absurd rfl ((Prog.safe_cmd_alone.mp hsafe' v s₂ hx).1 d rev k)
  · intro o s' hcall
    rcases hcall.ended with ⟨args, hargs, hend⟩ | ⟨-, hfail⟩
    · refine ⟨fun e he => ?_, fun result ho => ?_⟩
      · subst he
        exact hend.1 e rfl
      · subst ho
        obtain ⟨hext, warnings, rfl⟩ := hend
        refine ⟨rfl, fun n hn => ?_, hext.versions, fun target base note actor hcall => ?_⟩
        · have := issued_le hrun hn
          have hversion : s'.durable.version = s.repository.document.activeVersion + 1 :=
            hext.version
          simp only [CommitArgs.result]
          omega
        · subst hcall
          obtain ⟨v, hv, rfl⟩ := Option.map_eq_some_iff.mp hargs
          exact ⟨v, List.mem_of_find?_eq_some hv, by simpa using List.find?_some hv, hext.policy,
            hext.rollbackFrom⟩
    · refine ⟨fun e he => ?_, fun result ho => ?_⟩
      · subst he
        simp at hfail
      · subst ho
        simp at hfail

theorem Service.called_rollback (faults : Faults) (s : Service) {targetVersion : Int}
    {target : PolicyVersion} {note actor : String} {now : Time} {d' : PolicyStoreDocument}
    (hfind : s.repository.document.versions.find? (fun v => (v.version : Int) = targetVersion) =
      some target)
    (hb : buildDocument ⟨s.repository.document.activeVersion, target.policy, note, actor,
      some targetVersion⟩ s.repository.document now = .ok d') :
    s.Called faults
      (.rollback targetVersion s.repository.document.activeVersion note actor,
        .ok (CommitArgs.result ⟨s.repository.document.activeVersion, target.policy, note, actor,
          some targetVersion⟩ d'.active [])) (s.committed d') := by
  unfold Service.Called
  simp only [PolicyCall.program, rollback, Prog.perform_bind]
  refine ⟨.ok s.repository.load, s, ⟨rfl, rfl⟩, ?_⟩
  simp only [Prog.onReply_ok, InMemoryPolicyRepository.load_document, hfind]
  exact runs_commit faults s _ rfl hb

/-- A publish on the seed document, then a rollback to it: the policy of version 1 is back. -/
theorem history_is_log_rollback : ∃ s s' publishResult result,
    Service.Called ⟨true, true⟩ (.new (.new seedDocument))
      (.publish 1 exampleDraft "Change queue weights" "policy-admin", .ok publishResult) s ∧
    s.Called ⟨true, true⟩ (.rollback 1 s.repository.document.activeVersion "rollback"
      "policy-admin", .ok result) s' ∧
    1 < result.version ∧ s'.durable.policy = exampleDraft ∧
    s'.durable.rollbackFrom = some 1 := by
  obtain ⟨d₂, hb₂, hext₂⟩ := buildDocument_ok ⟨1, exampleDraft, "Change queue weights",
    "policy-admin", none⟩ seedDocument 0 (by decide) (by decide) (by simp)
  have hpublish : Service.Called ⟨true, true⟩ (.new (.new seedDocument)) (.publish 1 exampleDraft
      "Change queue weights" "policy-admin", .ok _) _ := runs_commit _ _ _ rfl hb₂
  have hversions : d₂.versions = [seedRecord.retire, d₂.active] := by
    rw [hext₂.versions, retained_of_length_le (by simp [grown, seedDocument, maxVersions])]
    rfl
  have hfind : d₂.versions.find? (fun v => (v.version : Int) = 1) = some seedRecord.retire := by
    rw [hversions]
    rfl
  obtain ⟨d₃, hb₃, -⟩ := buildDocument_ok ⟨d₂.activeVersion, exampleDraft, "rollback",
    "policy-admin", some 1⟩ d₂ 0 (show 1 ≤ "policy-admin".length by decide)
    (show 1 ≤ "rollback".length ∧ "rollback".length ≤ 500 by decide) (by simp)
  have hrollback := Service.called_rollback ⟨true, true⟩
    ((Service.new (.new seedDocument)).committed d₂) hfind hb₃
  obtain ⟨-, hsuccess⟩ := (history_is_log (.tail .refl hpublish) _).2 _ _ hrollback
  obtain ⟨-, habove, -, hback⟩ := hsuccess _ rfl
  obtain ⟨v, hv, -, hpolicy, hfrom⟩ := hback _ _ _ _ rfl
  refine ⟨_, _, _, _, hpublish, hrollback, habove 1 (Or.inl ⟨_, List.mem_singleton_self _,
    seedRecord, List.mem_singleton_self _, rfl⟩), ?_, hfrom⟩
  have hv' : v ∈ [seedRecord.retire, d₂.active] := hversions ▸ hv
  rw [hpolicy]
  simp only [List.mem_cons, List.not_mem_nil, or_false] at hv'
  rcases hv' with rfl | rfl
  · rfl
  · exact hext₂.policy

end PolyGate.Automation
