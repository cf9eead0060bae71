import PolyGate.Automation.Policy.NextDocument

/-!
# `Automation/Policy/FailedCommit.lean` — what a call leaves the manager serving

One `publish` or `rollback`, with a repository that may answer anything and a cache that may
raise. `CommitExit` is the table of the ways out of `_commit`: what was asked and answered, the
result or the exception, and the manager afterwards; `runsWith_commit` says it is complete.
The rest is read off the table.
-/

namespace PolyGate.Automation.FailedCommit

open Lib

/-- What was asked of the repository, the clock, the manager's own attributes and the cache,
with the answers. -/
abbrev Log := List (Prog.Exchange PolicyCmd PolicyCmd.Reply PolicyExc)

/-- The attributes of a manager, and what its cache holds. -/
structure Served where
  active : PolicyVersion
  ready : Bool
  cached : Option ActivePolicyResponse

namespace Served

/-- What a command does to them. The repository may answer whatever it likes; the write of a cache
that raises may have taken effect nevertheless. -/
def does (s : Served) (c : PolicyCmd) (v : Except PolicyExc c.Reply) (s' : Served) : Prop :=
  match c, v with
  | .load, _ | .compareAndSwap _ _, _ | .now, .ok _ => s' = s
  | .setReady ready, .ok _ => s' = { s with ready := ready }
  | .setActive record, .ok _ => s' = { s with active := record }
  | .cacheSetActive response, .ok _ => s' = { s with cached := some response }
  | .cacheSetActive response, .error _ => s' = s ∨ s' = { s with cached := some response }
  | _, .error _ => False

/-- The record is assigned and handed to the cache, which answers `v`. -/
def Adopts (s : Served) (record : PolicyVersion) (v : Except PolicyExc Unit) (s' : Served) : Prop :=
  does { s with active := record, ready := true } (.cacheSetActive record.response) v s'

/-- Nothing that is served has changed. -/
def Untouched (s s' : Served) : Prop := s'.active = s.active ∧ s'.cached = s.cached

end Served

/-! ## The ways out of `_commit` -/

/-- The commands of `_activate_and_cache`. -/
def activation (record : PolicyVersion) (v : Except PolicyExc Unit) : Log :=
  [⟨.setActive record, .ok ()⟩, ⟨.cacheSetActive record.response, v⟩]

def adoption (record : PolicyVersion) (v : Except PolicyExc Unit) : Log :=
  ⟨.setReady true, .ok ()⟩ :: activation record v

/-- What a failed write is reported as, unless its outcome is open. -/
def reported : PolicyExc → PolicyExc
  | .policyConflict msg => .policyConflictError msg
  | e => e

/-- What `_commit` says of a stale `base_version`. -/
def staleBase (args : CommitArgs) (snapshot : RepositorySnapshot) : PolicyExc :=
  .policyConflictError ("base_version " ++ toString args.baseVersion ++
    " is stale; current active is " ++ toString snapshot.document.activeVersion)

/-- A write that was handed over: what was loaded, when, and what was built. -/
structure Attempt (args : CommitArgs) where
  snapshot : RepositorySnapshot
  now : Time
  document : PolicyStoreDocument
  current : args.baseVersion = snapshot.document.activeVersion
  built : buildDocument args snapshot.document now = .ok document

/-- What was asked up to the write, included. -/
def Attempt.log {args : CommitArgs} (a : Attempt args) (v : Except PolicyExc RepositorySnapshot) :
    Log :=
  [⟨.load, .ok a.snapshot⟩, ⟨.now, .ok a.now⟩, ⟨.compareAndSwap a.document a.snapshot.revision, v⟩]

inductive CommitExit (args : CommitArgs) (s : Served) :
    Log → Except PolicyExc PublishResult → Served → Prop
  | loadFailed {e : PolicyExc} : CommitExit args s [⟨.load, .error e⟩] (.error e) s
  | stale {snapshot : RepositorySnapshot}
      (stale : args.baseVersion ≠ snapshot.document.activeVersion) :
      CommitExit args s [⟨.load, .ok snapshot⟩] (.error (staleBase args snapshot)) s
  | invalid {snapshot : RepositorySnapshot} {now : Time} {e : PolicyExc}
      (current : args.baseVersion = snapshot.document.activeVersion)
      (built : buildDocument args snapshot.document now = .error e) :
      CommitExit args s [⟨.load, .ok snapshot⟩, ⟨.now, .ok now⟩] (.error e) s
  | written {persisted : RepositorySnapshot} {v : Except PolicyExc Unit} {s' : Served}
      (a : Attempt args) (adopts : s.Adopts persisted.document.active v s') :
      CommitExit args s (a.log (.ok persisted) ++ adoption persisted.document.active v)
        (.ok (args.result persisted.document.active (cacheWarnings v))) s'
  /-- a conflict, or anything else that leaves no doubt -/
  | refused {e : PolicyExc} (a : Attempt args) (decided : ∀ msg, e ≠ .repositoryUnavailable msg) :
      CommitExit args s (a.log (.error e)) (.error (reported e)) s
  | unreadable {msg msg' : String} (a : Attempt args) :
      CommitExit args s (a.log (.error (.repositoryUnavailable msg)) ++
          [⟨.load, .error (.repositoryUnavailable msg')⟩, ⟨.setReady false, .ok ()⟩])
        (.error (.repositoryUnavailable "policy repository write outcome could not be reconciled"))
        { s with ready := false }
  /-- the reload raises what `load` is not known to raise -/
  | reloadRaised {msg : String} {e : PolicyExc} (a : Attempt args)
      (other : ∀ msg, e ≠ .repositoryUnavailable msg) :
      CommitExit args s (a.log (.error (.repositoryUnavailable msg)) ++ [⟨.load, .error e⟩])
        (.error e) s
  | notCommitted {msg : String} (a : Attempt args) (lost : a.snapshot.document ≠ a.document) :
      CommitExit args s (a.log (.error (.repositoryUnavailable msg)) ++
          [⟨.load, .ok a.snapshot⟩, ⟨.setReady true, .ok ()⟩])
        (.error (.repositoryUnavailable "policy repository write was not committed"))
        { s with ready := true }
  /-- somebody else's document is there -/
  | concurrent {msg : String} {persisted : RepositorySnapshot} {v : Except PolicyExc Unit}
      {s' : Served} (a : Attempt args) (other : persisted.document ≠ a.document)
      (changed : persisted ≠ a.snapshot) (adopts : s.Adopts persisted.document.active v s') :
      CommitExit args s (a.log (.error (.repositoryUnavailable msg)) ++
          ⟨.load, .ok persisted⟩ :: adoption persisted.document.active v)
        (.error (.policyConflictError "a different policy state was committed concurrently")) s'
  /-- the write took effect after all -/
  | reconciled {msg : String} {persisted : RepositorySnapshot} {v : Except PolicyExc Unit}
      {s' : Served} (a : Attempt args) (same : persisted.document = a.document)
      (adopts : s.Adopts persisted.document.active v s') :
      CommitExit args s (a.log (.error (.repositoryUnavailable msg)) ++
          ⟨.load, .ok persisted⟩ :: ⟨.setReady true, .ok ()⟩ ::
            adoption persisted.document.active v)
        (.ok (args.result persisted.document.active (cacheWarnings v))) s'

/-! ## Every run is in the table -/

section Runs

variable {args : CommitArgs} {s s' : Served} {es : Log} {o : Except PolicyExc PublishResult}

abbrev RunsWith :
    Pm PublishResult → Served → Log → Except PolicyExc PublishResult → Served → Prop :=
  Prog.RunsWith Served.does

theorem runsWith_load {k : Except PolicyExc RepositorySnapshot → Pm PublishResult} :
    RunsWith (.cmd .load k) s es o s' ↔
      ∃ v es₁, es = ⟨.load, v⟩ :: es₁ ∧ RunsWith (k v) s es₁ o s' :=
  Prog.runsWith_still fun _ _ => Iff.rfl

theorem runsWith_write {d : PolicyStoreDocument} {revision : Revision}
    {k : Except PolicyExc RepositorySnapshot → Pm PublishResult} :
    RunsWith (.cmd (.compareAndSwap d revision) k) s es o s' ↔
      ∃ v es₁, es = ⟨.compareAndSwap d revision, v⟩ :: es₁ ∧ RunsWith (k v) s es₁ o s' :=
  Prog.runsWith_still fun _ _ => Iff.rfl

/-- The commands that never raise. -/
theorem runsWith_answered {c : PolicyCmd} {f : c.Reply → Pm PublishResult}
    (hc : ∀ e s₁, ¬ Served.does s c (.error e) s₁) :
    RunsWith (.cmd c (Prog.onReply f)) s es o s' ↔
      ∃ x s₁ es₁, Served.does s c (.ok x) s₁ ∧ es = ⟨c, .ok x⟩ :: es₁ ∧
        RunsWith (f x) s₁ es₁ o s' := by
  rw [RunsWith, Prog.runsWith_cmd]
  constructor
  · intro h
    obtain ⟨v, s₁, es₁, hdoes, he, hk⟩ := h
    cases v with
    | error e => exact absurd hdoes (hc e s₁)
    | ok x => exact ⟨x, s₁, es₁, hdoes, he, hk⟩
  · intro h
    obtain ⟨x, s₁, es₁, hdoes, he, hk⟩ := h
    exact ⟨.ok x, s₁, es₁, hdoes, he, hk⟩

theorem runsWith_now {f : Time → Pm PublishResult} :
    RunsWith (.cmd .now (Prog.onReply f)) s es o s' ↔
      ∃ now es₁, es = ⟨.now, .ok now⟩ :: es₁ ∧ RunsWith (f now) s es₁ o s' := by
  rw [runsWith_answered (c := .now) fun _ _ h => h]
  constructor
  · intro h
    obtain ⟨now, s₁, es₁, hdoes, he, hk⟩ := h
    obtain rfl : s₁ = s := hdoes
    exact ⟨now, es₁, he, hk⟩
  · intro h
    obtain ⟨now, es₁, he, hk⟩ := h
    exact ⟨now, s, es₁, rfl, he, hk⟩

theorem runsWith_setReady {ready : Bool} {f : Unit → Pm PublishResult} :
    RunsWith (.cmd (.setReady ready) (Prog.onReply f)) s es o s' ↔
      ∃ es₁, es = ⟨.setReady ready, .ok ()⟩ :: es₁ ∧
        RunsWith (f ()) { s with ready := ready } es₁ o s' := by
  rw [runsWith_answered (c := .setReady ready) fun _ _ h => h]
  constructor
  · intro h
    obtain ⟨x, s₁, es₁, hdoes, he, hk⟩ := h
    obtain rfl : s₁ = { s with ready := ready } := hdoes
    exact ⟨es₁, he, hk⟩
  · intro h
    obtain ⟨es₁, he, hk⟩ := h
    exact ⟨(), _, es₁, rfl, he, hk⟩

/-- Assigning a record and handing it to the cache, with nothing left to do but to end. -/
theorem runsWith_activate {record : PolicyVersion}
    {f : Except PolicyExc Unit → Except PolicyExc PublishResult} :
    RunsWith (.cmd (.setActive record) (Prog.onReply fun _ =>
        .cmd (.cacheSetActive record.response) fun v => Prog.ofOutcome (f v)))
        { s with ready := true } es o s' ↔
      ∃ v, es = activation record v ∧ o = f v ∧ s.Adopts record v s' := by
  rw [runsWith_answered (c := .setActive record) fun _ _ h => h]
  constructor
  · intro h
    obtain ⟨x, s₁, es₁, hset, rfl, v, s₂, es₂, hcache, rfl, hrest⟩ := h
    obtain rfl : s₁ = { s with active := record, ready := true } := hset
    obtain ⟨rfl, ho, rfl⟩ := Prog.runsWith_ofOutcome.mp hrest
    exact ⟨v, rfl, ho, hcache⟩
  · intro h
    obtain ⟨v, rfl, rfl, h⟩ := h
    exact ⟨(), _, _, rfl, rfl, v, s', [], h, rfl, Prog.runsWith_ofOutcome.mpr ⟨rfl, rfl, rfl⟩⟩

theorem runsWith_finishCommit {persisted : RepositorySnapshot} :
    RunsWith (finishCommit args persisted) s es o s' ↔
      ∃ v, es = adoption persisted.document.active v ∧
        o = .ok (args.result persisted.document.active (cacheWarnings v)) ∧
        s.Adopts persisted.document.active v s' := by
  rw [finishCommit_eq, runsWith_setReady]
  constructor
  · intro h
    obtain ⟨es₁, rfl, h⟩ := h
    obtain ⟨v, rfl, ho, hadopts⟩ := (runsWith_activate (f := fun v =>
      .ok (args.result persisted.document.active (cacheWarnings v)))).mp h
    exact ⟨v, rfl, ho, hadopts⟩
  · intro h
    obtain ⟨v, rfl, ho, hadopts⟩ := h
    exact ⟨_, rfl, (runsWith_activate (f := fun v =>
      .ok (args.result persisted.document.active (cacheWarnings v)))).mpr ⟨v, rfl, ho, hadopts⟩⟩

theorem written_decided {snapshot : RepositorySnapshot} {d : PolicyStoreDocument} {e : PolicyExc}
    (h : ∀ msg, e ≠ .repositoryUnavailable msg) :
    written args snapshot d (.error e) = .raise (reported e) := by
  cases e with
  | repositoryUnavailable msg => exact absurd rfl (h msg)
  | policyConflict | policyConflictError | policyVersionNotFound | validationError
  | cacheError => rfl

theorem unreconciled_other {e : PolicyExc} (h : ∀ msg, e ≠ .repositoryUnavailable msg) :
    unreconciled e = .raise e := by
  cases e with
  | repositoryUnavailable msg => exact absurd rfl (h msg)
  | policyConflict | policyConflictError | policyVersionNotFound | validationError
  | cacheError => rfl

theorem isUnavailable (e : PolicyExc) :
    (∃ msg, e = .repositoryUnavailable msg) ∨ ∀ msg, e ≠ .repositoryUnavailable msg := by
  cases e with
  | repositoryUnavailable msg => exact Or.inl ⟨msg, rfl⟩
  | policyConflict | policyConflictError | policyVersionNotFound | validationError
  | cacheError => exact Or.inr fun msg h => by cases h

theorem exit_of_reconciled {msg : String} {persisted : RepositorySnapshot} (a : Attempt args)
    (h : RunsWith (reconciled args a.snapshot a.document persisted) s es o s') :
    CommitExit args s
      (a.log (.error (.repositoryUnavailable msg)) ++ ⟨.load, .ok persisted⟩ :: es) o s' := by
  obtain ⟨es₁, rfl, hrest⟩ := runsWith_setReady.mp h
  split_ifs at hrest with hnew hsame
  · obtain ⟨v, rfl, rfl, hadopts⟩ := runsWith_finishCommit.mp hrest
    exact .reconciled a hnew hadopts
  · obtain ⟨rfl, rfl, rfl⟩ := hrest
    obtain rfl : persisted = a.snapshot := by
      cases persisted
      exact congrArg₂ RepositorySnapshot.mk hsame.2 hsame.1
    exact .notCommitted a hnew
  · obtain ⟨v, rfl, rfl, hadopts⟩ := (runsWith_activate (f := fun _ => .error
      (.policyConflictError "a different policy state was committed concurrently"))).mp hrest
    exact .concurrent a hnew (fun he => hsame (he ▸ ⟨rfl, rfl⟩)) hadopts

theorem exit_of_written {v : Except PolicyExc RepositorySnapshot} (a : Attempt args)
    (h : RunsWith (written args a.snapshot a.document v) s es o s') :
    CommitExit args s (a.log v ++ es) o s' := by
  cases v with
  | ok persisted =>
    obtain ⟨v, rfl, rfl, hadopts⟩ := runsWith_finishCommit.mp h
    exact .written a hadopts
  | error e =>
    rcases isUnavailable e with ⟨msg, rfl⟩ | hother
    · obtain ⟨v, es₁, rfl, hreload⟩ := runsWith_load.mp h
      cases v with
      | ok persisted => exact exit_of_reconciled a hreload
      | error e =>
        rcases isUnavailable e with ⟨msg', rfl⟩ | hother
        · obtain ⟨es₂, rfl, hend⟩ := runsWith_setReady.mp hreload
          obtain ⟨rfl, rfl, rfl⟩ := hend
          exact .unreadable a
        · dsimp only at hreload
          rw [unreconciled_other hother] at hreload
          obtain ⟨rfl, rfl, rfl⟩ := hreload
          exact .reloadRaised a hother
    · rw [written_decided hother] at h
      obtain ⟨rfl, rfl, rfl⟩ := h
      rw [List.append_nil]
      exact .refused a hother

/-- The table is complete. -/
theorem exit_of_commit (h : RunsWith (commit args) s es o s') : CommitExit args s es o s' := by
  rw [commit_eq] at h
  obtain ⟨v, es₁, rfl, h₁⟩ := runsWith_load.mp h
  cases v with
  | error e =>
    obtain ⟨rfl, rfl, rfl⟩ := h₁
    exact .loadFailed
  | ok snapshot =>
    rw [Prog.onReply_ok] at h₁
    split_ifs at h₁ with hbase
    · obtain ⟨rfl, rfl, rfl⟩ := h₁
      exact .stale hbase
    · obtain ⟨now, es₂, rfl, h₂⟩ := runsWith_now.mp h₁
      cases hb : buildDocument args snapshot.document now with
      | error e =>
        rw [hb] at h₂
        obtain ⟨rfl, rfl, rfl⟩ := h₂
        exact .invalid (not_not.mp hbase) hb
      | ok d =>
        rw [hb] at h₂
        obtain ⟨v, es₃, rfl, h₃⟩ := runsWith_write.mp h₂
        exact exit_of_written ⟨snapshot, now, d, not_not.mp hbase, hb⟩ h₃

/-- And every row of it is a run. -/
theorem runsWith_of_written {v : Except PolicyExc RepositorySnapshot} (a : Attempt args)
    (h : RunsWith (written args a.snapshot a.document v) s es o s') :
    RunsWith (commit args) s (a.log v ++ es) o s' := by
  rw [commit_eq]
  refine runsWith_load.mpr ⟨_, _, rfl, ?_⟩
  rw [Prog.onReply_ok, if_neg (not_not.mpr a.current)]
  refine runsWith_now.mpr ⟨a.now, _, rfl, ?_⟩
  rw [a.built]
  exact runsWith_write.mpr ⟨v, es, rfl, h⟩

theorem runsWith_of_reconciled {msg : String} {persisted : RepositorySnapshot} (a : Attempt args)
    (h : RunsWith (reconciled args a.snapshot a.document persisted) s es o s') :
    RunsWith (commit args) s
      (a.log (.error (.repositoryUnavailable msg)) ++ ⟨.load, .ok persisted⟩ :: es) o s' :=
  runsWith_of_written a (runsWith_load.mpr ⟨_, _, rfl, h⟩)

theorem runsWith_of_exit (h : CommitExit args s es o s') : RunsWith (commit args) s es o s' := by
  cases h with
  | loadFailed =>
    rw [commit_eq]
    exact runsWith_load.mpr ⟨_, _, rfl, rfl, rfl, rfl⟩
  | stale hbase =>
    rw [commit_eq]
    refine runsWith_load.mpr ⟨_, _, rfl, ?_⟩
    rw [Prog.onReply_ok, if_pos hbase]
    exact ⟨rfl, rfl, rfl⟩
  | invalid hbase hb =>
    rw [commit_eq]
    refine runsWith_load.mpr ⟨_, _, rfl, ?_⟩
    rw [Prog.onReply_ok, if_neg (not_not.mpr hbase)]
    refine runsWith_now.mpr ⟨_, _, rfl, ?_⟩
    rw [hb]
    exact ⟨rfl, rfl, rfl⟩
  | written a hadopts =>
    exact runsWith_of_written a (runsWith_finishCommit.mpr ⟨_, rfl, rfl, hadopts⟩)
  | refused a hother =>
    rw [← List.append_nil (a.log _)]
    refine runsWith_of_written a ?_
    rw [written_decided hother]
    exact ⟨rfl, rfl, rfl⟩
  | unreadable a =>
    exact runsWith_of_written a (runsWith_load.mpr ⟨_, _, rfl, runsWith_setReady.mpr
      ⟨_, rfl, rfl, rfl, rfl⟩⟩)
  | reloadRaised a hother =>
    refine runsWith_of_written a (runsWith_load.mpr ⟨_, _, rfl, ?_⟩)
    dsimp only
    rw [unreconciled_other hother]
    exact ⟨rfl, rfl, rfl⟩
  | notCommitted a hlost =>
    refine runsWith_of_reconciled a (runsWith_setReady.mpr ⟨_, rfl, ?_⟩)
    rw [if_neg hlost, if_pos ⟨rfl, rfl⟩]
    exact ⟨rfl, rfl, rfl⟩
  | @concurrent _ persisted v _ a hother hchanged hadopts =>
    refine runsWith_of_reconciled a (runsWith_setReady.mpr ⟨_, rfl, ?_⟩)
    -- a snapshot is its document and its revision, and nothing else
    have hne : ¬ (persisted.revision = a.snapshot.revision ∧
        persisted.document = a.snapshot.document) := fun he => hchanged (by
      cases persisted
      exact congrArg₂ RepositorySnapshot.mk he.2 he.1)
    rw [if_neg hother, if_neg hne]
    exact (runsWith_activate (f := fun _ => .error
      (.policyConflictError "a different policy state was committed concurrently"))).mpr
        ⟨v, rfl, rfl, hadopts⟩
  | reconciled a hsame hadopts =>
    refine runsWith_of_reconciled a (runsWith_setReady.mpr ⟨_, rfl, ?_⟩)
    rw [if_pos hsame]
    exact runsWith_finishCommit.mpr ⟨_, rfl, rfl, hadopts⟩

theorem runsWith_commit : RunsWith (commit args) s es o s' ↔ CommitExit args s es o s' :=
  ⟨exit_of_commit, runsWith_of_exit⟩

end Runs

/-! ## The ways out of a call -/

inductive CallExit (s : Served) :
    PolicyCall → Log → Except PolicyExc PublishResult → Served → Prop
  | publish {baseVersion : Int} {draft : PolicyDraft} {changeNote actor : String} {es : Log}
      {o : Except PolicyExc PublishResult} {s' : Served}
      (commits : CommitExit ⟨baseVersion, draft, changeNote, actor, none⟩ s es o s') :
      CallExit s (.publish baseVersion draft changeNote actor) es o s'
  | unread {targetVersion baseVersion : Int} {changeNote actor : String} {e : PolicyExc} :
      CallExit s (.rollback targetVersion baseVersion changeNote actor) [⟨.load, .error e⟩]
        (.error e) s
  | missing {targetVersion baseVersion : Int} {changeNote actor : String}
      {snapshot : RepositorySnapshot}
      (missing : snapshot.document.versions.find? (fun v => (v.version : Int) = targetVersion) =
        none) :
      CallExit s (.rollback targetVersion baseVersion changeNote actor) [⟨.load, .ok snapshot⟩]
        (.error (.policyVersionNotFound "policy version not found")) s
  | rollback {targetVersion baseVersion : Int} {changeNote actor : String}
      {snapshot : RepositorySnapshot} {target : PolicyVersion} {es : Log}
      {o : Except PolicyExc PublishResult} {s' : Served}
      (found : snapshot.document.versions.find? (fun v => (v.version : Int) = targetVersion) =
        some target)
      (commits : CommitExit ⟨baseVersion, target.policy, changeNote, actor, some targetVersion⟩ s
        es o s') :
      CallExit s (.rollback targetVersion baseVersion changeNote actor)
        (⟨.load, .ok snapshot⟩ :: es) o s'

section Calls

variable {call : PolicyCall} {s s' : Served} {es : Log} {o : Except PolicyExc PublishResult}

theorem exit_of_program (h : RunsWith call.program s es o s') : CallExit s call es o s' := by
  cases call with
  | publish baseVersion draft changeNote actor => exact .publish (runsWith_commit.mp h)
  | rollback targetVersion baseVersion changeNote actor =>
    simp only [PolicyCall.program, Automation.rollback, Prog.perform_bind] at h
    obtain ⟨v, es₁, rfl, hrest⟩ := runsWith_load.mp h
    cases v with
    | error e =>
      obtain ⟨rfl, rfl, rfl⟩ := hrest
      exact .unread
    | ok snapshot =>
      rw [Prog.onReply_ok] at hrest
      cases hfind : snapshot.document.versions.find? (fun v => (v.version : Int) = targetVersion)
        with
      | none =>
        rw [hfind] at hrest
        obtain ⟨rfl, rfl, rfl⟩ := hrest
        exact .missing hfind
      | some target =>
        rw [hfind] at hrest
        exact .rollback hfind (runsWith_commit.mp hrest)

theorem runsWith_of_callExit (h : CallExit s call es o s') : RunsWith call.program s es o s' := by
  cases h with
  | publish hexit => exact runsWith_commit.mpr hexit
  | unread =>
    simp only [PolicyCall.program, Automation.rollback, Prog.perform_bind]
    exact runsWith_load.mpr ⟨_, _, rfl, rfl, rfl, rfl⟩
  | missing hfind =>
    simp only [PolicyCall.program, Automation.rollback, Prog.perform_bind]
    refine runsWith_load.mpr ⟨_, _, rfl, ?_⟩
    rw [Prog.onReply_ok, hfind]
    exact ⟨rfl, rfl, rfl⟩
  | rollback hfind hexit =>
    simp only [PolicyCall.program, Automation.rollback, Prog.perform_bind]
    refine runsWith_load.mpr ⟨_, _, rfl, ?_⟩
    rw [Prog.onReply_ok, hfind]
    exact runsWith_commit.mpr hexit

end Calls

/-! ## What is read off a log -/

/-- What the repository returned. -/
def returned : Prog.Exchange PolicyCmd PolicyCmd.Reply PolicyExc → Option RepositorySnapshot
  | ⟨.load, .ok snapshot⟩ => some snapshot
  | ⟨.compareAndSwap _ _, .ok snapshot⟩ => some snapshot
  | _ => none

def CacheRaised (es : Log) : Prop :=
  ∃ response e, (⟨.cacheSetActive response, .error e⟩ :
    Prog.Exchange PolicyCmd PolicyCmd.Reply PolicyExc) ∈ es

/-- What is served is the active record of what the repository returned last. -/
def Served.Durable (s : Served) (es : Log) : Prop :=
  ∃ snapshot, (es.filterMap returned).getLast? = some snapshot ∧
    s.active = snapshot.document.active ∧
    (CacheRaised es ∨ s.cached = some snapshot.document.active.response)

/-- The `base_version` of a call. -/
def baseVersion : PolicyCall → Int
  | .publish baseVersion _ _ _ => baseVersion
  | .rollback _ baseVersion _ _ => baseVersion

/-- What `_commit` asked; `rollback` asks for the document once before. -/
def asked : PolicyCall → Log → Log
  | .publish _ _ _ _, es => es
  | .rollback _ _ _ _, es => es.tail

theorem asked_suffix (call : PolicyCall) (es : Log) : asked call es <:+ es := by
  cases call with
  | publish => exact List.suffix_rfl
  | rollback => exact List.tail_suffix es

/-- What came before does not count. -/
theorem Served.Durable.of_suffix {s : Served} {es es' : Log} (h : s.Durable es)
    (hsuffix : es <:+ es') : s.Durable es' := by
  obtain ⟨pre, rfl⟩ := hsuffix
  obtain ⟨snapshot, hlast, hactive, hcached⟩ := h
  refine ⟨snapshot, ?_, hactive, ?_⟩
  · rw [List.filterMap_append, List.getLast?_append, hlast, Option.some_or]
  · apply hcached.imp_left
    intro hraised
    obtain ⟨response, e, hin⟩ := hraised
    exact ⟨response, e, List.mem_append_right pre hin⟩

/-- Neither the write nor the reload was answered. -/
def Unreadable (call : PolicyCall) (es : Log) : Prop :=
  ∃ x y document revision msg msg' rest, asked call es =
    x :: y :: ⟨.compareAndSwap document revision, .error (.repositoryUnavailable msg)⟩ ::
      ⟨.load, .error (.repositoryUnavailable msg')⟩ :: rest

inductive Refused (call : PolicyCall) (es : Log) : Prop
  | initialLoad {e : PolicyExc} (failed : ⟨.load, .error e⟩ ∈ es)
      (unwritten : ∀ x ∈ es, ∀ document revision, x.1 ≠ .compareAndSwap document revision)
  | staleBase {snapshot : RepositorySnapshot} {rest : Log}
      (loaded : asked call es = ⟨.load, .ok snapshot⟩ :: rest)
      (stale : baseVersion call ≠ snapshot.document.activeVersion)
  | missingTarget {snapshot : RepositorySnapshot} {rest : Log}
      (loaded : es = ⟨.load, .ok snapshot⟩ :: rest)
      (missing : call.argsOn snapshot.document = none)
  | conflict {document : PolicyStoreDocument} {revision : Revision} {msg : String}
      (answered : ⟨.compareAndSwap document revision, .error (.policyConflict msg)⟩ ∈ es)
  /-- the reload shows what was loaded before -/
  | notCommitted {snapshot : RepositorySnapshot} {now : Except PolicyExc Time}
      {document : PolicyStoreDocument} {revision : Revision} {msg : String} {rest : Log}
      (log : asked call es = ⟨.load, .ok snapshot⟩ :: ⟨.now, now⟩ ::
        ⟨.compareAndSwap document revision, .error (.repositoryUnavailable msg)⟩ ::
          ⟨.load, .ok snapshot⟩ :: rest)
  | unreadable (unreadable : Unreadable call es)

/-- The exchange, had the cache taken the write. -/
def heeded : Prog.Exchange PolicyCmd PolicyCmd.Reply PolicyExc →
    Prog.Exchange PolicyCmd PolicyCmd.Reply PolicyExc
  | ⟨.cacheSetActive response, _⟩ => ⟨.cacheSetActive response, .ok ()⟩
  | x => x

/-- A success with the degraded warning. -/
def degraded (r : PublishResult) : PublishResult :=
  { r with warnings := r.warnings ++ ["policy cache degraded"] }

/-! ## The rows that serve a record, and the others -/

section Rows

variable {args : CommitArgs} {s s' : Served} {es pre : Log} {o : Except PolicyExc PublishResult}
  {persisted : RepositorySnapshot}

theorem Served.Adopts.active {record : PolicyVersion} {v : Except PolicyExc Unit}
    (h : s.Adopts record v s') : s'.active = record := by
  cases v with
  | ok x =>
    obtain rfl : s' = _ := h
    rfl
  | error e => rcases h with rfl | rfl <;> rfl

theorem Served.Adopts.cached {record : PolicyVersion} {x : Unit}
    (h : s.Adopts record (.ok x) s') : s'.cached = some record.response := by
  obtain rfl : s' = _ := h
  rfl

/-- What was asked before a record is adopted. -/
inductive Found (a : Attempt args) (persisted : RepositorySnapshot) : Log → Prop
  | write : Found a persisted (a.log (.ok persisted))
  | reload {msg : String} {rest : Log} (changed : persisted ≠ a.snapshot)
      (rest_eq : rest = [] ∨ rest = [⟨.setReady true, .ok ()⟩]) :
      Found a persisted
        (a.log (.error (.repositoryUnavailable msg)) ++ ⟨.load, .ok persisted⟩ :: rest)

/-- What was built is not what was loaded. -/
theorem Attempt.document_ne (a : Attempt args) : a.document ≠ a.snapshot.document := by
  intro he
  rcases buildDocument_spec args a.snapshot.document a.now with ⟨d, hb, hext, -⟩ | ⟨e, hb⟩
  · rw [a.built] at hb
    cases hb
    have := hext.activeVersion
    rw [he] at this
    omega
  · rw [a.built] at hb
    cases hb

/-- A way out either leaves alone what is served, and the cache with it, or adopts what the
repository returned. -/
theorem CommitExit.adopts (h : CommitExit args s es o s') :
    (s.Untouched s' ∧ ∃ e, o = .error e) ∨
      ∃ (a : Attempt args) (persisted : RepositorySnapshot) (pre : Log)
        (v : Except PolicyExc Unit), Found a persisted pre ∧
          es = pre ++ adoption persisted.document.active v ∧
          s.Adopts persisted.document.active v s' := by
  cases h with
  | loadFailed | stale | invalid | refused | unreadable | reloadRaised | notCommitted =>
    exact Or.inl ⟨⟨rfl, rfl⟩, _, rfl⟩
  | written a hadopts => exact Or.inr ⟨a, _, _, _, .write, rfl, hadopts⟩
  | concurrent a hother hchanged hadopts =>
    exact Or.inr ⟨a, _, _, _, .reload hchanged (Or.inl rfl), rfl, hadopts⟩
  | reconciled a hsame hadopts =>
    refine Or.inr ⟨a, _, _, _, .reload (fun he => ?_) (Or.inr rfl), rfl, hadopts⟩
    rw [he] at hsame
    exact a.document_ne hsame.symm

theorem Found.durable {a : Attempt args} {v : Except PolicyExc Unit} (h : Found a persisted pre)
    (hadopts : s.Adopts persisted.document.active v s') :
    s'.Durable (pre ++ adoption persisted.document.active v) := by
  refine ⟨persisted, ?_, hadopts.active, ?_⟩
  · cases h with
    | write => rfl
    | reload hchanged hrest => rcases hrest with rfl | rfl <;> rfl
  · cases v with
    | ok x => exact Or.inr hadopts.cached
    | error e =>
      exact Or.inl ⟨persisted.document.active.response, e, by simp [adoption, activation]⟩

/-- Had the cache taken the write, the row would be the same but for the warning. -/
theorem CommitExit.heeded (h : CommitExit args s es o s') :
    ∃ o₀ s₀, CommitExit args s (es.map heeded) o₀ s₀ ∧
      (o = o₀ ∨ ∃ r, o₀ = .ok r ∧ o = .ok (degraded r)) := by
  cases h with
  | loadFailed => exact ⟨_, _, .loadFailed, Or.inl rfl⟩
  | stale hbase => exact ⟨_, _, .stale hbase, Or.inl rfl⟩
  | invalid hbase hb => exact ⟨_, _, .invalid hbase hb, Or.inl rfl⟩
  | refused a hother => exact ⟨_, _, .refused a hother, Or.inl rfl⟩
  | unreadable a => exact ⟨_, _, .unreadable a, Or.inl rfl⟩
  | reloadRaised a hother => exact ⟨_, _, .reloadRaised a hother, Or.inl rfl⟩
  | notCommitted a hlost => exact ⟨_, _, .notCommitted a hlost, Or.inl rfl⟩
  | @written persisted v s' a hadopts =>
    refine ⟨_, _, .written (v := .ok ()) a rfl, ?_⟩
    cases v with
    | ok x => exact Or.inl rfl
    | error e => exact Or.inr ⟨_, rfl, rfl⟩
  | concurrent a hother hchanged hadopts =>
    exact ⟨_, _, .concurrent (v := .ok ()) a hother hchanged rfl, Or.inl rfl⟩
  | @reconciled msg persisted v s' a hsame hadopts =>
    refine ⟨_, _, .reconciled (v := .ok ()) a hsame rfl, ?_⟩
    cases v with
    | ok x => exact Or.inl rfl
    | error e => exact Or.inr ⟨_, rfl, rfl⟩

end Rows

/-! ## The law -/

section Law

variable {call : PolicyCall} {s s' : Served} {es : Log} {o : Except PolicyExc PublishResult}

theorem CallExit.heeded (h : CallExit s call es o s') :
    ∃ o₀ s₀, CallExit s call (es.map heeded) o₀ s₀ ∧
      (o = o₀ ∨ ∃ r, o₀ = .ok r ∧ o = .ok (degraded r)) := by
  cases h with
  | publish hexit =>
    obtain ⟨o₀, s₀, hexit₀, ho⟩ := hexit.heeded
    exact ⟨o₀, s₀, .publish hexit₀, ho⟩
  | unread => exact ⟨_, _, .unread, Or.inl rfl⟩
  | missing hfind => exact ⟨_, _, .missing hfind, Or.inl rfl⟩
  | rollback hfind hexit =>
    obtain ⟨o₀, s₀, hexit₀, ho⟩ := hexit.heeded
    exact ⟨o₀, s₀, .rollback hfind hexit₀, ho⟩

/-- A call either leaves alone what is served, or adopts on the strength of what `_commit`
was answered. -/
theorem CallExit.adopts (h : CallExit s call es o s') :
    (s.Untouched s' ∧ ∃ e, o = .error e) ∨
      ∃ (args : CommitArgs) (a : Attempt args) (persisted : RepositorySnapshot) (pre : Log)
        (v : Except PolicyExc Unit), args.baseVersion = baseVersion call ∧
          Found a persisted pre ∧ asked call es = pre ++ adoption persisted.document.active v ∧
          (∀ snapshot rest, es = ⟨.load, .ok snapshot⟩ :: rest →
            call.argsOn snapshot.document ≠ none) ∧
          (∀ x ∈ es, x ∈ asked call es ∨ ∃ snapshot, x = ⟨.load, .ok snapshot⟩) ∧
          s.Adopts persisted.document.active v s' := by
  cases h with
  | publish hexit =>
    rcases hexit.adopts with hkept | ⟨a, persisted, pre, v, hfound, rfl, hadopts⟩
    · exact Or.inl hkept
    · exact Or.inr ⟨_, a, persisted, pre, v, rfl, hfound, rfl, fun _ _ _ h => (by cases h),
        fun x hx => Or.inl hx, hadopts⟩
  | unread => exact Or.inl ⟨⟨rfl, rfl⟩, _, rfl⟩
  | missing => exact Or.inl ⟨⟨rfl, rfl⟩, _, rfl⟩
  | rollback hfind hexit =>
    rcases hexit.adopts with hkept | ⟨a, persisted, pre, v, hfound, rfl, hadopts⟩
    · exact Or.inl hkept
    · refine Or.inr ⟨_, a, persisted, pre, v, rfl, hfound, rfl, ?_, ?_, hadopts⟩
      · intro snapshot rest he
        cases he
        simp [PolicyCall.argsOn, hfind]
      · intro x hx
        rcases List.mem_cons.mp hx with rfl | hx
        · exact Or.inr ⟨_, rfl⟩
        · exact Or.inl hx

/-- What was asked before an adoption has none of the marks of a refusal. -/
theorem Found.not_refused {args : CommitArgs} {a : Attempt args} {persisted : RepositorySnapshot}
    {pre : Log} {v : Except PolicyExc Unit} (hbase : args.baseVersion = baseVersion call)
    (hfound : Found a persisted pre)
    (hasked : asked call es = pre ++ adoption persisted.document.active v)
    (htarget : ∀ snapshot rest, es = ⟨.load, .ok snapshot⟩ :: rest →
      call.argsOn snapshot.document ≠ none)
    (hmem : ∀ x ∈ es, x ∈ asked call es ∨ ∃ snapshot, x = ⟨.load, .ok snapshot⟩) :
    ¬ Refused call es := by
  intro h
  cases h with
  | initialLoad hfailed hunwritten =>
    -- the document was found again after a write, and this refusal has none
    have hwrite : ∃ w, (⟨.compareAndSwap a.document a.snapshot.revision, w⟩ :
        Prog.Exchange PolicyCmd PolicyCmd.Reply PolicyExc) ∈ asked call es := by
      rw [hasked]
      cases hfound with
      | write => exact ⟨.ok persisted, by simp [Attempt.log]⟩
      | @reload msg => exact ⟨.error (.repositoryUnavailable msg), by simp [Attempt.log]⟩
    obtain ⟨w, hw⟩ := hwrite
    exact hunwritten _ ((asked_suffix call es).mem hw) _ _ rfl
  | staleBase hloaded hstale =>
    rw [hasked] at hloaded
    have hcurrent := a.current
    rw [hbase] at hcurrent
    cases hfound with
    | write =>
      cases hloaded
      exact hstale hcurrent
    | reload =>
      cases hloaded
      exact hstale hcurrent
  | missingTarget hloaded hmissing => exact htarget _ _ hloaded hmissing
  | conflict hanswered =>
    rcases hmem _ hanswered with hin | ⟨snapshot, he⟩
    · rw [hasked] at hin
      cases hfound with
      | write => simp [Attempt.log, adoption, activation] at hin
      | reload hchanged hrest =>
        rcases hrest with rfl | rfl <;> simp [Attempt.log, adoption, activation] at hin
    · cases he
  | notCommitted hlog =>
    rw [hasked] at hlog
    cases hfound with
    | write => cases hlog
    | reload hchanged hrest =>
      cases hlog
      exact hchanged rfl
  | unreadable hunreadable =>
    obtain ⟨x, y, d, revision, msg, msg', rest, hlog⟩ := hunreadable
    rw [hasked] at hlog
    cases hfound with
    | write => cases hlog
    | reload => cases hlog

theorem CommitExit.unready {args : CommitArgs}
    {x y : Prog.Exchange PolicyCmd PolicyCmd.Reply PolicyExc} {d : PolicyStoreDocument}
    {revision : Revision} {msg msg' : String} {rest : Log}
    (h : CommitExit args s es o s')
    (hlog : es = x :: y :: ⟨.compareAndSwap d revision, .error (.repositoryUnavailable msg)⟩ ::
      ⟨.load, .error (.repositoryUnavailable msg')⟩ :: rest) : s'.ready = false := by
  cases h with
  | unreadable a => rfl
  | reloadRaised a hother =>
    cases hlog
    exact absurd rfl (hother msg')
  | loadFailed | stale | invalid | refused | written | notCommitted | concurrent | reconciled =>
    cases hlog

/-- What holds of one call, by what was asked and answered. -/
structure CommitLaw (call : PolicyCall) (s : Served) (es : Log) (o : Except PolicyExc PublishResult)
    (s' : Served) : Prop where
  served : s.Untouched s' ∨ s'.Durable es
  refused : Refused call es → s.Untouched s' ∧ ∃ e, o = .error e
  unready : Unreadable call es → s'.ready = false
  /-- with the cache taking the write, all else answered alike, the call ends the same, a
  degraded warning apart -/
  cache : ∃ o₀ s₀, RunsWith call.program s (es.map heeded) o₀ s₀ ∧
    (o = o₀ ∨ ∃ r, o₀ = .ok r ∧ o = .ok (degraded r))

/-- **A failed commit changes nothing the manager serves**, whatever the repository answers and
whether or not the cache raises. -/
theorem failed_commit_changes_nothing (call : PolicyCall) {s s' : Served} {es : Log}
    {o : Except PolicyExc PublishResult} (h : RunsWith call.program s es o s') :
    CommitLaw call s es o s' := by
  have hexit := exit_of_program h
  obtain ⟨o₀, s₀, hexit₀, ho⟩ := hexit.heeded
  have hunready : Unreadable call es → s'.ready = false := by
    intro hunreadable
    obtain ⟨x, y, d, revision, msg, msg', rest, hlog⟩ := hunreadable
    cases hexit with
    | publish hexit => exact hexit.unready hlog
    | rollback hfind hexit => exact hexit.unready hlog
    | unread | missing => cases hlog
  rcases hexit.adopts with
    hkept | ⟨args, a, persisted, pre, v, hbase, hfound, hasked, htarget, hmem, hadopts⟩
  · exact ⟨Or.inl hkept.1, fun _ => hkept, hunready, o₀, s₀, runsWith_of_callExit hexit₀, ho⟩
  · refine ⟨Or.inr ?_, fun hrefused => ?_, hunready, o₀, s₀, runsWith_of_callExit hexit₀, ho⟩
    · have hdurable := hfound.durable hadopts
      rw [← hasked] at hdurable
      exact hdurable.of_suffix (asked_suffix call es)
    · exact absurd hrefused (hfound.not_refused hbase hasked htarget hmem)

end Law

/-- The write is answered with an error although it took effect, the reload shows that, and the
cache raises: the record is served, and the success carries the warning. -/
theorem failed_commit_changes_nothing_reconciled : ∃ s' es o,
    CommitLaw (.publish 1 exampleDraft "v2" "policy-admin") ⟨seedDocument.active, true, none⟩ es o
      s' ∧ s'.active.version = 2 ∧ ∃ r, o = .ok r ∧ r.warnings = ["policy cache degraded"] := by
  obtain ⟨d, hb, hext⟩ := buildDocument_ok ⟨1, exampleDraft, "v2", "policy-admin", none⟩
    seedDocument 0 (by decide) (by decide) (by simp)
  have hexit : CommitExit ⟨1, exampleDraft, "v2", "policy-admin", none⟩
      ⟨seedDocument.active, true, none⟩ _ _ _ :=
    @CommitExit.reconciled _ _ "Kubernetes policy ConfigMap request failed" ⟨d, 2⟩
      (.error (.cacheError "connection refused")) _ ⟨⟨seedDocument, 1⟩, 0, d, rfl, hb⟩ rfl
      (Or.inl rfl)
  refine ⟨_, _, _, failed_commit_changes_nothing (.publish 1 exampleDraft "v2" "policy-admin")
    (runsWith_commit.mpr hexit), ?_, _, rfl, rfl⟩
  exact hext.version

end PolyGate.Automation.FailedCommit
