import PolyGate.Lib.Prog
import PolyGate.Automation.PolicyRepository

/-!
# `Automation/PolicyManager.lean` — publishing and rolling back a policy

`automation/app/policy_manager.py`. A call is a program over the repository, the clock, the two
attributes of the manager and the cache, so the same text can be run alone against a repository
that fails (`Service.does`), beside other calls, or against a server that answers late.

`_commit` builds the next document from the one it loaded, hands it over, and, when the write
fails without saying whether it took effect, loads once more to find out.
-/

namespace PolyGate.Automation

open Lib

/-! ## The next document -/

/-- `MAX_VERSIONS` -/
def maxVersions : Nat := 20

/-- The loop of `_commit` over the loaded records: what was active is archived. -/
def PolicyVersion.retire (v : PolicyVersion) : PolicyVersion :=
  if v.status = .active then v.archive else v

/-- Down to `MAX_VERSIONS` records, dropping the oldest archived ones. -/
def truncateVersions (versions : List PolicyVersion) : List PolicyVersion :=
  if maxVersions < versions.length then
    let archived := (versions.filter (·.status = .archived)).mergeSort (·.version ≤ ·.version)
    let toDrop := versions.length - maxVersions
    let dropVersions := (archived.take toDrop).map (·.version)
    versions.filter (·.version ∉ dropVersions)
  else versions

/-- The arguments of `_commit`. -/
structure CommitArgs where
  baseVersion : Int
  draft : PolicyDraft
  changeNote : String
  actor : String
  rollbackFrom : Option Int

/-- The record and the document `_commit` constructs; either constructor may refuse. -/
def buildDocument (args : CommitArgs) (document : PolicyStoreDocument) (now : Time) :
    Except PolicyExc PolicyStoreDocument :=
  let newVersionNum := maxVersion document.versions + 1
  match PolicyVersion.validate newVersionNum .active now args.actor args.changeNote
      args.rollbackFrom args.draft with
  | .error e => .error (.validationError "PolicyVersion" e)
  | .ok newRecord =>
    match PolicyStoreDocument.validate newVersionNum
        (truncateVersions (document.versions.map (·.retire) ++ [newRecord])) with
    | .error e => .error (.validationError "PolicyStoreDocument" e)
    | .ok newDocument => .ok newDocument

/-! ## The manager -/

inductive PolicyCmd
  | load
  | compareAndSwap (document : PolicyStoreDocument) (expectedRevision : Revision)
  /-- `datetime.now(UTC)` -/
  | now
  /-- `self._ready = …` -/
  | setReady (ready : Bool)
  /-- `self._active = …` -/
  | setActive (record : PolicyVersion)
  /-- `self._cache.set_active(…)` -/
  | cacheSetActive (response : ActivePolicyResponse)
  deriving DecidableEq

@[reducible] def PolicyCmd.Reply : PolicyCmd → Type
  | .load | .compareAndSwap _ _ => RepositorySnapshot
  | .now => Time
  | .setReady _ | .setActive _ | .cacheSetActive _ => Unit

abbrev Pm (α : Type) := Prog PolicyCmd PolicyCmd.Reply PolicyExc α

structure PublishResult where
  version : Nat
  previousVersion : Int
  rollbackFrom : Option Int
  publishedAt : Time
  warnings : List String
  deriving DecidableEq, Repr

/-- The `ActivePolicyResponse` of a record. -/
def PolicyVersion.response (record : PolicyVersion) : ActivePolicyResponse where
  version := record.version
  schemaVersion := record.policy.schemaVersion
  publishedAt := record.createdAt
  policy := record.policy

/-- `_activate_and_cache` -/
def activateAndCache (record : PolicyVersion) : Pm (List String) := do
  Prog.perform (PolicyCmd.setActive record)
  tryCatch (do
    Prog.perform (PolicyCmd.cacheSetActive record.response)
    return []) fun _ => return ["policy cache degraded"]

/-- The `except` clauses around the write. -/
def reconcile (snapshot : RepositorySnapshot) (newDocument : PolicyStoreDocument) :
    PolicyExc → Pm RepositorySnapshot
  | .policyConflict msg | .policyConflictError msg => throw (.policyConflictError msg)
  | .repositoryUnavailable _ => do
    let persisted : RepositorySnapshot ← tryCatch (Prog.perform PolicyCmd.load) fun
      | .repositoryUnavailable _ => do
        Prog.perform (PolicyCmd.setReady false)
        throw (.repositoryUnavailable "policy repository write outcome could not be reconciled")
      | e => throw e
    Prog.perform (PolicyCmd.setReady true)
    if persisted.document = newDocument then return persisted
    else if persisted.revision = snapshot.revision ∧ persisted.document = snapshot.document then
      throw (.repositoryUnavailable "policy repository write was not committed")
    else do
      let _ ← activateAndCache persisted.document.active
      throw (.policyConflictError "a different policy state was committed concurrently")
  | e => throw e

/-- What follows a write that took effect. -/
def finishCommit (args : CommitArgs) (persisted : RepositorySnapshot) : Pm PublishResult := do
  Prog.perform (PolicyCmd.setReady true)
  let durableRecord := persisted.document.active
  let warnings ← activateAndCache durableRecord
  return {
    version := durableRecord.version
    previousVersion := args.baseVersion
    rollbackFrom := durableRecord.rollbackFrom
    publishedAt := durableRecord.createdAt
    warnings := warnings }

/-- `_commit` -/
def commit (args : CommitArgs) : Pm PublishResult := do
  let snapshot : RepositorySnapshot ← Prog.perform PolicyCmd.load
  if args.baseVersion ≠ snapshot.document.activeVersion then
    throw (.policyConflictError ("base_version " ++ toString args.baseVersion ++
      " is stale; current active is " ++ toString snapshot.document.activeVersion))
  else do
    let now : Time ← Prog.perform PolicyCmd.now
    let newDocument ← Prog.ofOutcome (buildDocument args snapshot.document now)
    let persisted ← tryCatch
      (Prog.perform (PolicyCmd.compareAndSwap newDocument snapshot.revision))
      (reconcile snapshot newDocument)
    finishCommit args persisted

def publish (baseVersion : Int) (draft : PolicyDraft) (changeNote actor : String) :
    Pm PublishResult :=
  commit ⟨baseVersion, draft, changeNote, actor, none⟩

def rollback (targetVersion baseVersion : Int) (changeNote actor : String) :
    Pm PublishResult := do
  let snapshot : RepositorySnapshot ← Prog.perform PolicyCmd.load
  match snapshot.document.versions.find? (fun v => (v.version : Int) = targetVersion) with
  | none => throw (.policyVersionNotFound "policy version not found")
  | some target => commit ⟨baseVersion, target.policy, changeNote, actor, some targetVersion⟩

/-- A call of one of the two. -/
inductive PolicyCall
  | publish (baseVersion : Int) (draft : PolicyDraft) (changeNote actor : String)
  | rollback (targetVersion baseVersion : Int) (changeNote actor : String)

def PolicyCall.program : PolicyCall → Pm PublishResult
  | .publish baseVersion draft changeNote actor =>
    Automation.publish baseVersion draft changeNote actor
  | .rollback targetVersion baseVersion changeNote actor =>
    Automation.rollback targetVersion baseVersion changeNote actor

/-! ## The calls, command by command -/

/-- The warnings of a cache write that was answered `v`. -/
def cacheWarnings : Except PolicyExc Unit → List String
  | .ok _ => []
  | .error _ => ["policy cache degraded"]

theorem activateAndCache_bind {α : Type} (record : PolicyVersion) (f : List String → Pm α) :
    (activateAndCache record >>= f) =
      .cmd (.setActive record) (Prog.onReply fun _ =>
        .cmd (.cacheSetActive record.response) fun v => f (cacheWarnings v)) := by
  simp only [activateAndCache, Prog.perform_bind, Prog.cmd_bind, Prog.onReply_bind, Prog.cmd_catch]
  congr 1
  funext v
  cases v with
  | error e => rfl
  | ok x =>
    simp only [Prog.onReply_ok]
    congr 1
    funext v
    cases v <;> rfl

/-- The result of a call whose record became durable as `record`. -/
def CommitArgs.result (args : CommitArgs) (record : PolicyVersion) (warnings : List String) :
    PublishResult where
  version := record.version
  previousVersion := args.baseVersion
  rollbackFrom := record.rollbackFrom
  publishedAt := record.createdAt
  warnings := warnings

theorem finishCommit_eq (args : CommitArgs) (persisted : RepositorySnapshot) :
    finishCommit args persisted =
      .cmd (.setReady true) (Prog.onReply fun _ =>
        .cmd (.setActive persisted.document.active) (Prog.onReply fun _ =>
          .cmd (.cacheSetActive persisted.document.active.response) fun v =>
            .ret (args.result persisted.document.active (cacheWarnings v)))) := by
  simp only [finishCommit, Prog.perform_bind, activateAndCache_bind]
  rfl

/-- Once the reload has been answered. -/
def reconciled (args : CommitArgs) (snapshot : RepositorySnapshot)
    (newDocument : PolicyStoreDocument) (persisted : RepositorySnapshot) : Pm PublishResult :=
  .cmd (.setReady true) (Prog.onReply fun _ =>
    if persisted.document = newDocument then finishCommit args persisted
    else if persisted.revision = snapshot.revision ∧ persisted.document = snapshot.document then
      .raise (.repositoryUnavailable "policy repository write was not committed")
    else .cmd (.setActive persisted.document.active) (Prog.onReply fun _ =>
      .cmd (.cacheSetActive persisted.document.active.response) fun _ =>
        .raise (.policyConflictError "a different policy state was committed concurrently")))

/-- When the reload failed too. -/
def unreconciled : PolicyExc → Pm PublishResult
  | .repositoryUnavailable _ => .cmd (.setReady false) (Prog.onReply fun _ =>
    .raise (.repositoryUnavailable "policy repository write outcome could not be reconciled"))
  | e => .raise e

/-- After the write. -/
def written (args : CommitArgs) (snapshot : RepositorySnapshot)
    (newDocument : PolicyStoreDocument) : Except PolicyExc RepositorySnapshot → Pm PublishResult
  | .ok persisted => finishCommit args persisted
  | .error (.policyConflict msg) | .error (.policyConflictError msg) =>
    .raise (.policyConflictError msg)
  | .error (.repositoryUnavailable _) => .cmd .load fun v => match v with
    | .ok persisted => reconciled args snapshot newDocument persisted
    | .error e => unreconciled e
  | .error e => .raise e

theorem reconcile_bind (args : CommitArgs) (snapshot : RepositorySnapshot)
    (newDocument : PolicyStoreDocument) (e : PolicyExc) :
    (reconcile snapshot newDocument e >>= finishCommit args) =
      written args snapshot newDocument (.error e) := by
  cases e with
  | repositoryUnavailable msg =>
    simp only [reconcile, written, Prog.perform_catch, Prog.cmd_bind]
    congr 1
    funext v
    cases v with
    | ok persisted =>
      simp only [Prog.ret_bind, Prog.perform_bind, Prog.cmd_bind, Prog.onReply_bind, reconciled]
      congr 2
      funext _
      split_ifs
      · rfl
      · rfl
      · rw [Prog.bind_assoc, activateAndCache_bind]
        rfl
    | error e =>
      cases e with
      | repositoryUnavailable msg =>
        simp only [Prog.perform_bind, Prog.cmd_bind, Prog.onReply_bind, unreconciled]
        rfl
      | policyConflict | policyConflictError | policyVersionNotFound | validationError
      | cacheError => rfl
  | policyConflict | policyConflictError | policyVersionNotFound | validationError
  | cacheError => rfl

theorem commit_eq (args : CommitArgs) :
    commit args = .cmd .load (Prog.onReply fun snapshot =>
      if args.baseVersion ≠ snapshot.document.activeVersion then
        .raise (.policyConflictError ("base_version " ++ toString args.baseVersion ++
          " is stale; current active is " ++ toString snapshot.document.activeVersion))
      else .cmd .now (Prog.onReply fun now =>
        match buildDocument args snapshot.document now with
        | .error e => .raise e
        | .ok newDocument => .cmd (.compareAndSwap newDocument snapshot.revision)
            (written args snapshot newDocument))) := by
  simp only [commit, Prog.perform_bind]
  congr 2
  funext snapshot
  split_ifs
  · rfl
  · congr 2
    funext now
    cases buildDocument args snapshot.document now with
    | error e => rfl
    | ok newDocument =>
      simp only [Prog.ofOutcome, Prog.ret_bind, Prog.perform_catch, Prog.cmd_bind]
      congr 1
      funext v
      cases v with
      | ok persisted => rfl
      | error e => exact reconcile_bind args snapshot newDocument e

/-- What a call commits on top of a document, if it gets that far. -/
def PolicyCall.argsOn (d : PolicyStoreDocument) : PolicyCall → Option CommitArgs
  | .publish baseVersion draft changeNote actor =>
    some ⟨baseVersion, draft, changeNote, actor, none⟩
  | .rollback targetVersion baseVersion changeNote actor =>
    (d.versions.find? (fun v => (v.version : Int) = targetVersion)).map fun target =>
      ⟨baseVersion, target.policy, changeNote, actor, some targetVersion⟩

/-! ## One manager, its repository and its cache -/

structure Service where
  repository : InMemoryPolicyRepository
  active : PolicyVersion
  ready : Bool
  /-- the last value written to the cache -/
  cached : Option ActivePolicyResponse

/-- `PolicyManager(repository)` -/
def Service.new (repository : InMemoryPolicyRepository) : Service where
  repository := repository
  active := repository.load.document.active
  ready := true
  cached := none

/-- The record the repository holds as active. -/
def Service.durable (s : Service) : PolicyVersion := s.repository.document.active

/-- The service once a call has committed `d` and the cache has taken it. -/
def Service.committed (s : Service) (d : PolicyStoreDocument) : Service where
  repository := s.repository.written d
  active := d.active
  ready := true
  cached := some d.active.response

/-- What may fail. -/
structure Faults where
  repository : Bool
  cache : Bool

/-- What a command does to the service. A repository that fails raises `RepositoryUnavailable`;
its write, and that of a cache that fails, may have taken effect nevertheless. -/
def Service.does (faults : Faults) (s : Service) (c : PolicyCmd) (v : Except PolicyExc c.Reply)
    (s' : Service) : Prop :=
  match c, v with
  | .load, .ok (snapshot : RepositorySnapshot) => snapshot = s.repository.load ∧ s' = s
  | .load, .error e =>
    faults.repository = true ∧ (∃ msg, e = .repositoryUnavailable msg) ∧ s' = s
  | .compareAndSwap document expected, .ok (snapshot : RepositorySnapshot) =>
    (s.repository.compareAndSwap document expected).1 = .ok snapshot ∧
      s' = { s with repository := (s.repository.compareAndSwap document expected).2 }
  | .compareAndSwap document expected, .error e =>
    (s.repository.compareAndSwap document expected).1 = .error e ∧ s' = s ∨
    faults.repository = true ∧ (∃ msg, e = .repositoryUnavailable msg) ∧
      (s' = s ∨
        s' = { s with repository := (s.repository.compareAndSwap document expected).2 })
  | .now, .ok _ => s' = s
  | .setReady ready, .ok _ => s' = { s with ready := ready }
  | .setActive record, .ok _ => s' = { s with active := record }
  | .cacheSetActive response, .ok _ => s' = { s with cached := some response }
  | .cacheSetActive response, .error e =>
    faults.cache = true ∧ (∃ msg, e = .cacheError msg) ∧
      (s' = s ∨ s' = { s with cached := some response })
  | _, .error _ => False

theorem Service.does_write (faults : Faults) (s : Service) (d : PolicyStoreDocument) :
    s.does faults (.compareAndSwap d s.repository.load.revision)
      (.ok (s.repository.written d).load) { s with repository := s.repository.written d } := by
  simp [Service.does]

/-! ## A call that nothing disturbs -/

section Undisturbed

variable (faults : Faults) (s : Service) (args : CommitArgs)

/-- Up to the write, included. -/
theorem steps_write {now : Time} {d' : PolicyStoreDocument}
    (hbase : args.baseVersion = s.repository.document.activeVersion)
    (hb : buildDocument args s.repository.document now = .ok d') :
    Prog.Steps (Service.does faults) (commit args) s
      (finishCommit args (s.repository.written d').load)
      { s with repository := s.repository.written d' } := by
  rw [commit_eq]
  refine .cmd (v := .ok s.repository.load) ⟨rfl, rfl⟩ ?_
  simp only [Prog.onReply_ok, InMemoryPolicyRepository.load_document, hbase, ne_eq,
    not_true_eq_false, if_false]
  refine .cmd (v := .ok now) rfl ?_
  simp only [Prog.onReply_ok, hb]
  exact .cmd (s.does_write faults d') .refl

/-- What is left after the write. -/
theorem steps_finish (persisted : RepositorySnapshot) :
    Prog.Steps (Service.does faults) (finishCommit args persisted) s
      (.ret (args.result persisted.document.active []))
      { s with
        active := persisted.document.active
        ready := true
        cached := some persisted.document.active.response } := by
  rw [finishCommit_eq]
  exact .cmd (v := .ok ()) rfl (.cmd (v := .ok ()) rfl (.cmd (v := .ok ()) rfl .refl))

/-- Nothing failing, a commit on the current version succeeds. -/
theorem runs_commit {now : Time} {d' : PolicyStoreDocument}
    (hbase : args.baseVersion = s.repository.document.activeVersion)
    (hb : buildDocument args s.repository.document now = .ok d') :
    Prog.Runs (Service.does faults) (commit args) s (.ok (args.result d'.active []))
      (s.committed d') :=
  .of_steps (steps_write faults s args hbase hb)
    (.of_steps (steps_finish faults _ args _) ⟨rfl, rfl⟩)

end Undisturbed

end PolyGate.Automation
