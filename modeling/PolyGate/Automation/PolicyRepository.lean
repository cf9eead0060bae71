import PolyGate.Automation.PolicyModels

/-!
# `Automation/PolicyRepository.lean` — where the policy document is kept

`automation/app/policy_repository.py`: the exceptions, the snapshot a read returns, and the
in-memory repository. A revision is the number in `rev-N`; revisions are only ever compared.
-/

namespace PolyGate.Automation

/-- The number in a `rev-N` stamp. -/
abbrev Revision := Nat

/-- What publishing and rolling back raise. `RepositoryCorrupt` is a `RepositoryUnavailable` and
`RepositoryConflict` a `PolicyConflict`, caught as such. -/
inductive PolicyExc
  | policyConflict (msg : String)
  /-- the manager's own `PolicyConflictError`, a `PolicyConflict` -/
  | policyConflictError (msg : String)
  | repositoryUnavailable (msg : String)
  | policyVersionNotFound (msg : String)
  /-- pydantic's `ValidationError`, with the model it is about -/
  | validationError (title : String) (e : ValidationError)
  /-- whatever a cache raises -/
  | cacheError (msg : String)
  deriving DecidableEq, Repr

structure RepositorySnapshot where
  document : PolicyStoreDocument
  revision : Revision
  deriving DecidableEq

/-- `InMemoryPolicyRepository` -/
structure InMemoryPolicyRepository where
  document : PolicyStoreDocument
  revisionCounter : Nat

namespace InMemoryPolicyRepository

def new (document : PolicyStoreDocument) : InMemoryPolicyRepository := ⟨document, 1⟩

def load (r : InMemoryPolicyRepository) : RepositorySnapshot := ⟨r.document, r.revisionCounter⟩

/-- The repository after an accepted write. -/
def written (r : InMemoryPolicyRepository) (document : PolicyStoreDocument) :
    InMemoryPolicyRepository := ⟨document, r.revisionCounter + 1⟩

def compareAndSwap (r : InMemoryPolicyRepository) (document : PolicyStoreDocument)
    (expectedRevision : Revision) :
    Except PolicyExc RepositorySnapshot × InMemoryPolicyRepository :=
  if expectedRevision ≠ r.revisionCounter then
    (.error (.policyConflict ("expected revision 'rev-" ++ toString expectedRevision ++
      "' but current is 'rev-" ++ toString r.revisionCounter ++ "'")), r)
  else (.ok (r.written document).load, r.written document)

@[simp] theorem load_document (r : InMemoryPolicyRepository) : r.load.document = r.document := rfl
@[simp] theorem load_revision (r : InMemoryPolicyRepository) :
    r.load.revision = r.revisionCounter := rfl
@[simp] theorem written_document (r : InMemoryPolicyRepository) (d : PolicyStoreDocument) :
    (r.written d).document = d := rfl
@[simp] theorem written_revisionCounter (r : InMemoryPolicyRepository)
    (d : PolicyStoreDocument) : (r.written d).revisionCounter = r.revisionCounter + 1 := rfl

@[simp] theorem compareAndSwap_current (r : InMemoryPolicyRepository) (d : PolicyStoreDocument) :
    r.compareAndSwap d r.revisionCounter = (.ok (r.written d).load, r.written d) := by
  simp [compareAndSwap]

end InMemoryPolicyRepository

end PolyGate.Automation
