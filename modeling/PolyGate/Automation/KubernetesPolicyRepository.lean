import PolyGate.Automation.PolicyRepository

/-!
# `Automation/KubernetesPolicyRepository.lean` — the repository behind the Kubernetes API

`automation/app/kubernetes_policy_repository.py`, from what comes back of a request to what the
manager sees. Every way for a reply not to arrive or not to be understood is a
`RepositoryUnavailable`; only the status 409 is a conflict.
-/

namespace PolyGate.Automation.Kubernetes

/-- A member of a JSON object where a string is expected. -/
inductive Member (α : Type)
  | missing
  | notString
  | string (a : α)

/-- The body of a response, by what `_json_object`, `load` and `compare_and_swap` look at: the
`resourceVersion`, and the serialized document with what parsing it gives. -/
inductive Body
  | malformed
  | notObject
  | object (resourceVersion : Member Revision) (document : Member (Option PolicyStoreDocument))

/-- What becomes of a request. -/
inductive HttpReply
  /-- the service account token could not be read, so nothing was sent -/
  | noToken
  /-- `httpx.HTTPError` -/
  | httpError
  | response (status : Nat) (body : Body)

/-- `_request` -/
def request : HttpReply → Except PolicyExc Body
  | .noToken => .error (.repositoryUnavailable "Kubernetes service account token is unavailable")
  | .httpError => .error (.repositoryUnavailable "Kubernetes policy ConfigMap request failed")
  | .response status body =>
    if status = 409 then
      .error (.policyConflict "Kubernetes policy ConfigMap revision conflict")
    else if 400 ≤ status then
      .error (.repositoryUnavailable "Kubernetes policy ConfigMap is unavailable")
    else .ok body

/-- `_json_object` -/
def jsonObject : Body → Except PolicyExc (Member Revision × Member (Option PolicyStoreDocument))
  | .malformed => .error (.repositoryUnavailable "Kubernetes API returned malformed JSON")
  | .notObject =>
    .error (.repositoryUnavailable "Kubernetes API returned a non-object JSON payload")
  | .object revision document => .ok (revision, document)

def load (reply : HttpReply) : Except PolicyExc RepositorySnapshot := do
  let body ← request reply
  match ← jsonObject body with
  | (.missing, _) | (_, .missing) =>
    throw (.repositoryUnavailable "ConfigMap does not contain a complete policy document")
  | (.notString, _) | (_, .notString) =>
    throw (.repositoryUnavailable "ConfigMap policy document has invalid metadata")
  | (.string _, .string none) =>
    throw (.repositoryUnavailable "ConfigMap policy document is malformed")
  | (.string revision, .string (some document)) => return ⟨document, revision⟩

def compareAndSwap (document : PolicyStoreDocument) (reply : HttpReply) :
    Except PolicyExc RepositorySnapshot := do
  let body ← request reply
  match ← jsonObject body with
  | (.missing, _) =>
    throw (.repositoryUnavailable "ConfigMap update response has no resourceVersion")
  | (.notString, _) =>
    throw (.repositoryUnavailable "ConfigMap update response has invalid resourceVersion")
  | (.string revision, _) => return ⟨document, revision⟩

/-- A reply that is not a conflict. -/
def HttpReply.NoConflict (reply : HttpReply) : Prop := ∀ body, reply ≠ .response 409 body

/-- Nothing but a conflict is reported as one. -/
theorem request_error {reply : HttpReply} {e : PolicyExc} (h : request reply = .error e)
    (hc : reply.NoConflict) : ∃ msg, e = .repositoryUnavailable msg := by
  cases reply with
  | noToken | httpError =>
    cases h
    exact ⟨_, rfl⟩
  | response status body =>
    simp only [request] at h
    split_ifs at h with h409
    · exact absurd (h409 ▸ rfl) (hc body)
    · cases h
      exact ⟨_, rfl⟩

theorem compareAndSwap_error {d : PolicyStoreDocument} {reply : HttpReply} {e : PolicyExc}
    (h : compareAndSwap d reply = .error e) (hc : reply.NoConflict) :
    ∃ msg, e = .repositoryUnavailable msg := by
  unfold compareAndSwap at h
  cases hr : request reply with
  | error e' =>
    rw [hr] at h
    cases h
    exact request_error hr hc
  | ok body =>
    rw [hr] at h
    cases body with
    | malformed | notObject =>
      cases h
      exact ⟨_, rfl⟩
    | object revision document =>
      cases revision <;> cases h <;> exact ⟨_, rfl⟩

theorem load_error {reply : HttpReply} {e : PolicyExc} (h : load reply = .error e)
    (hc : reply.NoConflict) : ∃ msg, e = .repositoryUnavailable msg := by
  unfold load at h
  cases hr : request reply with
  | error e' =>
    rw [hr] at h
    cases h
    exact request_error hr hc
  | ok body =>
    rw [hr] at h
    cases body with
    | malformed | notObject =>
      cases h
      exact ⟨_, rfl⟩
    | object revision document =>
      cases revision <;> rcases document with _ | _ | (_ | _) <;> cases h <;> exact ⟨_, rfl⟩

/-- What the manager is given back of a write is what it handed over. -/
theorem compareAndSwap_document {d : PolicyStoreDocument} {reply : HttpReply}
    {snapshot : RepositorySnapshot} (h : compareAndSwap d reply = .ok snapshot) :
    snapshot.document = d := by
  unfold compareAndSwap at h
  cases hr : request reply with
  | error e =>
    rw [hr] at h
    cases h
  | ok body =>
    rw [hr] at h
    cases body with
    | malformed | notObject => cases h
    | object revision document =>
      cases revision <;> cases h
      rfl

end PolyGate.Automation.Kubernetes
