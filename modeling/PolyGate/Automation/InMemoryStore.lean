import PolyGate.Lib.Dict
import PolyGate.Automation.RedisStore

/-!
# `Automation/InMemoryStore.lean` — `InMemoryAutomationStore`

`automation/app/store.py`, method by method, as functions of the three dictionaries. `enqueue` is
given what `uuid4` and the clock say.
-/

namespace PolyGate.Automation

open Lib

/-- `KeyError` -/
inductive KeyError | keyError (key : String)

structure InMemoryAutomationStore where
  previews : Dict String PreviewResponse
  jobs : Dict JobId JobRecord
  idempotency : Dict String JobId

namespace InMemoryAutomationStore

/-- `__init__` -/
def new : InMemoryAutomationStore := ⟨.empty, .empty, .empty⟩

variable (store : InMemoryAutomationStore)

def savePreview (preview : PreviewResponse) : InMemoryAutomationStore :=
  { store with previews := store.previews.set preview.previewId preview }

def getPreview (previewId : String) : Option PreviewResponse := store.previews.get? previewId

/-- `sum(job.status == JobState.queued for job in self.jobs.values())` -/
def queuedCount : Nat := store.jobs.values.countP (·.status = .queued)

def enqueue (preview : PreviewResponse) (idempotencyKey : String) (jobId : JobId)
    (createdAt : Time) : Except KeyError (JobRecord × InMemoryAutomationStore) :=
  match store.idempotency.get? idempotencyKey with
  | some existingId =>
    match store.jobs.get? existingId with
    | some record => .ok (record, store)
    | none => .error (.keyError existingId)
  | none =>
    let record := newRecord preview jobId store.queuedCount createdAt
    .ok (record, { store with
      jobs := store.jobs.set record.jobId record
      idempotency := store.idempotency.set idempotencyKey record.jobId })

def getJob (jobId : JobId) : Option JobRecord := store.jobs.get? jobId

/-- `sorted(…, key=lambda job: job.created_at, reverse=True)`, which is stable. -/
def newestFirst : List JobRecord := store.jobs.values.mergeSort fun a b => b.createdAt ≤ a.createdAt

def listJobs (status : Option JobState) (limit : Nat) : List JobRecord :=
  let records := store.newestFirst
  let records := match status with
    | none => records
    | some status => records.filter (·.status = status)
  records.take limit

end InMemoryAutomationStore

end PolyGate.Automation
