import Mathlib.Data.Finset.Card
import Mathlib.Data.String.Basic
import PolyGate.Lib.Prog
import PolyGate.Lib.ZSet
import PolyGate.Automation.PolicyModels

/-!
# `Automation/Redis.lean` — the shared Redis state and the commands sent to it

The keys of `redis_store.py`, one field per key family (`automation:job:{id}` is `jobs id`, and
so on). The families have different prefixes, so no key of one is a key of another, whatever the
caller puts behind the prefix. A record is only ever written under its own id
(`self._k("job", record.job_id)`); that is the field `jobs_key`.

`RedisCmd` lists the commands the store sends, `Redis.Answers` what each one answers and leaves
behind. Every command is deterministic except `SMEMBERS`, whose reply is a Python `set`: any
enumeration of the members is an allowed answer. Keys do not expire.
-/

namespace PolyGate.Automation

open Lib

structure Redis where
  previews : String → Option PreviewResponse
  jobs : JobId → Option JobRecord
  payloads : JobId → Option GatewayRequest
  idempotency : String → Option JobId
  pending : Finset JobId
  leases : ZSet JobId Time
  streak : Option Nat
  index : ZSet JobId Time
  jobs_key : ∀ id r, jobs id = some r → r.jobId = id

namespace Redis

def empty : Redis where
  previews _ := none
  jobs _ := none
  payloads _ := none
  idempotency _ := none
  pending := ∅
  leases := .empty
  streak := none
  index := .empty
  jobs_key _ _ h := by cases h

/-- `SET automation:job:{record.job_id}` -/
def setJob (r : Redis) (record : JobRecord) : Redis where
  previews := r.previews
  jobs := Function.update r.jobs record.jobId (some record)
  payloads := r.payloads
  idempotency := r.idempotency
  pending := r.pending
  leases := r.leases
  streak := r.streak
  index := r.index
  jobs_key id rec h := by
    rcases eq_or_ne id record.jobId with rfl | hne
    · rw [Function.update_self] at h
      cases h
      rfl
    · rw [Function.update_of_ne hne] at h
      exact r.jobs_key id rec h

@[simp] theorem setJob_self (r : Redis) (record : JobRecord) :
    (r.setJob record).jobs record.jobId = some record := Function.update_self ..

theorem setJob_of_ne (r : Redis) (record : JobRecord) {id : JobId} (h : id ≠ record.jobId) :
    (r.setJob record).jobs id = r.jobs id := Function.update_of_ne h ..

/-- The stored status of a job. -/
def statusOf (r : Redis) (id : JobId) : Option JobState := (r.jobs id).map (·.status)

@[simp] theorem statusOf_setJob_self (r : Redis) (record : JobRecord) :
    (r.setJob record).statusOf record.jobId = some record.status := by
  simp [statusOf]

theorem statusOf_setJob_of_ne (r : Redis) (record : JobRecord) {id : JobId}
    (h : id ≠ record.jobId) : (r.setJob record).statusOf id = r.statusOf id := by
  simp [statusOf, r.setJob_of_ne record h]

@[simp] theorem setJob_pending (r : Redis) (record : JobRecord) :
    (r.setJob record).pending = r.pending := rfl
@[simp] theorem setJob_leases (r : Redis) (record : JobRecord) :
    (r.setJob record).leases = r.leases := rfl
@[simp] theorem setJob_idempotency (r : Redis) (record : JobRecord) :
    (r.setJob record).idempotency = r.idempotency := rfl
@[simp] theorem setJob_streak (r : Redis) (record : JobRecord) :
    (r.setJob record).streak = r.streak := rfl

/-- `SET automation:idempotency:{key}` -/
def setIdempotency (r : Redis) (key : String) (id : JobId) : Redis :=
  { r with idempotency := Function.update r.idempotency key (some id) }

@[simp] theorem setIdempotency_self (r : Redis) (key : String) (id : JobId) :
    (r.setIdempotency key id).idempotency key = some id := Function.update_self ..
@[simp] theorem setIdempotency_jobs (r : Redis) (key : String) (id : JobId) :
    (r.setIdempotency key id).jobs = r.jobs := rfl
@[simp] theorem setIdempotency_pending (r : Redis) (key : String) (id : JobId) :
    (r.setIdempotency key id).pending = r.pending := rfl
@[simp] theorem setIdempotency_leases (r : Redis) (key : String) (id : JobId) :
    (r.setIdempotency key id).leases = r.leases := rfl

/-- The `MULTI/EXEC` pipeline of `enqueue`: record, payload, pending set and index at once. -/
def enqueuePipeline (r : Redis) (record : JobRecord) (payload : GatewayRequest) : Redis :=
  { r.setJob record with
    payloads := Function.update r.payloads record.jobId (some payload)
    pending := insert record.jobId r.pending
    index := r.index.add record.jobId record.createdAt }

@[simp] theorem enqueuePipeline_jobs (r : Redis) (record : JobRecord) (payload : GatewayRequest) :
    (r.enqueuePipeline record payload).jobs = (r.setJob record).jobs := rfl
@[simp] theorem enqueuePipeline_pending (r : Redis) (record : JobRecord)
    (payload : GatewayRequest) :
    (r.enqueuePipeline record payload).pending = insert record.jobId r.pending := rfl
@[simp] theorem enqueuePipeline_leases (r : Redis) (record : JobRecord)
    (payload : GatewayRequest) : (r.enqueuePipeline record payload).leases = r.leases := rfl
@[simp] theorem enqueuePipeline_idempotency (r : Redis) (record : JobRecord)
    (payload : GatewayRequest) :
    (r.enqueuePipeline record payload).idempotency = r.idempotency := rfl
@[simp] theorem enqueuePipeline_streak (r : Redis) (record : JobRecord)
    (payload : GatewayRequest) : (r.enqueuePipeline record payload).streak = r.streak := rfl

end Redis

/-- The commands `RedisAutomationStore` sends. -/
inductive RedisCmd
  | setPreview (preview : PreviewResponse)
  | getPreview (previewId : String)
  | setNxIdempotency (key : String) (jobId : JobId)
  | getIdempotency (key : String)
  | setIdempotency (key : String) (jobId : JobId)
  | getJob (jobId : JobId)
  | setJob (record : JobRecord)
  | enqueuePipeline (record : JobRecord) (payload : GatewayRequest)
  | getPayload (jobId : JobId)
  | delPayload (jobId : JobId)
  | scardPending
  | smembersPending
  | saddPending (jobId : JobId)
  | sremPending (jobId : JobId)
  | getStreak
  | incrStreak
  | setStreak (n : Nat)
  | zaddLease (jobId : JobId) (score : Time)
  | zremLease (jobId : JobId)
  | zrangeLeases (lo hi : Time)
  | zcardLeases
  | zrevrangeIndex
  deriving DecidableEq

@[reducible] def RedisCmd.Reply : RedisCmd → Type
  | .getPreview _ => Option PreviewResponse
  | .setNxIdempotency .. | .sremPending _ => Bool
  | .getIdempotency _ => Option JobId
  | .getJob _ => Option JobRecord
  | .getPayload _ => Option GatewayRequest
  | .scardPending | .zcardLeases => Nat
  | .smembersPending | .zrangeLeases .. | .zrevrangeIndex => List JobId
  | .getStreak => Option Nat
  | _ => Unit

/-- `r.Answers c v r'`: in state `r` the command `c` is answered `v` and leaves `r'`. -/
def Redis.Answers (r : Redis) : (c : RedisCmd) → c.Reply → Redis → Prop
  | .setPreview p, _, r' =>
      r' = { r with previews := Function.update r.previews p.previewId (some p) }
  | .getPreview id, v, r' => v = r.previews id ∧ r' = r
  | .setNxIdempotency key id, v, r' =>
      match r.idempotency key with
      | none => v = true ∧ r' = r.setIdempotency key id
      | some _ => v = false ∧ r' = r
  | .getIdempotency key, v, r' => v = r.idempotency key ∧ r' = r
  | .setIdempotency key id, _, r' => r' = r.setIdempotency key id
  | .getJob id, v, r' => v = r.jobs id ∧ r' = r
  | .setJob record, _, r' => r' = r.setJob record
  | .enqueuePipeline record payload, _, r' => r' = r.enqueuePipeline record payload
  | .getPayload id, v, r' => v = r.payloads id ∧ r' = r
  | .delPayload id, _, r' => r' = { r with payloads := Function.update r.payloads id none }
  | .scardPending, v, r' => v = r.pending.card ∧ r' = r
  | .smembersPending, (v : List JobId), r' => (v.Nodup ∧ v.toFinset = r.pending) ∧ r' = r
  | .saddPending id, _, r' => r' = { r with pending := insert id r.pending }
  | .sremPending id, v, r' =>
      v = decide (id ∈ r.pending) ∧ r' = { r with pending := r.pending.erase id }
  | .getStreak, v, r' => v = r.streak ∧ r' = r
  | .incrStreak, _, r' => r' = { r with streak := some (r.streak.getD 0 + 1) }
  | .setStreak n, _, r' => r' = { r with streak := some n }
  | .zaddLease id score, _, r' => r' = { r with leases := r.leases.add id score }
  | .zremLease id, _, r' => r' = { r with leases := r.leases.rem id }
  | .zrangeLeases lo hi, v, r' => v = r.leases.rangeByScore lo hi ∧ r' = r
  | .zcardLeases, v, r' => v = r.leases.members.length ∧ r' = r
  | .zrevrangeIndex, v, r' => v = r.index.members.reverse ∧ r' = r

end PolyGate.Automation
