import Mathlib.Data.List.MinMax
import Mathlib.Data.Rat.Floor
import PolyGate.Automation.Redis

/-!
# `Automation/RedisStore.lean` — `RedisAutomationStore`

`automation/app/redis_store.py`, method by method, as programs over Redis commands. Between two
commands anything else may touch Redis: whether a method runs alone or beside others is decided
by the semantics it is given, not by its text.

Beside Redis a program uses its own process: the wall clock, `uuid4`, the HTTP client and the
in-memory retry counter of the worker. Those are commands too (`Cmd`), so that their answers can
be anything the outside allows.
-/

namespace PolyGate.Automation

open Lib

/-- An HTTP response as `execute_job` looks at it: the status code, what `resp.json()` yields
(the parsed object, or the text of the `ValueError`), and the text of the error
`raise_for_status()` would raise. -/
structure Response where
  statusCode : Nat
  json : Except String JsonText
  statusText : String

/-- The exceptions that reach the store's and the worker's code, with what `str(exc)` gives. -/
inductive PyExc
  | redisError (msg : String)
  | runtimeError (msg : String)
  | valueError (msg : String)
  | httpStatusError (statusCode : Nat) (msg : String)
  | transportError (msg : String)
  deriving DecidableEq, Repr

def PyExc.str : PyExc → String
  | .redisError msg | .runtimeError msg | .valueError msg | .httpStatusError _ msg
  | .transportError msg => msg

inductive Cmd
  | redis (c : RedisCmd)
  /-- `time.time()` and `datetime.now(UTC)` -/
  | now
  /-- `"job_" + uuid.uuid4().hex` -/
  | newJobId
  /-- `client.post(f"{GATEWAY_URL}/v1/chat/completions", json=payload)` -/
  | post (payload : GatewayRequest)
  /-- `_retry_counts.get(job_id, 0)` -/
  | getRetryCount (jobId : JobId)
  /-- `_retry_counts[job_id] = n` -/
  | setRetryCount (jobId : JobId) (n : Nat)

@[reducible] def Cmd.Reply : Cmd → Type
  | .redis c => c.Reply
  | .now => Time
  | .newJobId => JobId
  | .post _ => Response
  | .getRetryCount _ => Nat
  | .setRetryCount .. => Unit

/-- A method of the store, or code of the worker around it. -/
abbrev Store (α : Type) := Prog Cmd Cmd.Reply PyExc α

/-- One Redis round trip. -/
abbrev redis (c : RedisCmd) : Store c.Reply := Prog.perform (Cmd.redis c)

abbrev timeNow : Store Time := Prog.perform Cmd.now

abbrev newJobId : Store JobId := Prog.perform Cmd.newJobId

/-! ## Scheduling arithmetic -/

def defaultQueuePolicy : QueuePolicy where
  waitingBonusIntervalSeconds := 5
  waitingBonusPoints := 1
  waitingBonusCap := 30
  starvationStreakThreshold := 3
  starvationWaitSeconds := 20
  interval_bounds := by decide
  points_le := by decide
  cap_le := by decide
  threshold_bounds := by decide
  wait_bounds := by decide

/-- `waiting_bonus`: `points` for every full interval waited, at most `cap`. -/
def waitingBonus (waitedSeconds : Time) (policy : QueuePolicy) : Nat :=
  let intervals := (max 0 waitedSeconds / policy.waitingBonusIntervalSeconds).floor.toNat
  min policy.waitingBonusCap (policy.waitingBonusPoints * intervals)

/-- `_CRITICAL_HIGH` -/
def Urgency.criticalHigh : Urgency → Bool
  | .critical | .high => true
  | .normal | .low => false

/-- One entry of `candidates` in `claim_next_job`. -/
structure Candidate where
  jobId : JobId
  record : JobRecord
  priorityClass : Urgency
  effectivePriority : Int
  createdTs : Time
  waited : Time
  deriving DecidableEq, Repr

def candidate (policy : QueuePolicy) (now : Time) (jobId : JobId) (record : JobRecord) :
    Candidate where
  jobId := jobId
  record := record
  priorityClass := record.priority.cls
  effectivePriority :=
    record.priority.initialScore + waitingBonus (now - record.createdAt) policy
  createdTs := record.createdAt
  waited := now - record.createdAt

/-- The normal and low candidates that have waited `starvation_wait_seconds`. -/
def starved (policy : QueuePolicy) (candidates : List Candidate) : List Candidate :=
  candidates.filter fun c =>
    !c.priorityClass.criticalHigh && decide ((policy.starvationWaitSeconds : ℚ) ≤ c.waited)

/-- The computable order, which Mathlib has beside a complete one that is not. -/
local instance (priority := high) intPartialOrder : PartialOrder Int :=
  Int.instLinearOrder.toPartialOrder

/-- `max(candidates, key=lambda c: (c[3], -c[4]))`: highest effective priority, and among
equals the oldest. -/
def pickByPriority (candidates : List Candidate) : Option Candidate :=
  candidates.argmax fun c => toLex (c.effectivePriority, -c.createdTs)

/-- The forced pick once the streak has reached its threshold, else the ordinary one. -/
def choose (policy : QueuePolicy) (streak : Nat) (candidates : List Candidate) :
    Option Candidate :=
  if policy.starvationStreakThreshold ≤ streak then
    match (starved policy candidates).argmax (·.waited) with
    | some c => some c
    | none => pickByPriority candidates
  else pickByPriority candidates

theorem pickByPriority_mem {candidates : List Candidate} {c : Candidate}
    (h : pickByPriority candidates = some c) : c ∈ candidates := List.argmax_mem h

theorem starved_subset {policy : QueuePolicy} {candidates : List Candidate} {c : Candidate}
    (h : c ∈ starved policy candidates) : c ∈ candidates := List.mem_of_mem_filter h

theorem choose_mem {policy : QueuePolicy} {streak : Nat} {candidates : List Candidate}
    {c : Candidate} (h : choose policy streak candidates = some c) : c ∈ candidates := by
  unfold choose at h
  split at h
  · split at h
    · rename_i c' hc'
      cases h
      exact starved_subset (List.argmax_mem hc')
    · exact pickByPriority_mem h
  · exact pickByPriority_mem h

/-- A single candidate is chosen, by either rule. -/
theorem choose_singleton (policy : QueuePolicy) (streak : Nat) (c : Candidate) :
    choose policy streak [c] = some c := by
  have hpick : pickByPriority [c] = some c := List.argmax_singleton
  unfold choose
  split
  · split
    · rename_i c' hc'
      have hmem := starved_subset (List.argmax_mem hc')
      rw [List.mem_singleton] at hmem
      rw [hmem]
    · exact hpick
  · exact hpick

/-! ## Previews and jobs -/

def savePreview (preview : PreviewResponse) : Store Unit := redis (.setPreview preview)

def getPreview (previewId : String) : Store (Option PreviewResponse) :=
  redis (.getPreview previewId)

def getJob (jobId : JobId) : Store (Option JobRecord) := redis (.getJob jobId)

/-- The `JobRecord(...)` of `enqueue`. -/
def newRecord (preview : PreviewResponse) (jobId : JobId) (pendingCount : Nat)
    (createdAt : Time) : JobRecord where
  jobId := jobId
  status := .queued
  priority := preview.priority
  queuePosition := pendingCount + 1
  createdAt := createdAt
  startedAt := none
  completedAt := none
  result := none
  error := none
  policyVersion := preview.policyVersion

/-- The part of `enqueue` that both branches end in: the record and the pipeline. -/
def enqueueNew (preview : PreviewResponse) (jobId : JobId) : Store JobRecord := do
  let pendingCount : Nat ← redis .scardPending
  let createdAt ← timeNow
  let record := newRecord preview jobId pendingCount createdAt
  redis (.enqueuePipeline record preview.gatewayRequest)
  return record

/-- The rest of `enqueue` once `SET NX` found the key taken. -/
def enqueueExisting (preview : PreviewResponse) (idempotencyKey : String) :
    Store JobRecord := do
  let existingId : Option JobId ← redis (.getIdempotency idempotencyKey)
  let existing ← match existingId with
    | some id => getJob id
    | none => pure none
  match existing with
  | some record => return record
  | none =>
    -- the pointer is there but the job is not: taken for a submission that crashed half-way
    let jobId ← newJobId
    redis (.setIdempotency idempotencyKey jobId)
    enqueueNew preview jobId

def enqueue (preview : PreviewResponse) (idempotencyKey : String) : Store JobRecord := do
  let jobId ← newJobId
  let created : Bool ← redis (.setNxIdempotency idempotencyKey jobId)
  if created then enqueueNew preview jobId else enqueueExisting preview idempotencyKey

/-- The loop of `list_jobs` over the members of the index, with the records found so far. -/
def collectRecords (status : Option JobState) (limit : Nat) :
    List JobId → List JobRecord → Store (List JobRecord)
  | [], records => return records
  | jobId :: rest, records => do
    match ← getJob jobId with
    | none => collectRecords status limit rest records
    | some record =>
      if status.any (record.status ≠ ·) then collectRecords status limit rest records
      else
        let records := records ++ [record]
        if limit ≤ records.length then return records
        else collectRecords status limit rest records

def listJobs (status : Option JobState) (limit : Nat) : Store (List JobRecord) := do
  let jobIds : List JobId ← redis .zrevrangeIndex
  collectRecords status limit jobIds []

def saveJob (record : JobRecord) : Store Unit := redis (.setJob record)

def getExecutionPayload (jobId : JobId) : Store (Option GatewayRequest) :=
  redis (.getPayload jobId)

def clearExecutionPayload (jobId : JobId) : Store Unit := redis (.delPayload jobId)

theorem makePreview_latency : 1 ≤ 5000 ∧ 5000 ≤ 120000 := by decide

/-- The preview of the store's tests (`_make_preview`): a short prompt at the cheap tier. -/
def makePreview (previewId : String) (priorityClass : Urgency) (initialScore : Int) :
    PreviewResponse :=
  let prefs : Preferences :=
    ⟨.cheap, .standard, 1, 5000, by decide +kernel, makePreview_latency⟩
  { previewId := previewId
    expiresInSeconds := 900
    normalizedIntent :=
      ⟨"tester", .engineering, .productionIncident, priorityClass, "test", prefs, by decide,
        by decide⟩
    priority := ⟨priorityClass, initialScore, "test"⟩
    gatewayRequest := ⟨"auto", [⟨"user", "test " ++ previewId⟩], prefs⟩
    snippets := ⟨"\x7b\x7d", "curl ...", "print(1)"⟩
    policyAdjustments := []
    policyVersion := none }

/-! ## The queue -/

/-- The loop of `claim_next_job` over the members read from the pending set: a member whose
record is missing or not queued is dropped from the set, the others become candidates. -/
def collectCandidates (policy : QueuePolicy) (now : Time) : List JobId → Store (List Candidate)
  | [] => pure []
  | jobId :: rest => do
    match ← getJob jobId with
    | some record =>
      if record.status = .queued then
        let others ← collectCandidates policy now rest
        return candidate policy now jobId record :: others
      else
        let _ ← redis (.sremPending jobId)
        collectCandidates policy now rest
    | none =>
      let _ ← redis (.sremPending jobId)
      collectCandidates policy now rest

/-- The chosen job's record is written as running, and then its lease is taken. -/
def leaseJob (leaseSeconds : Int) (chosen : Candidate) : Store JobRecord := do
  let startedAt ← timeNow
  let record := { chosen.record with status := .running, startedAt := some startedAt }
  saveJob record
  let now ← timeNow
  redis (.zaddLease chosen.jobId (now + leaseSeconds))
  return record

/-- What follows a successful `SREM` of the chosen job: streak, record, lease. -/
def startJob (leaseSeconds : Int) (chosen : Candidate) : Store JobRecord := do
  if chosen.priorityClass.criticalHigh then redis .incrStreak else redis (.setStreak 0)
  leaseJob leaseSeconds chosen

def claimNextJob (leaseSeconds : Int) (queuePolicy : Option QueuePolicy) :
    Store (Option JobRecord) := do
  let policy := queuePolicy.getD defaultQueuePolicy
  let pendingIds : List JobId ← redis .smembersPending
  if pendingIds.isEmpty then return none
  let now ← timeNow
  let candidates ← collectCandidates policy now pendingIds
  if candidates.isEmpty then return none
  let streak : Option Nat ← redis .getStreak
  match choose policy (streak.getD 0) candidates with
  | none => return none
  | some chosen =>
    let removed : Bool ← redis (.sremPending chosen.jobId)
    if removed then
      let record ← startJob leaseSeconds chosen
      return some record
    else return none

def renewLease (jobId : JobId) (leaseSeconds : Int) : Store Unit := do
  let now ← timeNow
  redis (.zaddLease jobId (now + leaseSeconds))

/-- The common body of `complete_job` and `fail_job`: `finish` is what they write. -/
def finishJob (jobId : JobId) (finish : JobRecord → Time → JobRecord) : Store Unit := do
  match ← getJob jobId with
  | none => return ()
  | some record =>
    let completedAt ← timeNow
    saveJob (finish record completedAt)
    redis (.zremLease jobId)
    clearExecutionPayload jobId

def completeJob (jobId : JobId) (result : JsonText) : Store Unit :=
  finishJob jobId fun record completedAt =>
    { record with status := .completed, completedAt := some completedAt, result := some result }

def failJob (jobId : JobId) (error : String) : Store Unit :=
  finishJob jobId fun record completedAt =>
    { record with status := .failed, completedAt := some completedAt, error := some error }

def requeueJob (jobId : JobId) : Store Unit := do
  match ← getJob jobId with
  | none => return ()
  | some record =>
    saveJob { record with status := .queued }
    redis (.zremLease jobId)
    redis (.saddPending jobId)

def requeueAll : List JobId → Store Unit
  | [] => pure ()
  | jobId :: rest => do
    requeueJob jobId
    requeueAll rest

def reapExpiredLeases : Store (List JobId) := do
  let now ← timeNow
  let jobIds : List JobId ← redis (.zrangeLeases 0 now)
  requeueAll jobIds
  return jobIds

def queueDepth : Store Nat := redis .scardPending

def inFlightCount : Store Nat := redis .zcardLeases

end PolyGate.Automation
