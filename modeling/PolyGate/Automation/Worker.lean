import PolyGate.Lib.RelyGuarantee
import PolyGate.Automation.RedisStore

/-!
# `Automation/Worker.lean` — the worker process

`automation/app/worker.py`. A worker is a main thread, which by turns reaps expired leases and
claims a job, and one executing thread (`WORKER_CONCURRENCY` is 1), to which a claimed job is
handed. Both send single commands to the shared Redis, so a fleet of workers is a pool of
threads, two per worker, with a few transitions of its own: a thread that is idle starts its
next operation, a claimed job is handed over, a process dies and comes back empty-handed.

The loop's timers are not modelled: a round of reaping or claiming may start whenever the main
thread is idle, which allows every schedule the timers allow.
-/

namespace PolyGate.Automation

open Lib

/-! ## `execute_job` -/

/-- `_is_retryable` -/
def isRetryable : PyExc → Bool
  | .httpStatusError statusCode _ => statusCode == 408 || statusCode == 429 || 500 ≤ statusCode
  | _ => true

/-- `resp.raise_for_status()`: everything outside 2xx raises. -/
def Response.raiseForStatus (resp : Response) : Store Unit :=
  if 200 ≤ resp.statusCode ∧ resp.statusCode ≤ 299 then pure ()
  else throw (.httpStatusError resp.statusCode resp.statusText)

/-- `resp.json()` -/
def Response.parse (resp : Response) : Store JsonText :=
  match resp.json with
  | .ok result => pure result
  | .error msg => throw (.valueError msg)

def payloadMissing : PyExc :=
  .runtimeError "execution payload missing or expired（任务对应的内部快照找不到了）"

/-- The `try` part of `execute_job`. -/
def attemptJob (jobId : JobId) : Store Unit := do
  let payload : Option GatewayRequest ← getExecutionPayload jobId
  match payload with
  | none => throw payloadMissing
  | some payload =>
    let resp : Response ← Prog.perform (Cmd.post payload)
    resp.raiseForStatus
    let result ← resp.parse
    completeJob jobId result

/-- The `except` part of `execute_job`. -/
def handleFailure (maxRetries : Int) (jobId : JobId) (exc : PyExc) : Store Unit := do
  let retries : Nat ← Prog.perform (Cmd.getRetryCount jobId)
  if isRetryable exc && decide ((retries : Int) < maxRetries) then
    Prog.perform (Cmd.setRetryCount jobId (retries + 1))
    requeueJob jobId
  else failJob jobId exc.str

def executeJob (maxRetries : Int) (job : JobRecord) : Store Unit :=
  tryCatch (attemptJob job.jobId) (handleFailure maxRetries job.jobId)

/-! ## The threads of a worker -/

inductive Role | main | exec
  deriving DecidableEq, Repr

def Role.other : Role → Role
  | .main => .exec
  | .exec => .main

/-- What the main thread of a worker does with its turn, or the executing thread with a job;
the value is a claimed job that is still to be handed over. -/
abbrev Task := Store (Option JobRecord)

/-- Nothing in hand. -/
def idle : Task := .ret none

/-- `reap_expired_leases` and the two gauges read after it. -/
def reapTask : Task := do
  let _ ← reapExpiredLeases
  let _ ← queueDepth
  let _ ← inFlightCount
  return none

def claimTask (leaseSeconds : Int) (queuePolicy : Option QueuePolicy) : Task :=
  claimNextJob leaseSeconds queuePolicy

def executeTask (maxRetries : Int) (job : JobRecord) : Task := do
  executeJob maxRetries job
  return none

/-- Redis, and each worker's in-memory `_retry_counts`. -/
structure Host (ω : Type) where
  redis : Redis
  retryCounts : ω → JobId → Nat

abbrev Fleet (ω : Type) := Pool (ω × Role) (Host ω) Cmd Cmd.Reply PyExc (Option JobRecord)

section
variable {ω : Type} [DecidableEq ω]

def Host.setRetryCount (h : Host ω) (w : ω) (id : JobId) (n : Nat) : Host ω :=
  { h with retryCounts :=
      Function.update h.retryCounts w (Function.update (h.retryCounts w) id n) }

/-- What a command of worker `w` answers and leaves behind. The gateway may fail at any time;
Redis raises only when `faults` allows it, and then before or after the command took effect. -/
def does (faults : Prop) (w : ω) : Exec Cmd Cmd.Reply PyExc (Host ω)
  | h, .redis c, .ok v, h' => ∃ r, h.redis.Answers c v r ∧ h' = { h with redis := r }
  | h, .redis c, .error e, h' => faults ∧ (∃ msg, e = .redisError msg) ∧
      (h' = h ∨ ∃ v r, h.redis.Answers c v r ∧ h' = { h with redis := r })
  | h, .now, .ok _, h' | h, .newJobId, .ok _, h' | h, .post _, .ok _, h' => h' = h
  | h, .post _, .error e, h' => (∃ msg, e = .transportError msg) ∧ h' = h
  | h, .getRetryCount id, .ok n, h' => n = h.retryCounts w id ∧ h' = h
  | h, .setRetryCount id n, .ok _, h' => h' = h.setRetryCount w id n
  | _, _, .error _, _ => False

inductive Label (ω : Type)
  | command (i : ω × Role) (c : Cmd)
  | reap (w : ω)
  | claim (w : ω)
  | submit (w : ω)
  | restart (w : ω)
  | enqueue (record : JobRecord)

/-- The program has ended, by returning or by raising. -/
def Ended (p : Task) : Prop := ∃ o, p = .ofOutcome o

/-- Thread `i` goes on with `p`. -/
def Fleet.assign (a : Fleet ω) (i : ω × Role) (p : Task) : Fleet ω :=
  { a with threads := Function.update a.threads i p }

/-- Nothing of worker `w` is left but the empty process that replaces it. -/
def Fleet.restarted (a : Fleet ω) (w : ω) : Fleet ω where
  shared := { a.shared with retryCounts := Function.update a.shared.retryCounts w fun _ => 0 }
  threads := Function.update (Function.update a.threads (w, .main) idle) (w, .exec) idle

def Fleet.enqueued (a : Fleet ω) (record : JobRecord) (payload : GatewayRequest) : Fleet ω :=
  { a with shared := { a.shared with redis := a.shared.redis.enqueuePipeline record payload } }

/-- One step of a fleet of workers, and of the API that feeds its queue. -/
inductive Fleet.Step (faults : Prop) (maxRetries : Int) (a : Fleet ω) :
    Label ω → Fleet ω → Prop
  /-- a thread executes its next command -/
  | command {i : ω × Role} {c : Cmd} {b : Fleet ω}
      (runs : Pool.Step (fun i => does faults i.1) a (i, c) b) :
      Step faults maxRetries a (.command i c) b
  /-- the main thread starts a round of reaping, whatever the executing thread is doing -/
  | reap {w : ω} (main : a.threads (w, .main) = idle) :
      Step faults maxRetries a (.reap w) (a.assign (w, .main) reapTask)
  /-- the main thread starts claiming, with the executing thread free -/
  | claim {w : ω} (main : a.threads (w, .main) = idle) (exec : Ended (a.threads (w, .exec)))
      (leaseSeconds : Int) (queuePolicy : Option QueuePolicy) :
      Step faults maxRetries a (.claim w)
        (a.assign (w, .main) (claimTask leaseSeconds queuePolicy))
  /-- a claimed job is handed to the executing thread -/
  | submit {w : ω} {job : JobRecord} (main : a.threads (w, .main) = .ret (some job)) :
      Step faults maxRetries a (.submit w)
        ((a.assign (w, .main) idle).assign (w, .exec) (executeTask maxRetries job))
  /-- the process dies, at any point, and starts again -/
  | restart {w : ω} : Step faults maxRetries a (.restart w) (a.restarted w)
  /-- the pipeline of an `enqueue`, with an id that occurs nowhere yet -/
  | enqueue {preview : PreviewResponse} {id : JobId} {n : Nat} {t : Time}
      (nojob : a.shared.redis.jobs id = none) (nopending : id ∉ a.shared.redis.pending) :
      Step faults maxRetries a (.enqueue (newRecord preview id n t))
        (a.enqueued (newRecord preview id n t) preview.gatewayRequest)

/-- The commands of the threads, as steps of the fleet. -/
theorem Fleet.run_commands {faults : Prop} {maxRetries : Int} {a b : Fleet ω}
    {ts : List (Fleet ω × ((ω × Role) × Cmd) × Fleet ω)}
    (h : Run (Pool.Step fun i : ω × Role => does faults i.1) a ts b) :
    Run (Fleet.Step faults maxRetries) a
      (ts.map fun t => (t.1, .command t.2.1.1 t.2.1.2, t.2.2)) b := by
  induction h with
  | refl => exact .refl
  | tail _ hst ih =>
    rw [List.map_append]
    exact ih.tail (.command hst)

/-- A run goes on with commands of one thread. -/
theorem Fleet.run_on {faults : Prop} {maxRetries : Int} {a b : Fleet ω}
    {ts : List (Fleet ω × Label ω × Fleet ω)} {q : Task} {h : Host ω}
    (hrun : Run (Fleet.Step faults maxRetries) a ts b) (i : ω × Role)
    (hsteps : Prog.Steps (does faults i.1) (b.threads i) b.shared q h) :
    ∃ us, Run (Fleet.Step faults maxRetries) a (ts ++ us)
        ⟨h, Function.update b.threads i q⟩ ∧
      ∀ t ∈ us, ∃ c, t.2.1 = .command i c := by
  obtain ⟨vs, hvs, hlabels⟩ :=
    @Pool.schedule _ _ _ _ _ _ _ (fun i : ω × Role => does faults i.1) i _ _ _ _ _ rfl hsteps
  refine ⟨_, hrun.append (Fleet.run_commands hvs), fun t ht => ?_⟩
  obtain ⟨u, hu, rfl⟩ := List.mem_map.mp ht
  exact ⟨u.2.1.2, by rw [← hlabels u hu]⟩

/-- Every worker idle, on the given store. -/
def Fleet.start (redis : Redis) : Fleet ω where
  shared := { redis := redis, retryCounts := fun _ _ => 0 }
  threads _ := idle

end

end PolyGate.Automation
