import PolyGate.Lib.Run
import PolyGate.Automation.Queue.Sequential

/-!
# `Automation/Queue/Representation.lean` — what the queue holds between two operations

One worker with one executing thread, whose store operations do not interrupt each other. A lease
can expire while its job is still executing, and a round of reaping then puts the job back while it
executes on: it is queued and executing at once, and whichever of `complete_job`, `fail_job` and
`requeue_job` ends the execution has to bring the five structures back into agreement.

`InPlace` says what agreement is. A finished job may still be in the pending set, until a claim
drops it there; and it is never the executing job (`Inv.executing`), which is why nothing reopens
it.
-/

namespace PolyGate.Automation.Representation

open Lib PolyGate.Automation.Sequential

/-! ## One worker -/

structure State where
  world : World
  /-- the job that the worker executes -/
  executing : Option JobId

def State.redis (s : State) : Redis := s.world.redis

inductive Op
  | enqueue (preview : PreviewResponse) (idempotencyKey : String)
  | claim (leaseSeconds : Int) (queuePolicy : Option QueuePolicy) (claimed : Option JobRecord)
  | complete (result : JsonText)
  | fail (error : String)
  | requeue
  | reap
  /-- the worker dies, and may start again -/
  | die

/-- The job that a claim returned. -/
def Op.claimed : Op → Option JobRecord
  | .claim _ _ claimed => claimed
  | _ => none

inductive Step (s : State) : Op → State → Prop
  | enqueue {preview : PreviewResponse} {key : String} {record : JobRecord} {w : World}
      (runs : Runs (enqueue preview key) s.world record w) :
      Step s (.enqueue preview key) { s with world := w }
  | claim {leaseSeconds : Int} {queuePolicy : Option QueuePolicy} {claimed : Option JobRecord}
      {w : World} (free : s.executing = none)
      (runs : Runs (claimNextJob leaseSeconds queuePolicy) s.world claimed w) :
      Step s (.claim leaseSeconds queuePolicy claimed) ⟨w, claimed.map (·.jobId)⟩
  | complete {j : JobId} {result : JsonText} {w : World} (executing : s.executing = some j)
      (runs : Runs (completeJob j result) s.world () w) : Step s (.complete result) ⟨w, none⟩
  | fail {j : JobId} {error : String} {w : World} (executing : s.executing = some j)
      (runs : Runs (failJob j error) s.world () w) : Step s (.fail error) ⟨w, none⟩
  | requeue {j : JobId} {w : World} (executing : s.executing = some j)
      (runs : Runs (requeueJob j) s.world () w) : Step s .requeue ⟨w, none⟩
  | reap {ids : List JobId} {w : World} (runs : Runs reapExpiredLeases s.world ids w) :
      Step s .reap { s with world := w }
  | die : Step s .die { s with executing := none }

/-- An empty Redis, and nothing executing. -/
def start (t : Time) : State := ⟨⟨.empty, t⟩, none⟩

/-! ## The representation -/

section
variable (r : Redis) (j : JobId)

def Finished : Prop := ∃ st, r.statusOf j = some st ∧ st.Terminal

/-- Queued or running. -/
def Open : Prop := r.statusOf j = some .queued ∨ r.statusOf j = some .running

structure InPlace : Prop where
  queued : r.statusOf j = some .queued → j ∈ r.pending ∧ j ∉ r.leases
  running : r.statusOf j = some .running → j ∈ r.leases ∧ j ∉ r.pending
  finished : Finished r j → j ∉ r.leases ∧ r.payloads j = none
  payload : Open r j → r.payloads j ≠ none
  recorded : j ∈ r.pending ∨ j ∈ r.leases ∨ j ∈ r.index → r.jobs j ≠ none

end

structure Inv (s : State) : Prop where
  places : ∀ j, InPlace s.redis j
  executing : ∀ j, s.executing = some j → Open s.redis j

section
variable {r r' : Redis} {j : JobId}

/-- An open job has not reached its end. -/
theorem Open.not_finished (h : Open r j) : ¬ Finished r j := by
  rintro ⟨st, hst, hterminal⟩
  rcases h with h | h
  · obtain rfl := Option.some.inj (hst.symm.trans h)
    exact hterminal
  · obtain rfl := Option.some.inj (hst.symm.trans h)
    exact hterminal

theorem Open.of_statusOf (h : Open r j) (hstatus : r'.statusOf j = r.statusOf j) : Open r' j := by
  rwa [Open, hstatus]

theorem Open.statusOf_ne_none (h : Open r j) : r.statusOf j ≠ none := by
  rcases h with h | h
  · simp [h]
  · simp [h]

/-- A job that is known is either finished or open. -/
theorem finished_or_open (h : r.jobs j ≠ none) : Finished r j ∨ Open r j := by
  obtain ⟨record, hrecord⟩ := Option.ne_none_iff_exists'.mp h
  have hstatus : r.statusOf j = some record.status := by rw [Redis.statusOf, hrecord]; rfl
  rw [Open, hstatus]
  cases hst : record.status with
  | queued => exact Or.inr (Or.inl rfl)
  | running => exact Or.inr (Or.inr rfl)
  | completed => exact Or.inl ⟨.completed, hst ▸ hstatus, trivial⟩
  | failed => exact Or.inl ⟨.failed, hst ▸ hstatus, trivial⟩

/-- The record is the same, and so is what the job has beside it. -/
structure SameAt (r r' : Redis) (j : JobId) : Prop where
  jobs : r'.jobs j = r.jobs j
  pending : j ∈ r'.pending ↔ j ∈ r.pending
  leases : j ∈ r'.leases ↔ j ∈ r.leases
  payloads : r'.payloads j = r.payloads j
  index : j ∈ r'.index ↔ j ∈ r.index

theorem SameAt.statusOf (h : SameAt r r' j) : r'.statusOf j = r.statusOf j := by
  rw [Redis.statusOf, Redis.statusOf, h.jobs]

/-- Being in place is said of one job's keys. -/
theorem InPlace.same (h : InPlace r j) (hsame : SameAt r r' j) : InPlace r' j := by
  constructor
  case queued =>
    rw [hsame.statusOf, hsame.pending, hsame.leases]
    exact h.queued
  case running =>
    rw [hsame.statusOf, hsame.pending, hsame.leases]
    exact h.running
  case finished =>
    rw [Finished, hsame.statusOf, hsame.leases, hsame.payloads]
    exact h.finished
  case payload =>
    rw [Open, hsame.statusOf, hsame.payloads]
    exact h.payload
  case recorded =>
    rw [hsame.pending, hsame.leases, hsame.index, hsame.jobs]
    exact h.recorded

/-- A job that has just been written, by the status it was written with. -/
theorem inPlace_queued (hstatus : r.statusOf j = some .queued) (hpending : j ∈ r.pending)
    (hlease : j ∉ r.leases) (hpayload : r.payloads j ≠ none) : InPlace r j := by
  have hopen : Open r j := Or.inl hstatus
  constructor
  case queued => exact fun _ => ⟨hpending, hlease⟩
  case running => exact fun h => absurd (hstatus.symm.trans h) (by simp)
  case finished => exact fun h => absurd h hopen.not_finished
  case payload => exact fun _ => hpayload
  case recorded => exact fun _ hnone => by simp [Redis.statusOf, hnone] at hstatus

theorem inPlace_running (hstatus : r.statusOf j = some .running) (hlease : j ∈ r.leases)
    (hpending : j ∉ r.pending) (hpayload : r.payloads j ≠ none) : InPlace r j := by
  have hopen : Open r j := Or.inr hstatus
  constructor
  case queued => exact fun h => absurd (hstatus.symm.trans h) (by simp)
  case running => exact fun _ => ⟨hlease, hpending⟩
  case finished => exact fun h => absurd h hopen.not_finished
  case payload => exact fun _ => hpayload
  case recorded => exact fun _ hnone => by simp [Redis.statusOf, hnone] at hstatus

theorem inPlace_finished (hfinished : Finished r j) (hlease : j ∉ r.leases)
    (hpayload : r.payloads j = none) : InPlace r j := by
  have hopen : ¬ Open r j := fun h => h.not_finished hfinished
  constructor
  case queued => exact fun h => absurd (Or.inl h) hopen
  case running => exact fun h => absurd (Or.inr h) hopen
  case finished => exact fun _ => ⟨hlease, hpayload⟩
  case payload => exact fun h => absurd h hopen
  case recorded =>
    obtain ⟨st, hst, -⟩ := hfinished
    exact fun _ hnone => by simp [Redis.statusOf, hnone] at hst

end

/-! ## What the operations leave -/

section
variable {r : Redis} {i j : JobId}

/-- Removing dirty data moves no job that is queued. -/
theorem inPlace_cleaned (h : InPlace r j) (ids : List JobId) : InPlace (cleaned r ids) j := by
  constructor
  case queued =>
    intro hq
    refine ⟨Finset.mem_filter.mpr ⟨(h.queued hq).1, fun _ => hq⟩, (h.queued hq).2⟩
  case running =>
    intro hr
    exact ⟨(h.running hr).1, fun hp => (h.running hr).2 (Finset.mem_filter.mp hp).1⟩
  case finished => exact h.finished
  case payload => exact h.payload
  case recorded =>
    intro hmem
    exact h.recorded (hmem.imp_left fun hp => (Finset.mem_filter.mp hp).1)

/-- A claim takes the job out of the pending set and gives it a lease. -/
theorem inPlace_claimed {chosen : Candidate} {startedAt expires : Time} (h : ∀ i, InPlace r i)
    (hid : chosen.record.jobId = chosen.jobId) (hq : r.statusOf chosen.jobId = some .queued)
    (i : JobId) : InPlace (claimed r chosen startedAt expires) i := by
  rcases eq_or_ne i chosen.jobId with rfl | hne
  · refine inPlace_running ?_ ?_ ?_ ((h chosen.jobId).payload (Or.inl hq))
    · rw [Redis.statusOf, ← hid, claimed_jobs_self]
      rfl
    · exact ZSet.mem_add.mpr (Or.inl rfl)
    · exact Finset.notMem_erase _ _
  · refine (h i).same ⟨claimed_jobs_of_ne r startedAt expires (hid ▸ hne), ?_, ?_, rfl, Iff.rfl⟩
    · simp [claimed, hne]
    · simp [claimed, hne]

/-- An end takes the lease and the payload away. -/
theorem inPlace_finishedJob {record : JobRecord} (h : ∀ i, InPlace r i)
    (hterminal : record.status.Terminal) (i : JobId) :
    InPlace (Sequential.finished r record.jobId record) i := by
  rcases eq_or_ne i record.jobId with rfl | hne
  · refine inPlace_finished ⟨record.status, ?_, hterminal⟩ ?_ ?_
    · exact r.statusOf_setJob_self record
    · simp [Sequential.finished]
    · simp [Sequential.finished]
  · refine (h i).same ⟨r.setJob_of_ne record hne, Iff.rfl, ?_, ?_, Iff.rfl⟩
    · simp [Sequential.finished, hne]
    · simp [Sequential.finished, hne]

theorem statusOf_requeued_of_ne (hne : i ≠ j) : (requeued r j).statusOf i = r.statusOf i := by
  unfold requeued
  split
  · rfl
  · next record hrecord =>
    exact r.statusOf_setJob_of_ne _ ((r.jobs_key j record hrecord).symm ▸ hne)

theorem statusOf_requeued_self (hopen : Open r j) : (requeued r j).statusOf j = some .queued := by
  have hjob : r.jobs j ≠ none := by
    intro hnone
    simp [Open, Redis.statusOf, hnone] at hopen
  obtain ⟨record, hrecord⟩ := Option.ne_none_iff_exists'.mp hjob
  rw [requeued_of_some hrecord]
  have hkey := r.jobs_key j record hrecord
  subst hkey
  exact r.statusOf_setJob_self { record with status := .queued }

/-- Requeueing puts an open job back, running or queued. -/
theorem inPlace_requeued (h : ∀ i, InPlace r i) (hopen : Open r j) (i : JobId) :
    InPlace (requeued r j) i := by
  have hjob : r.jobs j ≠ none := by
    intro hnone
    simp [Open, Redis.statusOf, hnone] at hopen
  obtain ⟨record, hrecord⟩ := Option.ne_none_iff_exists'.mp hjob
  have hkey := r.jobs_key j record hrecord
  rcases eq_or_ne i j with rfl | hne
  · refine inPlace_queued (statusOf_requeued_self hopen) ?_ ?_ ?_
    · simp [requeued_of_some hrecord]
    · simp [requeued_of_some hrecord]
    · rw [requeued_of_some hrecord]
      exact (h i).payload hopen
  · rw [requeued_of_some hrecord]
    refine (h i).same ⟨r.setJob_of_ne _ (hkey.symm ▸ hne), ?_, ?_, rfl, Iff.rfl⟩
    · simp [hne]
    · simp [hne]

theorem open_requeued (hopen : Open r j) (h : Open r i) : Open (requeued r j) i := by
  rcases eq_or_ne i j with rfl | hne
  · exact Or.inl (statusOf_requeued_self hopen)
  · rwa [Open, statusOf_requeued_of_ne hne]

/-- A round of reaping puts open jobs back, and changes the status of no other. -/
theorem inPlace_reaped {ids : List JobId} (h : ∀ i, InPlace r i) (hopen : ∀ j ∈ ids, Open r j) :
    (∀ i, InPlace (ids.foldl requeued r) i) ∧
      (∀ i, Open r i → Open (ids.foldl requeued r) i) ∧
      ∀ i, Finished r i → (ids.foldl requeued r).statusOf i = r.statusOf i := by
  induction ids generalizing r with
  | nil => exact ⟨h, fun _ => id, fun _ _ => rfl⟩
  | cons j rest ih =>
    obtain ⟨hj, hrest⟩ := List.forall_mem_cons.mp hopen
    obtain ⟨hplaces, hopens, hkeeps⟩ := ih (inPlace_requeued h hj)
      fun i hi => open_requeued hj (hrest i hi)
    refine ⟨hplaces, fun i hi => hopens i (open_requeued hj hi), fun i hi => ?_⟩
    have hne : i ≠ j := fun heq => hj.not_finished (heq ▸ hi)
    have hstatus := statusOf_requeued_of_ne (r := r) hne
    rw [List.foldl_cons, hkeeps i (by rwa [Finished, hstatus]), hstatus]

/-- A new job is pending, and has its payload. -/
theorem inPlace_enqueued {record : JobRecord} {payload : GatewayRequest} (h : ∀ i, InPlace r i)
    (hstatus : record.status = .queued) (hnew : r.jobs record.jobId = none) (i : JobId) :
    InPlace (r.enqueuePipeline record payload) i := by
  rcases eq_or_ne i record.jobId with rfl | hne
  · refine inPlace_queued ?_ ?_ ?_ ?_
    · rw [← hstatus]
      exact r.statusOf_setJob_self record
    · simp
    · intro hlease
      exact (h record.jobId).recorded (Or.inr (Or.inl hlease)) hnew
    · simp [Redis.enqueuePipeline]
  · refine (h i).same ⟨r.setJob_of_ne record hne, ?_, Iff.rfl, ?_, ?_⟩
    · simp [hne]
    · simp [Redis.enqueuePipeline, hne]
    · simp [Redis.enqueuePipeline, hne]

end

/-! ## One operation -/

/-- What an operation keeps. -/
structure Keeps (s : State) (op : Op) (s' : State) : Prop where
  inv : Inv s'
  finished : ∀ j, Finished s.redis j → s'.redis.statusOf j = s.redis.statusOf j
  claimed : ∀ record, op.claimed = some record → ¬ Finished s.redis record.jobId

section
variable {s : State} {w : World} {j : JobId}

/-- Finishing the executing job. -/
theorem Inv.finishJob {finish : JobRecord → Time → JobRecord} {op : Op} (h : Inv s)
    (hterminal : ∀ r t, (finish r t).status.Terminal)
    (hid : ∀ r t, (finish r t).jobId = r.jobId) (hop : op.claimed = none)
    (hexecuting : s.executing = some j) (hruns : Runs (finishJob j finish) s.world () w) :
    Keeps s op ⟨w, none⟩ := by
  have hopen := h.executing j hexecuting
  rcases finishJob_runs.mp hruns with ⟨hnone, -⟩ | ⟨r, t, hr, -, rfl⟩
  · simp [Open, Redis.statusOf, State.redis, hnone] at hopen
  have hkey : (finish r t).jobId = j := (hid r t).trans (s.redis.jobs_key j r hr)
  subst hkey
  refine ⟨⟨inPlace_finishedJob h.places (hterminal r t), fun _ hj => by cases hj⟩, ?_, ?_⟩
  · intro i hi
    have hne : i ≠ (finish r t).jobId := fun heq => hopen.not_finished (heq ▸ hi)
    exact s.redis.statusOf_setJob_of_ne _ hne
  · intro record hrecord
    rw [hop] at hrecord
    cases hrecord

/-- Claiming keeps the invariant, and takes no finished job. -/
theorem Inv.claim {leaseSeconds : Int} {queuePolicy : Option QueuePolicy}
    {claimed : Option JobRecord} (h : Inv s)
    (hruns : Runs (claimNextJob leaseSeconds queuePolicy) s.world claimed w) :
    Keeps s (.claim leaseSeconds queuePolicy claimed) ⟨w, claimed.map (·.jobId)⟩ := by
  have hdefault : Runs (claimNextJob leaseSeconds (some (queuePolicy.getD defaultQueuePolicy)))
      s.world claimed w := by
    cases queuePolicy <;> exact hruns
  rcases claimNextJob_runs hdefault with ⟨ids, now, rfl, -, -, -, rfl⟩ |
    ⟨record, ids, now, chosen, rfl, hclaims⟩
  · refine ⟨⟨fun j => inPlace_cleaned (h.places j) ids, fun _ hj => by cases hj⟩, ?_, ?_⟩
    · exact fun _ _ => rfl
    · exact fun _ hrecord => by cases hrecord
  · obtain ⟨j, r, -, hr, hq, rfl⟩ := mem_candidates.mp (choose_mem hclaims.chosen_eq)
    obtain ⟨startedAt, leasedAt, rfl, hw⟩ := hclaims.redis_eq
    have hkey : r.jobId = j := s.redis.jobs_key j r hr
    have hstatus : s.redis.statusOf j = some .queued := by
      rw [Redis.statusOf, State.redis, hr, Option.map_some, hq]
    -- the chosen job was queued, so it is none of the finished ones
    have hne : ∀ i, Finished s.redis i → i ≠ r.jobId := by
      intro i hi heq
      refine Open.not_finished (Or.inl ?_) hi
      rw [heq, hkey]
      exact hstatus
    have hplaces := @inPlace_claimed (cleaned s.redis ids)
      (candidate (queuePolicy.getD defaultQueuePolicy) now j r) startedAt (leasedAt + leaseSeconds)
      (fun i => inPlace_cleaned (h.places i) ids) hkey hstatus
    refine ⟨⟨?_, ?_⟩, ?_, ?_⟩
    · rw [State.redis, hw]
      exact hplaces
    · intro i hi
      obtain rfl : r.jobId = i := Option.some.inj hi
      refine Or.inr ?_
      rw [State.redis, hw, Redis.statusOf]
      exact congrArg _ (claimed_jobs_self _ (candidate _ now j r) startedAt _)
    · intro i hi
      rw [State.redis, hw, Redis.statusOf, Redis.statusOf]
      exact congrArg _ (claimed_jobs_of_ne _ startedAt _ (hne i hi))
    · intro record hrecord hfinished
      obtain rfl := Option.some.inj hrecord
      exact hne _ hfinished rfl

/-- So does enqueueing, with a known key or a new one. -/
theorem Inv.enqueue {preview : PreviewResponse} {key : String} {record : JobRecord} (h : Inv s)
    (hruns : Runs (enqueue preview key) s.world record w) :
    Keeps s (.enqueue preview key) { s with world := w } := by
  rcases enqueue_runs hruns with ⟨rfl, -⟩ | ⟨id, t, hsubmits⟩
  · exact ⟨⟨h.places, h.executing⟩, fun _ _ => rfl, fun _ hrecord => by cases hrecord⟩
  · obtain ⟨⟨hnew, -⟩, -, rfl, rfl⟩ := hsubmits
    have hne : ∀ i, s.redis.statusOf i ≠ none → i ≠ id := by
      rintro i hi rfl
      exact hi (by rw [Redis.statusOf, State.redis, hnew]; rfl)
    have hplaces : ∀ i, InPlace (s.redis.setIdempotency key id) i :=
      fun i => (h.places i).same ⟨rfl, Iff.rfl, Iff.rfl, rfl, Iff.rfl⟩
    have hother : ∀ i, s.redis.statusOf i ≠ none →
        ((s.redis.setIdempotency key id).enqueuePipeline
          (newRecord preview id s.redis.pending.card t) preview.gatewayRequest).statusOf i =
        s.redis.statusOf i := by
      intro i hi
      exact (s.redis.setIdempotency key id).statusOf_setJob_of_ne _ (hne i hi)
    refine ⟨⟨inPlace_enqueued hplaces rfl hnew, ?_⟩, ?_, fun _ hrecord => by cases hrecord⟩
    · intro i hi
      have hopen := h.executing i hi
      exact hopen.of_statusOf (hother i hopen.statusOf_ne_none)
    · rintro i ⟨st, hst, -⟩
      exact hother i (by simp [hst])

end

/-- Every operation. -/
theorem Inv.step {s s' : State} {op : Op} (h : Inv s) (hstep : Step s op s') : Keeps s op s' := by
  cases hstep with
  | enqueue runs => exact h.enqueue runs
  | claim _ runs => exact h.claim runs
  | complete executing runs =>
    unfold completeJob at runs
    refine h.finishJob ?_ ?_ rfl executing runs
    · exact fun _ _ => trivial
    · exact fun _ _ => rfl
  | fail executing runs =>
    unfold failJob at runs
    refine h.finishJob ?_ ?_ rfl executing runs
    · exact fun _ _ => trivial
    · exact fun _ _ => rfl
  | @requeue j w executing runs =>
    obtain rfl := requeueJob_runs.mp runs
    have hopen := h.executing j executing
    refine ⟨⟨inPlace_requeued h.places hopen, fun _ hj => by cases hj⟩, fun i hi => ?_,
      fun _ hrecord => by cases hrecord⟩
    exact statusOf_requeued_of_ne fun heq => hopen.not_finished (heq ▸ hi)
  | reap runs =>
    obtain ⟨t, -, rfl, rfl⟩ := reapExpiredLeases_runs.mp runs
    -- what has a lease is recorded, and not finished
    have hopen : ∀ j ∈ s.redis.leases.rangeByScore 0 t, Open s.redis j := by
      intro j hj
      have hlease := ZSet.mem_of_mem_rangeByScore hj
      refine (finished_or_open ((h.places j).recorded (Or.inr (Or.inl hlease)))).resolve_left ?_
      exact fun hfinished => ((h.places j).finished hfinished).1 hlease
    obtain ⟨hplaces, hopens, hkeeps⟩ := inPlace_reaped h.places hopen
    exact ⟨⟨hplaces, fun j hj => hopens j (h.executing j hj)⟩, hkeeps,
      fun _ hrecord => by cases hrecord⟩
  | die =>
    exact ⟨⟨h.places, fun _ hj => by cases hj⟩, fun _ _ => rfl, fun _ hrecord => by cases hrecord⟩

/-! ## Every run -/

/-- In an empty Redis every job is in place: there are none. -/
theorem inv_start (t : Time) : Inv (start t) := by
  refine ⟨fun j => ?_, fun _ hj => by cases hj⟩
  have hstatus : (start t).redis.statusOf j = none := rfl
  constructor
  case queued => exact fun h => by cases hstatus.symm.trans h
  case running => exact fun h => by cases hstatus.symm.trans h
  case finished => exact fun _ => ⟨by simp [State.redis, start, Redis.empty], rfl⟩
  case payload => exact fun h => absurd hstatus h.statusOf_ne_none
  case recorded => simp [State.redis, start, Redis.empty]

theorem Inv.run {s s' : State} {ts : List (State × Op × State)} (h : Inv s)
    (hrun : Run Step s ts s') : Inv s' :=
  hrun.invariant h fun _ _ _ h hstep => (h.step hstep).inv

/-- A finished job stays as it is, and no claim returns it. -/
theorem Inv.finished_forever {s s' : State} {ts : List (State × Op × State)} {j : JobId}
    (h : Inv s) (hrun : Run Step s ts s') (hj : Finished s.redis j) :
    s'.redis.statusOf j = s.redis.statusOf j ∧
      ∀ t ∈ ts, ∀ record, t.2.1.claimed = some record → record.jobId ≠ j := by
  have hsame : ∀ s₁ : State, s₁.redis.statusOf j = s.redis.statusOf j → Finished s₁.redis j := by
    intro s₁ hs₁
    rwa [Finished, hs₁]
  have heach := hrun.each
    (I := fun s₁ => Inv s₁ ∧ s₁.redis.statusOf j = s.redis.statusOf j)
    (P := fun _ op _ => ∀ record, op.claimed = some record → record.jobId ≠ j) ⟨h, rfl⟩ ?_
  · exact ⟨heach.2.2, heach.1⟩
  · rintro s₁ op s₂ ⟨hinv, hs₁⟩ hstep
    have hkeeps := hinv.step hstep
    refine ⟨fun record hrecord heq => ?_, hkeeps.inv, ?_⟩
    · exact hkeeps.claimed record hrecord (heq ▸ hsame s₁ hs₁)
    · exact (hkeeps.finished j (hsame s₁ hs₁)).trans hs₁

/-- **The queue is represented**: in every state that operations reach, each job is in place; and a
finished job keeps its status from then on, and is not claimed again. -/
theorem queue_represented {t : Time} {ts : List (State × Op × State)} {s : State}
    (h : Run Step (start t) ts s) :
    (∀ j, InPlace s.redis j) ∧
      ∀ us s', Run Step s us s' → ∀ j, Finished s.redis j →
        s'.redis.statusOf j = s.redis.statusOf j ∧
          ∀ u ∈ us, ∀ record, u.2.1.claimed = some record → record.jobId ≠ j := by
  have hinv := (inv_start t).run h
  exact ⟨hinv.places, fun us s' hrun j hj => hinv.finished_forever hrun hj⟩

/-! ## A late completion -/

def lateJob : JobRecord := newRecord (makePreview "late" .normal 50) "job_late" 0 0

/-- The job has been submitted. -/
def submitted : Redis :=
  (Redis.empty.setIdempotency "key" "job_late").enqueuePipeline lateJob
    (makePreview "late" .normal 50).gatewayRequest

def lateCandidate : Candidate := candidate defaultQueuePolicy 0 "job_late" lateJob

def lateClaimed : Redis := claimed (cleaned submitted ["job_late"]) lateCandidate 0 (0 + (60 : Int))

/-- The job's lease expires while it executes, so it is put back; then it completes. It stays in the
pending set. -/
theorem queue_represented_late : ∃ ts s, Run Step (start 0) ts s ∧
    s.redis.statusOf "job_late" = some .completed ∧ "job_late" ∈ s.redis.pending ∧
    InPlace s.redis "job_late" := by
  have henqueue := @runs_enqueue (makePreview "late" .normal 50) "key" (start 0).world "job_late"
    ⟨rfl, Finset.notMem_empty _⟩ rfl
  have hclaim := @runs_claimNextJob defaultQueuePolicy 60 ⟨submitted, 0⟩ ["job_late"] lateCandidate
    (List.nodup_singleton _) rfl (choose_singleton ..)
  have hreap : Runs reapExpiredLeases ⟨lateClaimed, 0⟩ ["job_late"]
      ⟨requeued lateClaimed "job_late", 60⟩ :=
    reapExpiredLeases_runs.mpr ⟨60, by decide, by decide +kernel, rfl⟩
  obtain ⟨w, hcomplete, hstatus, hpending⟩ : ∃ w, Runs (completeJob "job_late" "0")
      ⟨requeued lateClaimed "job_late", 60⟩ () w ∧
      w.redis.statusOf "job_late" = some .completed ∧ "job_late" ∈ w.redis.pending :=
    ⟨_, finishJob_runs.mpr (Or.inr ⟨_, 60, rfl, le_rfl, rfl⟩), rfl, by decide⟩
  have hrun : Run Step (start 0) _ ⟨w, none⟩ :=
    (((Run.refl.tail (Step.enqueue henqueue)).tail (.claim rfl hclaim)).tail (.reap hreap)).tail
      (.complete rfl hcomplete)
  exact ⟨_, _, hrun, hstatus, hpending, (queue_represented hrun).1 "job_late"⟩

end PolyGate.Automation.Representation
