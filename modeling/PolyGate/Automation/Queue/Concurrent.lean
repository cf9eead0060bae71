import PolyGate.Automation.Queue.Recovery

/-!
# `Automation/Queue/Concurrent.lean` — several workers on one queue

Workers that do not die, on a Redis that does not fail. A queued job that is out of the pending set
is one that some thread is about to bring back, or has just taken out and will write as running; a
running job without a lease is one whose lease some thread is about to write. That is `Inv`, and
with no operation in progress it leaves every job in its place.

Two commands break it, both sent on the strength of what was read before. A claim drops a member of
the pending set as dirty after its job has been requeued (`requeued_job_dropped`), and an operation
that ends an old execution removes the lease of the new one. `jobs_in_place` is for every run in
which neither happens.
-/

namespace PolyGate.Automation.Concurrent

open Lib

/-! ## Where the jobs are -/

/-- Queued jobs are pending, and running jobs have a lease. -/
def InPlace (r : Redis) : Prop :=
  ∀ j, (r.statusOf j = some .queued → j ∈ r.pending) ∧ (r.statusOf j = some .running → j ∈ r.leases)

/-- The commands after which a queued job need not be looked for: it is pending, or running. -/
def Returns (j : JobId) (c : Cmd) : Prop :=
  c = .redis (.saddPending j) ∨ ∃ r : JobRecord, c = .redis (.setJob r) ∧ r.jobId = j ∧
    r.status = .running

def Leases (j : JobId) (c : Cmd) : Prop := ∃ t, c = .redis (.zaddLease j t)

/-- No operation on the store is in progress: the thread is done, or waits for the gateway. -/
def AtRest (p : Task) : Prop := Ended p ∨ ∃ payload k, p = .cmd (.post payload) k

/-! ## What a command leaves its thread to do -/

/-- A record that is written as queued or as running is followed by what that takes, and while a
thread waits for the gateway nothing depends on it. -/
def Orderly : Task → Prop
  | .cmd (.redis (.setJob r)) k =>
    (r.status = .queued → (k (.ok ())).Will (Returns r.jobId)) ∧
      (r.status = .running → (k (.ok ())).Will (Leases r.jobId))
  | .cmd (.redis (.enqueuePipeline ..)) _ => False
  | .cmd (.post _) k =>
    ∀ j, (∃ x, ¬ (k (.ok x)).Will (Returns j)) ∧ ∃ x, ¬ (k (.ok x)).Will (Leases j)
  | _ => True

section
variable {ω : Type} [DecidableEq ω] {w : ω} {post : Except PyExc (Option JobRecord) → Prop}

/-- Orderly to the end, whatever the others do. -/
def Sound (w : ω) (post : Except PyExc (Option JobRecord) → Prop) (p : Task) : Prop :=
  ∀ h, p.Safe (does False w) (fun _ _ => True) (fun _ p _ _ => Orderly p) (fun o _ => post o) h

theorem sound_ret {o : Option JobRecord} (h : post (.ok o)) : Sound w post (.ret o) :=
  fun _ _ _ => h

theorem sound_raise {e : PyExc} (h : post (.error e)) : Sound w post (.raise e) :=
  fun _ _ _ => h

theorem sound_cmd {c : Cmd} {k : Except PyExc c.Reply → Task} (horderly : Orderly (.cmd c k))
    (hk : ∀ h v h', does False w h c v h' → Sound w post (k v)) : Sound w post (.cmd c k) :=
  fun _ s' _ v s'' hdoes => ⟨horderly, hk s' v s'' hdoes s''⟩

theorem Sound.step {c : Cmd} {k : Except PyExc c.Reply → Task} {h h' : Host ω}
    {v : Except PyExc c.Reply} (hsound : Sound w post (.cmd c k)) (hdoes : does False w h c v h') :
    Orderly (.cmd c k) ∧ Sound w post (k v) := by
  obtain ⟨horderly, hv⟩ := hsound h h trivial v h' hdoes
  exact ⟨horderly, fun _ => hv.stable (fun _ _ _ _ _ => trivial) trivial⟩

theorem Sound.weaken {post' : Except PyExc (Option JobRecord) → Prop} {p : Task}
    (h : Sound w post p) (himp : ∀ o, post o → post' o) : Sound w post' p :=
  fun s => (h s).weaken fun o _ => himp o

/-- The rule for a command to Redis, which does not raise. -/
theorem sound_redis {c : RedisCmd} {k : Except PyExc c.Reply → Task}
    (horderly : Orderly (.cmd (.redis c) k))
    (hk : ∀ (r : Redis) x r', r.Answers c x r' → Sound w post (k (.ok x))) :
    Sound w post (.cmd (.redis c) k) := by
  refine sound_cmd horderly fun h v h' hdoes => ?_
  cases v with
  | ok x =>
    obtain ⟨r, hr, rfl⟩ := hdoes
    exact hk h.redis x r hr
  | error e => exact hdoes.1.elim

theorem sound_getJob {j : JobId} {k : Except PyExc (Option JobRecord) → Task}
    (hk : ∀ x, (∀ r, x = some r → r.jobId = j) → Sound w post (k (.ok x))) :
    Sound w post (.cmd (.redis (.getJob j)) k) := by
  refine sound_redis trivial fun r x r' hr => ?_
  obtain ⟨rfl, rfl⟩ := hr
  exact hk _ fun record hrecord => r'.jobs_key j record hrecord

theorem sound_now {k : Except PyExc Time → Task} (hk : ∀ t, Sound w post (k (.ok t))) :
    Sound w post (.cmd .now k) := by
  refine sound_cmd trivial fun h v h' hdoes => ?_
  cases v with
  | ok t => exact hk t
  | error e => exact hdoes.elim

/-! ## The programs of a worker -/

theorem sound_requeueJob {j : JobId} {f : Except PyExc Unit → Task}
    (hf : ∀ o, Sound w post (f o)) : Sound w post ((requeueJob j).andThen f) := by
  simp only [requeueJob, getJob, saveJob, Prog.perform_bind, Prog.cmd_andThen]
  refine sound_getJob fun x hx => ?_
  cases x with
  | none => exact hf _
  | some record =>
    obtain rfl : record.jobId = j := hx record rfl
    simp only [Prog.onReply_ok, Prog.cmd_andThen]
    refine sound_redis ⟨fun _ => ?_, fun h => by cases h⟩ fun _ _ _ _ => ?_
    · simp [Returns]
    · exact sound_redis trivial fun _ _ _ _ => sound_redis trivial fun _ _ _ _ => hf _

theorem sound_requeueAll {f : Except PyExc Unit → Task} (hf : ∀ o, Sound w post (f o))
    (ids : List JobId) : Sound w post ((requeueAll ids).andThen f) := by
  induction ids with
  | nil => exact hf _
  | cons j rest ih =>
    simp only [requeueAll, Prog.bind_andThen]
    refine sound_requeueJob fun o => ?_
    cases o with
    | ok _ => exact ih
    | error e => exact hf _

theorem sound_finishJob {j : JobId} {finish : JobRecord → Time → JobRecord}
    (hterminal : ∀ r t, (finish r t).status.Terminal) {f : Except PyExc Unit → Task}
    (hf : ∀ o, Sound w post (f o)) : Sound w post ((finishJob j finish).andThen f) := by
  simp only [finishJob, getJob, saveJob, clearExecutionPayload, Prog.perform_bind,
    Prog.cmd_andThen]
  refine sound_getJob fun x _ => ?_
  cases x with
  | none => exact hf _
  | some record =>
    simp only [Prog.onReply_ok, Prog.cmd_andThen]
    refine sound_now fun t => ?_
    simp only [Prog.onReply_ok, Prog.cmd_andThen]
    refine sound_redis ⟨fun h => ?_, fun h => ?_⟩ fun _ _ _ _ => ?_
    · exact absurd (hterminal record t) (by simp [h, JobState.Terminal])
    · exact absurd (hterminal record t) (by simp [h, JobState.Terminal])
    · exact sound_redis trivial fun _ _ _ _ => sound_redis trivial fun _ _ _ _ => hf _

theorem sound_completeJob {j : JobId} {result : JsonText} {f : Except PyExc Unit → Task}
    (hf : ∀ o, Sound w post (f o)) : Sound w post ((completeJob j result).andThen f) := by
  unfold completeJob
  refine sound_finishJob ?_ hf
  exact fun _ _ => trivial

theorem sound_handleFailure {maxRetries : Int} {j : JobId} {exc : PyExc}
    {f : Except PyExc Unit → Task} (hf : ∀ o, Sound w post (f o)) :
    Sound w post ((handleFailure maxRetries j exc).andThen f) := by
  simp only [handleFailure, Prog.perform_bind, Prog.cmd_andThen]
  refine sound_cmd trivial fun h v h' hdoes => ?_
  cases v with
  | error e => exact hdoes.elim
  | ok retries =>
  simp only [Prog.onReply_ok]
  split
  · simp only [Prog.cmd_andThen]
    refine sound_cmd trivial fun h v h' hdoes => ?_
    cases v with
    | error e => exact hdoes.elim
    | ok _ => exact sound_requeueJob hf
  · unfold failJob
    refine sound_finishJob ?_ hf
    exact fun _ _ => trivial

/-- A completion that finds no record has nothing left to do. -/
theorem not_will_completeJob {P : Cmd → Prop} {j : JobId} {result : JsonText}
    {f : Except PyExc Unit → Task} (hidle : f (.ok ()) = idle) (hP : ¬ P (.redis (.getJob j))) :
    ¬ ((completeJob j result).andThen f).Will P := by
  simp only [completeJob, finishJob, getJob, Prog.perform_bind, Prog.cmd_andThen]
  rintro (h | h)
  · exact hP h
  · simpa [hidle, idle] using h none

theorem sound_attemptJob {j : JobId} {f : Except PyExc Unit → Task} (hidle : f (.ok ()) = idle)
    (hf : ∀ o, Sound w post (f o)) : Sound w post ((attemptJob j).andThen f) := by
  simp only [attemptJob, getExecutionPayload, Prog.perform_bind, Prog.cmd_andThen]
  refine sound_redis trivial fun _ payload _ _ => ?_
  cases payload with
  | none => exact hf _
  | some payload =>
    simp only [Prog.onReply_ok, Prog.cmd_andThen]
    refine sound_cmd (fun i => ⟨⟨⟨200, .ok "", ""⟩, ?_⟩, ⟨200, .ok "", ""⟩, ?_⟩) fun _ v _ _ => ?_
    · simpa [Response.raiseForStatus, Response.parse] using
        not_will_completeJob (P := Returns i) hidle (by simp [Returns])
    · simpa [Response.raiseForStatus, Response.parse] using
        not_will_completeJob (P := Leases i) hidle (by simp [Leases])
    cases v with
    | error e => exact hf _
    | ok resp =>
      simp only [Prog.onReply_ok, Response.raiseForStatus, Response.parse]
      split
      · cases resp.json with
        | ok result => exact sound_completeJob hf
        | error msg => exact hf _
      · exact hf _

/-- No job is handed over. -/
def Jobless (o : Except PyExc (Option JobRecord)) : Prop := ∀ job, o ≠ .ok (some job)

theorem jobless_none : Jobless (.ok none) := fun _ h => by cases h

theorem jobless_error (e : PyExc) : Jobless (.error e) := fun _ h => by cases h

theorem sound_executeTask {maxRetries : Int} {job : JobRecord} :
    Sound w Jobless (executeTask maxRetries job) := by
  have hend : ∀ o : Except PyExc Unit, Sound w Jobless (Prog.onReply (fun _ => idle) o) := by
    rintro (e | _)
    · exact sound_raise (jobless_error e)
    · exact sound_ret jobless_none
  simp only [executeTask, executeJob, Prog.bind_eq_andThen, Prog.catch_andThen]
  refine sound_attemptJob rfl fun o => ?_
  cases o with
  | ok _ => exact hend _
  | error exc => exact sound_handleFailure hend

theorem sound_reapTask : Sound w Jobless reapTask := by
  simp only [reapTask, reapExpiredLeases, Prog.perform_bind, Prog.cmd_bind, Prog.onReply_bind]
  refine sound_now fun now => ?_
  simp only [Prog.onReply_ok, Prog.bind_assoc]
  refine sound_redis trivial fun _ ids _ _ => ?_
  simp only [Prog.onReply_ok, Prog.bind_eq_andThen]
  refine sound_requeueAll (fun o => ?_) ids
  cases o with
  | error e => exact sound_raise (jobless_error e)
  | ok _ =>
    -- the gauges
    simp only [Prog.onReply_ok, Prog.pure_eq, Prog.ret_andThen, queueDepth, inFlightCount,
      Prog.perform_andThen]
    exact sound_redis trivial fun _ _ _ _ => sound_redis trivial fun _ _ _ _ =>
      sound_ret jobless_none

theorem sound_collectCandidates {policy : QueuePolicy} {now : Time} {ids : List JobId}
    {f : List Candidate → Task}
    (hf : ∀ cs, (∀ c ∈ cs, c.record.jobId = c.jobId) → Sound w post (f cs)) :
    Sound w post (collectCandidates policy now ids >>= f) := by
  induction ids generalizing f with
  | nil => exact hf [] (by simp)
  | cons j rest ih =>
    simp only [collectCandidates, getJob, Prog.perform_bind, Prog.cmd_bind, Prog.onReply_bind]
    refine sound_getJob fun x hx => ?_
    cases x with
    | none =>
      simp only [Prog.onReply_ok, Prog.cmd_bind, Prog.onReply_bind]
      exact sound_redis trivial fun _ _ _ _ => ih hf
    | some record =>
      simp only [Prog.onReply_ok]
      split
      · rw [Prog.bind_assoc]
        refine ih fun cs hcs => hf _ (List.forall_mem_cons.mpr ⟨hx record rfl, hcs⟩)
      · simp only [Prog.cmd_bind, Prog.onReply_bind]
        exact sound_redis trivial fun _ _ _ _ => ih hf

theorem sound_leaseJob {leaseSeconds : Int} {chosen : Candidate}
    (hid : chosen.record.jobId = chosen.jobId) :
    Sound w (fun _ => True)
      (leaseJob leaseSeconds chosen >>= fun record => pure (some record)) := by
  simp only [leaseJob, saveJob, Prog.perform_bind, Prog.cmd_bind, Prog.onReply_bind]
  refine sound_now fun startedAt => ?_
  simp only [Prog.onReply_ok]
  refine sound_redis ⟨fun h => (by cases h), fun _ => ?_⟩ fun _ _ _ _ => ?_
  · simp [Leases, hid]
  · exact sound_now fun now => sound_redis trivial fun _ _ _ _ => sound_ret trivial

theorem sound_claimTask {leaseSeconds : Int} {queuePolicy : Option QueuePolicy} :
    Sound w (fun _ => True) (claimTask leaseSeconds queuePolicy) := by
  have hnone : Sound w (fun _ => True) (.ret none) := sound_ret trivial
  simp only [claimTask, claimNextJob, Prog.perform_bind]
  refine sound_redis trivial fun _ ids _ _ => ?_
  simp only [Prog.onReply_ok]
  split
  · exact hnone
  refine sound_now fun now => ?_
  simp only [Prog.onReply_ok]
  refine sound_collectCandidates fun cs hcs => ?_
  split
  · exact hnone
  refine sound_redis trivial fun _ streak _ _ => ?_
  simp only [Prog.onReply_ok]
  split
  · exact hnone
  · next chosen hchosen =>
    have hid : chosen.record.jobId = chosen.jobId := hcs chosen (choose_mem hchosen)
    refine sound_redis trivial fun _ removed _ _ => ?_
    simp only [Prog.onReply_ok]
    split
    · simp only [startJob, Prog.perform_bind]
      split
      · simp only [Prog.cmd_bind, Prog.onReply_bind]
        exact sound_redis trivial fun _ _ _ _ => sound_leaseJob hid
      · simp only [Prog.cmd_bind, Prog.onReply_bind]
        exact sound_redis trivial fun _ _ _ _ => sound_leaseJob hid
    · exact hnone

/-! ## The fleet -/

structure Inv (a : Fleet ω) : Prop where
  queued : ∀ j, a.shared.redis.statusOf j = some .queued → j ∉ a.shared.redis.pending →
    ∃ i, (a.threads i).Will (Returns j)
  running : ∀ j, a.shared.redis.statusOf j = some .running → j ∉ a.shared.redis.leases →
    ∃ i, (a.threads i).Will (Leases j)
  sound : ∀ i, Sound i.1 (fun _ => True) (a.threads i)
  /-- a claim has the worker to itself -/
  alone : ∀ w, Ended (a.threads (w, .exec)) ∨ Sound w Jobless (a.threads (w, .main))

/-- The thread is about to take the job out of the pending set, and will then write it as running.
-/
def Chosen (p : Task) (j : JobId) : Prop :=
  ∃ k, p = .cmd (.redis (.sremPending j)) k ∧ (k (.ok true)).Will (Returns j)

/-- A job that is queued is dropped from the pending set only if it is about to come back, or to be
written as running; the lease of a running job is removed only if one is about to be written. -/
def Careful (a : Fleet ω) : Label ω → Prop
  | .command i (.redis (.sremPending j)) =>
    a.shared.redis.statusOf j = some .queued →
      Chosen (a.threads i) j ∨ ∃ i', (a.threads i').Will (Returns j)
  | .command _ (.redis (.zremLease j)) =>
    a.shared.redis.statusOf j = some .running → ∃ i, (a.threads i).Will (Leases j)
  | _ => True

section
variable {a b : Fleet ω}

theorem not_will_of_ended {P : Cmd → Prop} {p : Task} (h : Ended p) : ¬ p.Will P := by
  obtain ⟨o | o, rfl⟩ := h
  · exact id
  · exact id

/-- What a thread is about to do, it is still about to do after another command. -/
theorem will_of_command {P : Cmd → Prop} {i : ω × Role} {c : Cmd}
    {k : Except PyExc c.Reply → Task} (next : a.threads i = .cmd c k) (hc : ¬ P c) (x : c.Reply)
    (h : ∃ i', (a.threads i').Will P) :
    ∃ i', (Function.update a.threads i (k (.ok x)) i').Will P := by
  obtain ⟨i', hi'⟩ := h
  rcases eq_or_ne i' i with rfl | hne
  · rw [next] at hi'
    exact ⟨i', by simpa using hi'.step hc x⟩
  · exact ⟨i', by simpa [hne] using hi'⟩

/-- A thread may get another program if it was about to do nothing. -/
theorem will_of_update {P : Cmd → Prop} {i : ω × Role} {p : Task} (hi : ¬ (a.threads i).Will P)
    (h : ∃ i', (a.threads i').Will P) : ∃ i', (Function.update a.threads i p i').Will P := by
  obtain ⟨i', hi'⟩ := h
  have hne : i' ≠ i := fun heq => hi (heq ▸ hi')
  exact ⟨i', by simpa [hne] using hi'⟩

/-- The commands that touch a record, the pending set or a lease. -/
def Moves : RedisCmd → Prop
  | .setJob _ | .enqueuePipeline .. | .saddPending _ | .sremPending _ | .zaddLease ..
  | .zremLease _ =>
    True
  | _ => False

theorem answers_frame {r r' : Redis} {c : RedisCmd} {x : c.Reply} (hc : ¬ Moves c)
    (h : r.Answers c x r') :
    r'.jobs = r.jobs ∧ r'.pending = r.pending ∧ r'.leases = r.leases := by
  cases c with
  | setJob | enqueuePipeline | saddPending | sremPending | zaddLease | zremLease =>
    exact absurd trivial hc
  | setNxIdempotency key id =>
    simp only [Redis.Answers] at h
    split at h
    · rw [h.2]
      exact ⟨rfl, rfl, rfl⟩
    · rw [h.2]
      exact ⟨rfl, rfl, rfl⟩
  | setPreview | setIdempotency | delPayload | incrStreak | setStreak =>
    obtain rfl := h
    exact ⟨rfl, rfl, rfl⟩
  | _ =>
    rw [h.2]
    exact ⟨rfl, rfl, rfl⟩

section
variable {i : ω × Role} {c : Cmd} {k : Except PyExc c.Reply → Task} {h : Host ω}

/-- What the threads are like after a command. -/
theorem Inv.threads {v : Except PyExc c.Reply} (hi : Inv a) (next : a.threads i = .cmd c k)
    (hdoes : does False i.1 a.shared c v h) :
    (∀ i', Sound i'.1 (fun _ => True) (Function.update a.threads i (k v) i')) ∧
      ∀ w, Ended (Function.update a.threads i (k v) (w, .exec)) ∨
        Sound w Jobless (Function.update a.threads i (k v) (w, .main)) := by
  have hnext : ∀ {post}, Sound i.1 post (a.threads i) → Sound i.1 post (k v) := by
    intro post hsound
    rw [next] at hsound
    exact (hsound.step hdoes).2
  constructor
  · refine (Function.forall_update_iff _
      fun (i' : ω × Role) p => Sound i'.1 (fun _ => True) p).mpr ?_
    exact ⟨hnext (hi.sound i), fun i' _ => hi.sound i'⟩
  · intro w
    rcases hi.alone w with hended | hjobless
    · have hne : (w, Role.exec) ≠ i := by
        rintro rfl
        obtain ⟨o | o, ho⟩ := hended
        · cases next.symm.trans ho
        · cases next.symm.trans ho
      exact Or.inl (by rwa [Function.update_of_ne hne])
    · refine Or.inr ?_
      rcases eq_or_ne (w, Role.main) i with rfl | hne
      · rw [Function.update_self]
        exact hnext hjobless
      · rwa [Function.update_of_ne hne]

/-- A command that is answered: what is out of its place afterwards is up to this thread, or was up
to some thread before and the command does not change that. -/
theorem Inv.answered {x : c.Reply} (hi : Inv a) (next : a.threads i = .cmd c k)
    (hdoes : does False i.1 a.shared c (.ok x) h)
    (hqueued : ∀ j, h.redis.statusOf j = some .queued → j ∉ h.redis.pending →
      (k (.ok x)).Will (Returns j) ∨ ¬ Returns j c ∧ ∃ i', (a.threads i').Will (Returns j))
    (hrunning : ∀ j, h.redis.statusOf j = some .running → j ∉ h.redis.leases →
      (k (.ok x)).Will (Leases j) ∨ ¬ Leases j c ∧ ∃ i', (a.threads i').Will (Leases j)) :
    Inv ⟨h, Function.update a.threads i (k (.ok x))⟩ := by
  obtain ⟨hsound, halone⟩ := hi.threads next hdoes
  have hwill : ∀ {P : Cmd → Prop}, (k (.ok x)).Will P ∨ ¬ P c ∧ (∃ i', (a.threads i').Will P) →
      ∃ i', (Function.update a.threads i (k (.ok x)) i').Will P := by
    rintro P (hk | ⟨hc, hother⟩)
    · exact ⟨i, by rwa [Function.update_self]⟩
    · exact will_of_command next hc x hother
  exact ⟨fun j hj hn => hwill (hqueued j hj hn), fun j hj hn => hwill (hrunning j hj hn), hsound,
    halone⟩

/-- A command that leaves the queue alone. -/
theorem Inv.frame {x : c.Reply} (hi : Inv a) (next : a.threads i = .cmd c k)
    (hdoes : does False i.1 a.shared c (.ok x) h) (hjobs : h.redis.jobs = a.shared.redis.jobs)
    (hpending : h.redis.pending = a.shared.redis.pending)
    (hleases : h.redis.leases = a.shared.redis.leases)
    (hc : ∀ j, ¬ Returns j c ∧ ¬ Leases j c) :
    Inv ⟨h, Function.update a.threads i (k (.ok x))⟩ := by
  have hstatus : ∀ j, h.redis.statusOf j = a.shared.redis.statusOf j := fun j => by
    rw [Redis.statusOf, Redis.statusOf, hjobs]
  refine hi.answered next hdoes (fun j hj hn => ?_) fun j hj hn => ?_
  · rw [hstatus] at hj
    rw [hpending] at hn
    exact Or.inr ⟨(hc j).1, hi.queued j hj hn⟩
  · rw [hstatus] at hj
    rw [hleases] at hn
    exact Or.inr ⟨(hc j).2, hi.running j hj hn⟩

end

/-- **A command to Redis.** -/
theorem Inv.of_redis {i : ω × Role} {c : RedisCmd} {k : Except PyExc c.Reply → Task} {x : c.Reply}
    {r : Redis} (hi : Inv a) (hcareful : Careful a (.command i (.redis c)))
    (next : a.threads i = .cmd (.redis c) k) (hr : a.shared.redis.Answers c x r) :
    Inv ⟨{ a.shared with redis := r }, Function.update a.threads i (k (.ok x))⟩ := by
  have hdoes : does False i.1 a.shared (.redis c) (.ok x) { a.shared with redis := r } :=
    ⟨r, hr, rfl⟩
  have horderly : Orderly (.cmd (.redis c) k) := by
    have hsound := hi.sound i
    rw [next] at hsound
    exact (hsound.step hdoes).1
  -- six commands can put a job out of place; the others leave the three keys alone
  by_cases hmoves : Moves c
  · refine hi.answered next hdoes ?_ ?_
    · intro j hj hn
      cases c with
      | setJob record =>
        obtain rfl := hr
        rcases eq_or_ne j record.jobId with rfl | hne
        · rw [Redis.statusOf_setJob_self, Option.some.injEq] at hj
          exact Or.inl (horderly.1 hj)
        · rw [Redis.statusOf_setJob_of_ne _ _ hne] at hj
          refine Or.inr ⟨?_, hi.queued j hj hn⟩
          simpa [Returns] using fun h => absurd h.symm hne
      | enqueuePipeline => exact horderly.elim
      | saddPending j₀ =>
        obtain rfl := hr
        rw [Finset.mem_insert, not_or] at hn
        exact Or.inr ⟨by simpa [Returns] using Ne.symm hn.1, hi.queued j hj hn.2⟩
      | sremPending j₀ =>
        obtain ⟨hx, rfl⟩ := hr
        have hc : ¬ Returns j (.redis (.sremPending j₀)) := by simp [Returns]
        by_cases hpending : j ∈ a.shared.redis.pending
        · obtain rfl : j = j₀ := by
            by_contra hne
            exact hn (Finset.mem_erase.mpr ⟨hne, hpending⟩)
          -- the job may leave the set only on its way to running
          rcases hcareful hj with ⟨k', hk', hwill⟩ | hother
          · cases next.symm.trans hk'
            obtain rfl : x = true := hx.trans (decide_eq_true hpending)
            exact Or.inl hwill
          · exact Or.inr ⟨hc, hother⟩
        · exact Or.inr ⟨hc, hi.queued j hj hpending⟩
      | zaddLease j₀ t =>
        obtain rfl := hr
        exact Or.inr ⟨by simp [Returns], hi.queued j hj hn⟩
      | zremLease j₀ =>
        obtain rfl := hr
        exact Or.inr ⟨by simp [Returns], hi.queued j hj hn⟩
      | _ => exact hmoves.elim
    · intro j hj hn
      cases c with
      | setJob record =>
        obtain rfl := hr
        rcases eq_or_ne j record.jobId with rfl | hne
        · rw [Redis.statusOf_setJob_self, Option.some.injEq] at hj
          exact Or.inl (horderly.2 hj)
        · rw [Redis.statusOf_setJob_of_ne _ _ hne] at hj
          exact Or.inr ⟨by simp [Leases], hi.running j hj hn⟩
      | enqueuePipeline => exact horderly.elim
      | saddPending j₀ =>
        obtain rfl := hr
        exact Or.inr ⟨by simp [Leases], hi.running j hj hn⟩
      | sremPending j₀ =>
        obtain ⟨-, rfl⟩ := hr
        exact Or.inr ⟨by simp [Leases], hi.running j hj hn⟩
      | zaddLease j₀ t =>
        obtain rfl := hr
        rw [ZSet.mem_add, not_or] at hn
        exact Or.inr ⟨by simpa [Leases] using Ne.symm hn.1, hi.running j hj hn.2⟩
      | zremLease j₀ =>
        obtain rfl := hr
        have hc : ¬ Leases j (.redis (.zremLease j₀)) := by simp [Leases]
        by_cases hlease : j ∈ a.shared.redis.leases
        · obtain rfl : j = j₀ := by
            by_contra hne
            exact hn (ZSet.mem_rem.mpr ⟨hlease, hne⟩)
          -- a lease of a running job goes only when another one is about to be written
          exact Or.inr ⟨hc, hcareful hj⟩
        · exact Or.inr ⟨hc, hi.running j hj hlease⟩
      | _ => exact hmoves.elim
  · obtain ⟨hjobs, hpending, hleases⟩ := answers_frame hmoves hr
    refine hi.frame next hdoes hjobs hpending hleases fun j => ⟨?_, ?_⟩
    · rintro (h | ⟨record, h, -⟩)
      · cases h
        exact hmoves trivial
      · cases h
        exact hmoves trivial
    · rintro ⟨t, h⟩
      cases h
      exact hmoves trivial

/-- **A command of a thread.** -/
theorem Inv.of_command {i : ω × Role} {c : Cmd} (hi : Inv a) (hcareful : Careful a (.command i c))
    (hst : Pool.Step (fun i : ω × Role => does False i.1) a (i, c) b) : Inv b := by
  cases hst with
  | @run _ _ k v h next hdoes =>
  cases c with
  | redis c =>
    cases v with
    | ok x =>
      obtain ⟨r, hr, rfl⟩ := hdoes
      exact hi.of_redis hcareful next hr
    | error e => exact hdoes.1.elim
  | post payload =>
    -- the thread is about to do nothing, so the request may fail
    obtain ⟨hsound, halone⟩ := hi.threads next hdoes
    have horderly := hi.sound i
    rw [next] at horderly
    have hnot := (horderly.step hdoes).1
    obtain rfl : h = a.shared := by
      cases v with
      | ok resp => exact hdoes
      | error e => exact hdoes.2
    refine ⟨fun j hj hn => ?_, fun j hj hn => ?_, hsound, halone⟩
    · refine will_of_update (fun hwill => ?_) (hi.queued j hj hn)
      rw [next] at hwill
      obtain ⟨⟨x, hx⟩, -⟩ := hnot j
      exact hx (hwill.step (by simp [Returns]) x)
    · refine will_of_update (fun hwill => ?_) (hi.running j hj hn)
      rw [next] at hwill
      obtain ⟨-, x, hx⟩ := hnot j
      exact hx (hwill.step (by simp [Leases]) x)
  | now | newJobId =>
    cases v with
    | ok x =>
      obtain rfl := hdoes
      exact hi.frame next rfl rfl rfl rfl fun j => by simp [Returns, Leases]
    | error e => exact hdoes.elim
  | getRetryCount j =>
    cases v with
    | ok n =>
      obtain ⟨hn, rfl⟩ := hdoes
      exact hi.frame next ⟨hn, rfl⟩ rfl rfl rfl fun j => by simp [Returns, Leases]
    | error e => exact hdoes.elim
  | setRetryCount j n =>
    cases v with
    | ok _ =>
      obtain rfl := hdoes
      exact hi.frame next rfl rfl rfl rfl fun j => by simp [Returns, Leases]
    | error e => exact hdoes.elim

/-- A thread that is done gets a program. -/
theorem Inv.of_assign {i : ω × Role} {p : Task} (hi : Inv a) (hended : Ended (a.threads i))
    (hp : Sound i.1 (fun _ => True) p)
    (halone : ∀ w, Ended (Function.update a.threads i p (w, .exec)) ∨
      Sound w Jobless (Function.update a.threads i p (w, .main))) : Inv (a.assign i p) where
  queued j hj hn := will_of_update (not_will_of_ended hended) (hi.queued j hj hn)
  running j hj hn := will_of_update (not_will_of_ended hended) (hi.running j hj hn)
  sound := (Function.forall_update_iff _ fun (i' : ω × Role) p => Sound i'.1 (fun _ => True) p).mpr
    ⟨hp, fun i' _ => hi.sound i'⟩
  alone := halone

/-- The main thread of a worker gets a program, with the executing thread done or no job to come. -/
theorem Inv.of_main {w : ω} {p : Task} (hi : Inv a) (hended : Ended (a.threads (w, .main)))
    (hp : Sound w (fun _ => True) p) (hfree : Ended (a.threads (w, .exec)) ∨ Sound w Jobless p) :
    Inv (a.assign (w, .main) p) := by
  refine hi.of_assign hended hp fun w' => ?_
  have hexec : (w', Role.exec) ≠ (w, Role.main) := by simp
  rw [Function.update_of_ne hexec]
  rcases eq_or_ne w' w with rfl | hne
  · rw [Function.update_self]
    exact hfree
  · have hmain : (w', Role.main) ≠ (w, Role.main) := by simpa using hne
    rw [Function.update_of_ne hmain]
    exact hi.alone w'

theorem Inv.of_submit {maxRetries : Int} {w : ω} {job : JobRecord} (hi : Inv a)
    (hmain : a.threads (w, .main) = .ret (some job)) :
    Inv ((a.assign (w, .main) idle).assign (w, .exec) (executeTask maxRetries job)) := by
  have hidle : ∀ post, post (.ok none) → Sound w post idle := fun _ h => sound_ret h
  have hexec : Ended (a.threads (w, .exec)) := by
    refine (hi.alone w).resolve_right fun hjobless => ?_
    rw [hmain] at hjobless
    exact hjobless a.shared a.shared trivial job rfl
  have hi' := hi.of_main (w := w) ⟨.ok (some job), hmain⟩ (hidle _ trivial)
    (Or.inr (hidle _ jobless_none))
  have hne : (w, Role.exec) ≠ (w, Role.main) := by simp
  have hkept : (a.assign (w, .main) idle).threads (w, .exec) = a.threads (w, .exec) :=
    Function.update_of_ne hne ..
  refine hi'.of_assign (hkept.symm ▸ hexec) (sound_executeTask.weaken fun _ _ => trivial)
    fun w' => ?_
  have hmain' : (w', Role.main) ≠ (w, Role.exec) := by simp
  rw [Function.update_of_ne hmain']
  rcases eq_or_ne w' w with rfl | hw
  · refine Or.inr ?_
    have hset : (a.assign (w', .main) idle).threads (w', .main) = idle := Function.update_self ..
    rw [hset]
    exact hidle _ jobless_none
  · have hexec' : (w', Role.exec) ≠ (w, Role.exec) := by simpa using hw
    rw [Function.update_of_ne hexec']
    exact hi'.alone w'

theorem Inv.of_enqueue {record : JobRecord} {payload : GatewayRequest} (hi : Inv a)
    (hqueued : record.status = .queued) : Inv (a.enqueued record payload) := by
  have hother : ∀ j, j ≠ record.jobId →
      (a.enqueued record payload).shared.redis.statusOf j = a.shared.redis.statusOf j :=
    fun j hne => a.shared.redis.statusOf_setJob_of_ne record hne
  have hself : (a.enqueued record payload).shared.redis.statusOf record.jobId = some .queued := by
    rw [← hqueued]
    exact a.shared.redis.statusOf_setJob_self record
  refine ⟨fun j hj hn => ?_, fun j hj hn => ?_, hi.sound, hi.alone⟩
  · have hpending : j ∉ insert record.jobId a.shared.redis.pending := hn
    rw [Finset.mem_insert, not_or] at hpending
    rw [hother j hpending.1] at hj
    exact hi.queued j hj hpending.2
  · rcases eq_or_ne j record.jobId with rfl | hne
    · cases hself.symm.trans hj
    · rw [hother j hne] at hj
      exact hi.running j hj hn

/-- **One step of the fleet.** -/
theorem Inv.of_step {maxRetries : Int} {l : Label ω} (hi : Inv a) (halive : ∀ w, l ≠ .restart w)
    (hcareful : Careful a l) (hst : Fleet.Step False maxRetries a l b) : Inv b := by
  cases hst with
  | command runs => exact hi.of_command hcareful runs
  | reap main =>
    have hended : Ended (a.threads (_, .main)) := ⟨.ok none, main⟩
    exact hi.of_main hended (sound_reapTask.weaken fun _ _ => trivial) (Or.inr sound_reapTask)
  | claim main exec => exact hi.of_main ⟨.ok none, main⟩ sound_claimTask (Or.inl exec)
  | submit main => exact hi.of_submit main
  | restart => exact absurd rfl (halive _)
  | enqueue => exact hi.of_enqueue rfl

/-- With no operation in progress nothing is up to a thread. -/
theorem Inv.inPlace (hi : Inv a) (hrest : ∀ i, AtRest (a.threads i)) : InPlace a.shared.redis := by
  have hnot : ∀ i j, ¬ (a.threads i).Will (Returns j) ∧ ¬ (a.threads i).Will (Leases j) := by
    intro i j
    rcases hrest i with hended | ⟨payload, k, hpost⟩
    · exact ⟨not_will_of_ended hended, not_will_of_ended hended⟩
    · have hsound := hi.sound i
      rw [hpost] at hsound
      have hpost' : does False i.1 a.shared (.post payload) (.ok ⟨200, .ok "", ""⟩) a.shared := rfl
      have hnot := (hsound.step hpost').1
      obtain ⟨⟨x, hx⟩, y, hy⟩ := hnot j
      rw [hpost]
      exact ⟨fun h => hx (h.step (by simp [Returns]) x), fun h => hy (h.step (by simp [Leases]) y)⟩
  intro j
  constructor
  · intro hj
    by_contra hn
    obtain ⟨i, hi⟩ := hi.queued j hj hn
    exact (hnot i j).1 hi
  · intro hj
    by_contra hn
    obtain ⟨i, hi⟩ := hi.running j hj hn
    exact (hnot i j).2 hi

theorem inv_start {redis : Redis} (h : InPlace redis) : Inv (Fleet.start redis : Fleet ω) where
  queued j hj hn := absurd ((h j).1 hj) hn
  running j hj hn := absurd ((h j).2 hj) hn
  sound _ := sound_ret trivial
  alone _ := Or.inl ⟨.ok none, rfl⟩

theorem jobs_in_place {redis : Redis} {maxRetries : Int} {ts : List (Fleet ω × Label ω × Fleet ω)}
    (hplaces : InPlace redis) (hrun : Run (Fleet.Step False maxRetries) (Fleet.start redis) ts a)
    (halive : ∀ t ∈ ts, ∀ w, t.2.1 ≠ .restart w) (hcareful : ∀ t ∈ ts, Careful t.1 t.2.1)
    (hrest : ∀ i, AtRest (a.threads i)) : InPlace a.shared.redis := by
  have hrestricted := hrun.restrict (P := fun a l => (∀ w, l ≠ .restart w) ∧ Careful a l)
    fun t ht => ⟨halive t ht, hcareful t ht⟩
  have hinv := hrestricted.invariant (inv_start hplaces)
    fun _ _ _ hi hst => hi.of_step hst.1.1 hst.1.2 hst.2
  exact hinv.inPlace hrest

end

end

/-! ## An expired lease -/

/-- The job once it is claimed. -/
def runningJob : JobRecord :=
  { Recovery.oneRecord with status := .running, startedAt := some 0 }

def expiredLease : Redis :=
  { Redis.empty.setJob runningJob with leases := ZSet.empty.add "job_a" 60 }

theorem inPlace_expiredLease : InPlace expiredLease := by
  intro j
  rcases eq_or_ne j "job_a" with rfl | hne
  · exact ⟨fun h => absurd h (by decide), fun _ => ZSet.mem_add.mpr (Or.inl rfl)⟩
  · have hnone : expiredLease.statusOf j = none :=
      Redis.empty.statusOf_setJob_of_ne runningJob hne
    exact ⟨fun h => (by cases hnone.symm.trans h), fun h => by cases hnone.symm.trans h⟩

/-- Careful steps of two workers that live. -/
abbrev Guarded (a : Fleet Bool) (ts : List (Fleet Bool × Label Bool × Fleet Bool))
    (b : Fleet Bool) : Prop :=
  Run (fun a l b => ((∀ w, l ≠ .restart w) ∧ Careful a l) ∧ Fleet.Step False 3 a l b) a ts b

theorem guarded_on {a b : Fleet Bool} {ts : List (Fleet Bool × Label Bool × Fleet Bool)}
    {i : Bool × Role} {c : Cmd} {k : Except PyExc c.Reply → Task} {v : Except PyExc c.Reply}
    {h : Host Bool} (hrun : Guarded a ts b) (next : b.threads i = .cmd c k)
    (hdoes : does False i.1 b.shared c v h) (hcareful : Careful b (.command i c)) :
    ∃ us, Guarded a us ⟨h, Function.update b.threads i (k v)⟩ :=
  ⟨_, hrun.tail ⟨⟨fun _ => by simp, hcareful⟩, .command (.run next hdoes)⟩⟩

/-- One worker of two puts a job back whose lease has expired. -/
theorem jobs_in_place_expired : ∃ ts a,
    Run (Fleet.Step False 3) (Fleet.start expiredLease : Fleet Bool) ts a ∧
    a.shared.redis.statusOf "job_a" = some .queued ∧ InPlace a.shared.redis := by
  have hstart : Guarded (Fleet.start expiredLease) [] _ := .refl
  have hcareful : (∀ w, Label.reap false ≠ Label.restart w) ∧
      Careful (Fleet.start expiredLease : Fleet Bool) (.reap false) := ⟨by simp, trivial⟩
  have hrun := hstart.tail (And.intro hcareful (.reap rfl))
  obtain ⟨_, hrun⟩ := guarded_on hrun (i := (false, .main)) (v := .ok 100) rfl rfl trivial
  obtain ⟨_, hrun⟩ := guarded_on hrun (i := (false, .main)) (v := .ok ["job_a"]) rfl
    ⟨_, ⟨by decide +kernel, rfl⟩, rfl⟩ trivial
  obtain ⟨_, hrun⟩ := guarded_on hrun (i := (false, .main)) (v := .ok (some runningJob)) rfl
    ⟨_, ⟨rfl, rfl⟩, rfl⟩ trivial
  obtain ⟨_, hrun⟩ := guarded_on hrun (i := (false, .main)) (v := .ok ()) rfl ⟨_, rfl, rfl⟩ trivial
  -- the lease goes once the record is queued
  obtain ⟨_, hrun⟩ := guarded_on hrun (i := (false, .main)) (v := .ok ()) rfl ⟨_, rfl, rfl⟩
    fun h => by cases h
  obtain ⟨_, hrun⟩ := guarded_on hrun (i := (false, .main)) (v := .ok ()) rfl ⟨_, rfl, rfl⟩ trivial
  obtain ⟨_, hrun⟩ := guarded_on hrun (i := (false, .main)) (v := .ok 1) rfl
    ⟨_, ⟨rfl, rfl⟩, rfl⟩ trivial
  obtain ⟨ts, hrun⟩ := guarded_on hrun (i := (false, .main)) (v := .ok 0) rfl
    ⟨_, ⟨by decide +kernel, rfl⟩, rfl⟩ trivial
  have hsteps := hrun.steps
  refine ⟨ts, _, hrun.mono fun _ _ _ h => h.2, rfl, ?_⟩
  refine jobs_in_place inPlace_expiredLease (hrun.mono fun _ _ _ h => h.2)
    (fun t ht => (hsteps t ht).1.1) (fun t ht => (hsteps t ht).1.2) ?_
  rintro ⟨_ | _, _ | _⟩
  · exact Or.inl ⟨.ok none, rfl⟩
  · exact Or.inl ⟨.ok none, rfl⟩
  · exact Or.inl ⟨.ok none, rfl⟩
  · exact Or.inl ⟨.ok none, rfl⟩

/-! ## Two workers -/

/-- Two workers that live. -/
abbrev Pair (a : Fleet Bool) (ts : List (Fleet Bool × Label Bool × Fleet Bool)) (b : Fleet Bool) :
    Prop :=
  Run (fun a l b => (∀ w, l ≠ .restart w) ∧ Fleet.Step False 3 a l b) a ts b

/-- A run goes on with commands of one thread. -/
theorem pair_on {a b : Fleet Bool} {ts : List (Fleet Bool × Label Bool × Fleet Bool)} {q : Task}
    {h : Host Bool} (hrun : Pair a ts b) (i : Bool × Role)
    (hsteps : Prog.Steps (does False i.1) (b.threads i) b.shared q h) :
    ∃ us, Pair a us ⟨h, Function.update b.threads i q⟩ := by
  have hrefl : Run (Fleet.Step False 3) b [] b := .refl
  obtain ⟨us, hus, hcommands⟩ := Fleet.run_on hrefl i hsteps
  refine ⟨_, hrun.append (hus.restrict (P := fun _ l => ∀ w, l ≠ .restart w) fun t ht w => ?_)⟩
  obtain ⟨c, hc⟩ := hcommands t ht
  rw [hc]
  simp

/-- A claim that finds one job pending, up to its look at the record; if the job is running by then,
the claim drops it from the pending set and is done. -/
theorem claimTask_looks {w : Bool} {h : Host Bool} {j : JobId} (hpending : h.redis.pending = {j}) :
    ∃ k : Except PyExc (Option JobRecord) → Task,
      Prog.Steps (does False w) (claimTask 60 none) h (.cmd (.redis (.getJob j)) k) h ∧
      ∀ r : JobRecord, r.status = .running →
        ∃ k', k (.ok (some r)) = .cmd (.redis (.sremPending j)) k' ∧
          ∀ b, k' (.ok b) = .ret none := by
  simp only [claimTask, claimNextJob, Prog.perform_bind]
  apply Exists.intro
  constructor
  · refine .cmd (v := .ok [j]) ⟨h.redis, ⟨⟨List.nodup_singleton j, ?_⟩, rfl⟩, rfl⟩ ?_
    · simp [hpending]
    refine .cmd (v := .ok 0) rfl ?_
    simp only [Prog.onReply_ok, collectCandidates, getJob, Prog.perform_bind, Prog.cmd_bind]
    exact .refl
  · intro r hr
    simp only [Prog.onReply_ok, hr, reduceCtorEq, if_false, Prog.cmd_bind]
    exact ⟨_, rfl, fun _ => rfl⟩

/-- An execution whose request fails for the first time puts the job back. -/
theorem executeTask_requeues {w : Bool} {h : Host Bool} {job record : JobRecord}
    {payload : GatewayRequest} (hpayload : h.redis.payloads job.jobId = some payload)
    (hjob : h.redis.jobs job.jobId = some record) (hcount : h.retryCounts w job.jobId = 0) :
    ∃ h', Prog.Steps (does False w) (executeTask 3 job) h (.ret none) h' ∧
      h'.redis.jobs = (h.redis.setJob { record with status := .queued }).jobs ∧
      h'.redis.pending = insert job.jobId h.redis.pending := by
  simp only [executeTask, executeJob, attemptJob, getExecutionPayload, Prog.perform_bind,
    Prog.cmd_catch, Prog.cmd_bind]
  refine ⟨_, .cmd (v := .ok (some payload)) ⟨h.redis, ⟨hpayload.symm, rfl⟩, rfl⟩
    (.cmd (v := .error (.transportError "")) ⟨⟨"", rfl⟩, rfl⟩
    (.cmd (v := .ok 0) ⟨hcount.symm, rfl⟩ (.cmd (v := .ok ()) rfl
    (.cmd (v := .ok (some record)) ⟨_, ⟨hjob.symm, rfl⟩, rfl⟩ (.cmd (v := .ok ()) ⟨_, rfl, rfl⟩
    (.cmd (v := .ok ()) ⟨_, rfl, rfl⟩ (.cmd (v := .ok ()) ⟨_, rfl, rfl⟩ .refl))))))), rfl, rfl⟩

/-- One job is submitted. -/
def oneJob : Fleet Bool :=
  (Fleet.start .empty).enqueued Recovery.oneRecord (makePreview "prev" .normal 50).gatewayRequest

/-- **A requeued job is dropped as dirty.** One worker reads the pending set; the other claims the
job, and the first finds it running. The job's request fails and it is put back, and then the first
worker removes it. -/
theorem requeued_job_dropped : ∃ ts a,
    Run (Fleet.Step False 3) (Fleet.start .empty : Fleet Bool) ts a ∧
    (∀ t ∈ ts, ∀ w, t.2.1 ≠ .restart w) ∧ (∀ i, Ended (a.threads i)) ∧
    a.shared.redis.statusOf "job_a" = some .queued ∧ "job_a" ∉ a.shared.redis.pending := by
  have hend : Ended idle := ⟨.ok none, rfl⟩
  have hstart : Pair (Fleet.start .empty) [] _ := .refl
  have henqueue : Fleet.Step False 3 (Fleet.start .empty) (.enqueue Recovery.oneRecord) oneJob :=
    .enqueue rfl (by decide)
  have hrun := hstart.tail (And.intro (fun _ h => by cases h) henqueue)
  have hrun := hrun.tail (And.intro (fun _ h => by cases h) (.claim (w := false) rfl hend 60 none))
  have hrun := hrun.tail (And.intro (fun _ h => by cases h) (.claim (w := true) rfl hend 60 none))
  -- the first worker reads the pending set
  obtain ⟨k, hlook, hdrop⟩ := @claimTask_looks false oneJob.shared "job_a" rfl
  obtain ⟨_, hrun⟩ := pair_on hrun (false, .main) hlook
  -- the second claims the job
  obtain ⟨h, hclaim, hjobs, -, hpayloads, hpending, hcounts⟩ :=
    Recovery.startJob_steps (w := true) False 60 0
    (candidate defaultQueuePolicy 0 "job_a" Recovery.oneRecord) _
  obtain ⟨_, hrun⟩ := pair_on hrun (true, .main)
    ((Recovery.claimTask_steps False 60 0 rfl rfl rfl).trans hclaim)
  have hjob : h.redis.jobs "job_a" = some runningJob := by
    rw [hjobs]
    exact Redis.setJob_self ..
  -- the first finds it running
  obtain ⟨k', hk, hnone⟩ := hdrop runningJob rfl
  obtain ⟨_, hrun⟩ := pair_on hrun (false, .main)
    (.cmd (v := .ok (some runningJob)) ⟨_, ⟨hjob.symm, rfl⟩, rfl⟩ .refl)
  -- the second executes it, and puts it back
  have hrun := hrun.tail (And.intro (fun _ h => by cases h) (.submit (w := true) rfl))
  obtain ⟨h', hrequeue, hjobs', hpending'⟩ := @executeTask_requeues true h runningJob _ _
    (by rw [hpayloads]; rfl) hjob (by rw [hcounts]; rfl)
  obtain ⟨_, hrun⟩ := pair_on hrun (true, .exec) hrequeue
  -- and the first drops it
  have hmember : "job_a" ∈ h'.redis.pending := by
    rw [hpending']
    exact Finset.mem_insert_self _ _
  have hdoes : does False false h' (.redis (.sremPending "job_a")) (.ok true)
      { h' with redis := { h'.redis with pending := h'.redis.pending.erase "job_a" } } :=
    ⟨_, ⟨(decide_eq_true hmember).symm, rfl⟩, rfl⟩
  have hremove : Prog.Steps (does False false) (k (.ok (some runningJob))) h' (.ret none)
      { h' with redis := { h'.redis with pending := h'.redis.pending.erase "job_a" } } := by
    rw [hk, ← hnone true]
    exact .cmd hdoes .refl
  obtain ⟨us, hrun⟩ := pair_on hrun (false, .main) hremove
  refine ⟨us, _, hrun.mono fun _ _ _ h => h.2, fun t ht => (hrun.steps t ht).1, ?_, ?_, ?_⟩
  · rintro ⟨_ | _, _ | _⟩
    · exact hend
    · exact hend
    · exact hend
    · exact hend
  · show (h'.redis.jobs "job_a").map (·.status) = _
    rw [hjobs']
    exact congrArg (Option.map _) (Redis.setJob_self ..)
  · exact Finset.notMem_erase _ _

end PolyGate.Automation.Concurrent
