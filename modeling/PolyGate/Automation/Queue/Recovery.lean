import PolyGate.Automation.Worker

/-!
# `Automation/Queue/Recovery.lean` — one worker, killed between any two commands

A job moves between the pending set and the leases with separate commands, its record being
written in between. `Unlisted` is a job that a later claim or reap can no longer reach; during
an operation that is normal, provided the operation is still going to put the job somewhere
(`Carrying`). The invariant is `Inv`: every unlisted job is carried by a thread.

A kill drops what the threads carry. `claim_crash_loses_job` kills the worker right after the
`SREM` of a claim, and the job is in neither set for good. Apart from that the store holds what
the worker promises: `no_job_lost` is for every run in which the worker is killed only while it
carries no job that is out of both sets.

The executing thread and a round of reaping run side by side; a claim has the worker to itself.
So there are two relies: `Beside` for the first case and `Submissions` for the second.
-/

namespace PolyGate.Automation.Recovery

open Lib

/-! ## What must not get lost -/

/-- Queued and in neither set, or running without a lease. -/
def Unlisted (r : Redis) (j : JobId) : Prop :=
  r.statusOf j = some .queued ∧ j ∉ r.pending ∧ j ∉ r.leases ∨
  r.statusOf j = some .running ∧ j ∉ r.leases

/-- The commands that put a job into one of the sets. -/
def Puts (j : JobId) (c : Cmd) : Prop :=
  c = .redis (.saddPending j) ∨ ∃ t, c = .redis (.zaddLease j t)

/-- The program is still going to put the job into one of the sets. -/
def Carrying (p : Task) (j : JobId) : Prop := p.Will (Puts j)

/-- Every job a claim or a reap could be needed for is in one of the sets. -/
def Recoverable (r : Redis) : Prop :=
  ∀ j, r.statusOf j = some .queued ∨ r.statusOf j = some .running → j ∈ r.pending ∨ j ∈ r.leases

theorem recoverable_of_listed {r : Redis} (h : ∀ j, ¬ Unlisted r j) : Recoverable r := by
  intro j hj
  by_contra hn
  rw [not_or] at hn
  rcases hj with hj | hj
  · exact h j (Or.inl ⟨hj, hn⟩)
  · exact h j (Or.inr ⟨hj, hn.2⟩)

/-! ## One worker's threads, each with the other's hands in view -/

abbrev View := Host Unit × (Unit × Role → JobId → Prop)

/-- What the other thread carries. -/
def others (i : Role) (s : View) : JobId → Prop := s.2 ((), i.other)

/-- Every unlisted job is carried, by this thread or by the other. -/
def Inv (i : Role) (s : View) (p : Task) : Prop :=
  ∀ j, Unlisted s.1.redis j → Carrying p j ∨ others i s j

/-- Finished, or queued with its place in the pending set taken care of. -/
def Settled (i : Role) (s : View) (j : JobId) : Prop :=
  (∃ st, s.1.redis.statusOf j = some st ∧ st.Terminal) ∨
  s.1.redis.statusOf j = some .queued ∧ (j ∈ s.1.redis.pending ∨ others i s j)

/-- The worker's commands, none of Redis's raising, with the other's hands as ghosts. -/
abbrev runs : Exec Cmd Cmd.Reply PyExc View := (does False ()).withGhost

/-! ## Reaping beside executing -/

section Beside

/-- What a thread relies on while the other reaps or executes: nothing leaves the pending set;
a job whose status changes is settled; what the other carries it keeps until the job is
pending. -/
structure Beside (i : Role) (s s' : View) : Prop where
  pending : s.1.redis.pending ⊆ s'.1.redis.pending
  status : ∀ j, s'.1.redis.statusOf j = s.1.redis.statusOf j ∨ Settled i s' j
  hands : ∀ j, others i s j → others i s' j ∨ j ∈ s'.1.redis.pending

/-- What a thread that reaps or executes guarantees for one step. -/
structure Works (i : Role) (s : View) (p : Task) (s' : View) (q : Task) : Prop where
  keeps : Inv i s p → Inv i s' q
  pending : s.1.redis.pending ⊆ s'.1.redis.pending
  status : ∀ j, s'.1.redis.statusOf j = s.1.redis.statusOf j ∨
    (∃ st, s'.1.redis.statusOf j = some st ∧ st.Terminal) ∨
    s'.1.redis.statusOf j = some .queued ∧ (j ∈ s'.1.redis.pending ∨ Carrying q j)
  hands : ∀ j, Carrying p j → Carrying q j ∨ j ∈ s'.1.redis.pending

theorem Beside.refl (i : Role) (s : View) : Beside i s s :=
  ⟨fun _ => id, fun _ => Or.inl rfl, fun _ => Or.inl⟩

variable {i : Role}

theorem Beside.settled {s s' : View} {j : JobId} (hb : Beside i s s') (h : Settled i s j) :
    Settled i s' j := by
  rcases hb.status j with heq | h'
  · rw [Settled, heq]
    refine h.imp_right (And.imp_right fun h => ?_)
    rcases h with hp | ho
    · exact Or.inl (hb.pending hp)
    · exact (hb.hands j ho).symm
  · exact h'

theorem Beside.not_running {s s' : View} {j : JobId} (hb : Beside i s s')
    (h : s.1.redis.statusOf j ≠ some .running) : s'.1.redis.statusOf j ≠ some .running := by
  rcases hb.status j with heq | ⟨st, hst, hterm⟩ | ⟨hq, -⟩
  · rwa [heq]
  · rw [hst]
    rintro ⟨⟩
    exact hterm
  · simp [hq]

theorem Beside.trans (i : Role) (a b c : View) (hab : Beside i a b) (hbc : Beside i b c) :
    Beside i a c where
  pending := fun _ h => hbc.pending (hab.pending h)
  status j := by
    rcases hbc.status j with h | h
    · rcases hab.status j with h' | h'
      · exact Or.inl (h.trans h')
      · exact Or.inr (hbc.settled h')
    · exact Or.inr h
  hands j h := by
    rcases hab.hands j h with h | h
    · exact hbc.hands j h
    · exact Or.inr (hbc.pending h)

/-- Neither reaping nor executing ends with a job to hand over. -/
abbrev WorkSafe (i : Role) (p : Task) (s : View) : Prop :=
  p.Safe runs (Beside i) (Works i) (fun o _ => ∀ job, o ≠ .ok (some job)) s

theorem workSafe_idle (s : View) : WorkSafe i idle s := fun _ _ => by simp

theorem workSafe_raise (e : PyExc) (s : View) : WorkSafe i (.raise e) s := fun _ _ => by simp

/-- A step that leaves the three parts of the queue alone and puts nothing. -/
theorem Works.quiet {s : View} {c : Cmd} {k : Except PyExc c.Reply → Task} {x : c.Reply}
    {h : Host Unit} (hjobs : h.redis.jobs = s.1.redis.jobs)
    (hpending : h.redis.pending = s.1.redis.pending) (hleases : h.redis.leases = s.1.redis.leases)
    (hc : ∀ j, ¬ Puts j c) : Works i s (.cmd c k) (h, s.2) (k (.ok x)) := by
  have hstatus : ∀ j, h.redis.statusOf j = s.1.redis.statusOf j := fun j => by
    simp [Redis.statusOf, hjobs]
  refine ⟨fun hi j hu => ?_, hpending.ge, fun j => Or.inl (hstatus j), fun j hj => ?_⟩
  · rw [Unlisted, hstatus j, hpending, hleases] at hu
    exact (hi j hu).imp_left fun hj => hj.step (hc j) x
  · exact Or.inl (hj.step (hc j) x)

/-- The command always gets an answer, and leaves the queue alone. -/
def Quiet (c : Cmd) : Prop :=
  (∀ j, ¬ Puts j c) ∧ ∀ h v h', does False () h c v h' → (∃ x, v = .ok x) ∧
    h'.redis.jobs = h.redis.jobs ∧ h'.redis.pending = h.redis.pending ∧
    h'.redis.leases = h.redis.leases

theorem quiet_redis {c : RedisCmd} (hc : ∀ j, ¬ Puts j (.redis c))
    (h : ∀ (r : Redis) x r', r.Answers c x r' → r'.jobs = r.jobs ∧ r'.pending = r.pending ∧
      r'.leases = r.leases) : Quiet (.redis c) := by
  refine ⟨hc, ?_⟩
  rintro a (_ | x) a' hd
  · exact hd.1.elim
  · obtain ⟨r, hr, rfl⟩ := hd
    exact ⟨⟨x, rfl⟩, h _ _ _ hr⟩

theorem quiet_now : Quiet .now := by
  refine ⟨by simp [Puts], ?_⟩
  rintro a (_ | x) a' hd
  · exact hd.elim
  · obtain rfl := hd
    exact ⟨⟨x, rfl⟩, rfl, rfl, rfl⟩

theorem workSafe_quiet {c : Cmd} {k : Except PyExc c.Reply → Task} {s : View} (hc : Quiet c)
    (hk : ∀ x t, WorkSafe i (k (.ok x)) t) : WorkSafe i (.cmd c k) s := by
  rintro s' - v ⟨h, g⟩ ⟨hdoes, rfl⟩
  obtain ⟨⟨x, rfl⟩, hjobs, hpending, hleases⟩ := hc.2 _ _ _ hdoes
  exact ⟨.quiet hjobs hpending hleases hc.1, hk x _⟩

/-- The rule for a command that changes the queue. -/
theorem workSafe_redis {c : RedisCmd} {k : Except PyExc c.Reply → Task} {s : View}
    (hk : ∀ s', Beside i s s' → ∀ x r, s'.1.redis.Answers c x r →
      Works i s' (.cmd (.redis c) k) ({ s'.1 with redis := r }, s'.2) (k (.ok x)) ∧
      WorkSafe i (k (.ok x)) ({ s'.1 with redis := r }, s'.2)) :
    WorkSafe i (.cmd (.redis c) k) s := by
  rintro s' hb v ⟨h, g⟩ ⟨hdoes, rfl⟩
  cases v with
  | ok x =>
    obtain ⟨r, hr, rfl⟩ := hdoes
    exact hk s' hb x r hr
  | error e => exact hdoes.1.elim

theorem workSafe_getJob {j : JobId} {k : Except PyExc (Option JobRecord) → Task} {s : View}
    (hk : ∀ x t, (∀ r, x = some r → r.jobId = j) → WorkSafe i (k (.ok x)) t) :
    WorkSafe i (.cmd (.redis (.getJob j)) k) s := by
  refine workSafe_redis fun s' _ x r hans => ?_
  obtain ⟨rfl, rfl⟩ := hans
  exact ⟨.quiet rfl rfl rfl (by simp [Puts]), hk _ _ fun rec hrec => s'.1.redis.jobs_key j rec hrec⟩

/-- A step about job `j`: every other job is as it was. -/
theorem Works.about {s : View} {c : Cmd} {k : Except PyExc c.Reply → Task} {x : c.Reply}
    {r : Redis} (j : JobId) (hc : ∀ j', j' ≠ j → ¬ Puts j' c)
    (hothers : ∀ j', j' ≠ j → r.statusOf j' = s.1.redis.statusOf j' ∧
      (j' ∈ s.1.redis.pending → j' ∈ r.pending) ∧ (j' ∈ s.1.redis.leases → j' ∈ r.leases))
    (hpending : j ∈ s.1.redis.pending → j ∈ r.pending)
    (hkeeps : Unlisted r j → Unlisted s.1.redis j ∧ ¬ Puts j c ∨ Carrying (k (.ok x)) j ∨
      others i s j)
    (hstatus : r.statusOf j = s.1.redis.statusOf j ∨
      (∃ st, r.statusOf j = some st ∧ st.Terminal) ∨
      r.statusOf j = some .queued ∧ (j ∈ r.pending ∨ Carrying (k (.ok x)) j))
    (hhands : Puts j c → j ∈ r.pending) :
    Works i s (.cmd c k) ({ s.1 with redis := r }, s.2) (k (.ok x)) where
  keeps hi j' hu := by
    rcases eq_or_ne j' j with rfl | hne
    · rcases hkeeps hu with ⟨hu', hput⟩ | h
      · exact (hi j' hu').imp_left fun hj => hj.step hput x
      · exact h
    · obtain ⟨hst, hpe, hle⟩ := hothers j' hne
      have hu' : Unlisted s.1.redis j' := by
        rw [Unlisted, hst] at hu
        exact hu.imp (And.imp_right (And.imp (mt hpe) (mt hle))) (And.imp_right (mt hle))
      exact (hi j' hu').imp_left fun hj => hj.step (hc j' hne) x
  pending j' hj' := by
    rcases eq_or_ne j' j with rfl | hne
    · exact hpending hj'
    · exact (hothers j' hne).2.1 hj'
  status j' := by
    rcases eq_or_ne j' j with rfl | hne
    · exact hstatus
    · exact Or.inl (hothers j' hne).1
  hands j' hj' := by
    rcases eq_or_ne j' j with rfl | hne
    · by_cases hput : Puts j' c
      · exact Or.inr (hhands hput)
      · exact Or.inl (hj'.step hput x)
    · exact Or.inl (hj'.step (hc j' hne) x)

/-- Writing a record of a job that is carried, as queued, or of a finished job. -/
theorem Works.setJob {s : View} {record : JobRecord}
    {k : Except PyExc (Cmd.redis (.setJob record)).Reply → Task} {x : Unit}
    (h : record.status.Terminal ∨
      record.status = .queued ∧ Carrying (k (.ok x)) record.jobId) :
    Works i s (.cmd (.redis (.setJob record)) k)
      ({ s.1 with redis := s.1.redis.setJob record }, s.2) (k (.ok x)) := by
  refine .about record.jobId (by simp [Puts]) (fun j' hne => ?_) id (fun hu => ?_) ?_
    (by simp [Puts])
  · exact ⟨s.1.redis.statusOf_setJob_of_ne record hne, id, id⟩
  · rcases h with h | h
    · simp only [Unlisted, Redis.statusOf_setJob_self, Option.some.injEq] at hu
      rcases hu with hu | hu <;> rw [hu.1] at h <;> exact h.elim
    · exact Or.inr (Or.inl h.2)
  · rcases h with h | h
    · exact Or.inr (Or.inl ⟨_, s.1.redis.statusOf_setJob_self record, h⟩)
    · exact Or.inr (Or.inr ⟨by rw [Redis.statusOf_setJob_self, h.1], Or.inr h.2⟩)

/-- Removing a lease: the job is carried, or somebody else's, or not there to be lost. -/
theorem Works.zrem {s : View} {j : JobId}
    {k : Except PyExc (Cmd.redis (.zremLease j)).Reply → Task} {x : Unit}
    (h : Carrying (k (.ok x)) j ∨ others i s j ∨
      ¬ Unlisted { s.1.redis with leases := s.1.redis.leases.rem j } j) :
    Works i s (.cmd (.redis (.zremLease j)) k)
      ({ s.1 with redis := { s.1.redis with leases := s.1.redis.leases.rem j } }, s.2)
      (k (.ok x)) := by
  refine .about j (by simp [Puts]) (fun j' hne => ⟨rfl, id, fun hl => ?_⟩) id (fun hu => ?_)
    (Or.inl rfl) (by simp [Puts])
  · exact ZSet.mem_rem.mpr ⟨hl, hne⟩
  · rcases h with h | h | h
    · exact Or.inr (Or.inl h)
    · exact Or.inr (Or.inr h)
    · exact absurd hu h

/-- Adding a job that is not running to the pending set. -/
theorem Works.sadd {s : View} {j : JobId}
    {k : Except PyExc (Cmd.redis (.saddPending j)).Reply → Task} {x : Unit}
    (h : s.1.redis.statusOf j ≠ some .running) :
    Works i s (.cmd (.redis (.saddPending j)) k)
      ({ s.1 with redis := { s.1.redis with pending := insert j s.1.redis.pending } }, s.2)
      (k (.ok x)) := by
  have hmem : j ∈ insert j s.1.redis.pending := Finset.mem_insert_self _ _
  refine .about j ?_ (fun j' _ => ⟨rfl, Finset.mem_insert_of_mem, id⟩) Finset.mem_insert_of_mem
    (fun hu => ?_) (Or.inl rfl) (fun _ => hmem)
  · intro j' hne hput
    simp [Puts] at hput
    exact hne hput.symm
  · rcases hu with ⟨-, hn, -⟩ | ⟨hr, -⟩
    · exact absurd hmem hn
    · exact absurd hr h

/-- After its `SET`, `requeue_job` carries the job until the `SADD`. -/
theorem workSafe_requeueJob {j : JobId} {f : Except PyExc Unit → Task} {s : View}
    (hf : ∀ o t, WorkSafe i (f o) t) : WorkSafe i ((requeueJob j).andThen f) s := by
  simp only [requeueJob, getJob, saveJob, Prog.perform_bind, Prog.cmd_andThen]
  refine workSafe_getJob fun x t hx => ?_
  cases x with
  | none => exact hf _ _
  | some record =>
    obtain rfl : record.jobId = j := hx record rfl
    simp only [Prog.onReply_ok, Prog.cmd_andThen]
    refine workSafe_redis fun t₁ _ _ r hr => ?_
    obtain rfl := hr
    refine ⟨Works.setJob (Or.inr ⟨rfl, ?_⟩), ?_⟩
    · simp [Carrying, Puts]
    simp only [Prog.onReply_ok, Prog.cmd_andThen]
    refine workSafe_redis fun t₂ hb₂ _ r hr => ?_
    obtain rfl := hr
    have hq₂ := hb₂.not_running (j := record.jobId) (by simp [Redis.statusOf])
    refine ⟨Works.zrem (Or.inl ?_), ?_⟩
    · simp [Carrying, Puts]
    simp only [Prog.onReply_ok, Prog.perform_andThen]
    refine workSafe_redis fun t₃ hb₃ _ r hr => ?_
    obtain rfl := hr
    exact ⟨Works.sadd (hb₃.not_running hq₂), hf _ _⟩

theorem workSafe_requeueAll {f : Except PyExc Unit → Task} (hf : ∀ o t, WorkSafe i (f o) t)
    (ids : List JobId) {s : View} : WorkSafe i ((requeueAll ids).andThen f) s := by
  induction ids generalizing s with
  | nil => exact hf _ _
  | cons j rest ih =>
    simp only [requeueAll, Prog.bind_andThen]
    refine workSafe_requeueJob fun o t => ?_
    cases o with
    | ok _ => exact ih
    | error e => exact hf _ _

/-- A settled job may lose its lease. -/
theorem Settled.zrem {s : View} {j : JobId} (h : Settled i s j) : others i s j ∨
    ¬ Unlisted { s.1.redis with leases := s.1.redis.leases.rem j } j := by
  rcases h with ⟨st, hst, hterm⟩ | ⟨hq, hp | ho⟩
  · refine Or.inr fun hu => ?_
    have hst' : st = .queued ∨ st = .running := by
      rcases hu with hu | hu
      · exact Or.inl (Option.some.inj (hst.symm.trans hu.1))
      · exact Or.inr (Option.some.inj (hst.symm.trans hu.1))
    rcases hst' with rfl | rfl <;> exact hterm
  · refine Or.inr fun hu => ?_
    rcases hu with ⟨-, hn, -⟩ | ⟨hr, -⟩
    · exact hn hp
    · exact absurd (hq.symm.trans hr) (by simp)
  · exact Or.inl ho

/-- `complete_job` and `fail_job`: once the final record is written, the job stays settled, so
its lease may go whatever a round of reaping does meanwhile. -/
theorem workSafe_finishJob {j : JobId} {finish : JobRecord → Time → JobRecord}
    (hterm : ∀ r t, (finish r t).status.Terminal) (hid : ∀ r t, (finish r t).jobId = r.jobId)
    {f : Except PyExc Unit → Task} {s : View} (hf : ∀ o t, WorkSafe i (f o) t) :
    WorkSafe i ((finishJob j finish).andThen f) s := by
  simp only [finishJob, getJob, saveJob, clearExecutionPayload, Prog.perform_bind,
    Prog.cmd_andThen]
  refine workSafe_getJob fun x t hx => ?_
  cases x with
  | none => exact hf _ _
  | some record =>
    obtain rfl : record.jobId = j := hx record rfl
    simp only [Prog.onReply_ok, Prog.cmd_andThen]
    refine workSafe_quiet quiet_now fun completedAt t => ?_
    simp only [Prog.onReply_ok, Prog.cmd_andThen]
    refine workSafe_redis fun t₁ _ _ r hr => ?_
    obtain rfl := hr
    refine ⟨Works.setJob (Or.inl (hterm _ _)), ?_⟩
    simp only [Prog.onReply_ok, Prog.cmd_andThen]
    refine workSafe_redis fun t₂ hb₂ _ r hr => ?_
    obtain rfl := hr
    have hset := t₁.1.redis.statusOf_setJob_self (finish record completedAt)
    rw [hid] at hset
    have hsettled := hb₂.settled (j := record.jobId) (Or.inl ⟨_, hset, hterm record completedAt⟩)
    refine ⟨Works.zrem (Or.inr hsettled.zrem), ?_⟩
    simp only [Prog.onReply_ok, Prog.perform_andThen]
    refine workSafe_quiet (quiet_redis (by simp [Puts]) ?_) fun _ _ => hf _ _
    rintro r - _ rfl
    exact ⟨rfl, rfl, rfl⟩

theorem workSafe_completeJob {j : JobId} {result : JsonText} {f : Except PyExc Unit → Task}
    {s : View} (hf : ∀ o t, WorkSafe i (f o) t) :
    WorkSafe i ((completeJob j result).andThen f) s := by
  unfold completeJob
  refine workSafe_finishJob ?_ ?_ hf
  · exact fun _ _ => trivial
  · exact fun _ _ => rfl

theorem workSafe_failJob {j : JobId} {error : String} {f : Except PyExc Unit → Task}
    {s : View} (hf : ∀ o t, WorkSafe i (f o) t) :
    WorkSafe i ((failJob j error).andThen f) s := by
  unfold failJob
  refine workSafe_finishJob ?_ ?_ hf
  · exact fun _ _ => trivial
  · exact fun _ _ => rfl

theorem workSafe_handleFailure {maxRetries : Int} {j : JobId} {exc : PyExc}
    {f : Except PyExc Unit → Task} {s : View} (hf : ∀ o t, WorkSafe i (f o) t) :
    WorkSafe i ((handleFailure maxRetries j exc).andThen f) s := by
  simp only [handleFailure, Prog.perform_bind, Prog.cmd_andThen]
  refine workSafe_quiet ⟨by simp [Puts], ?_⟩ fun n t => ?_
  · rintro h (_ | x) h' hd
    · exact hd.elim
    · obtain ⟨-, rfl⟩ := hd
      exact ⟨⟨x, rfl⟩, rfl, rfl, rfl⟩
  simp only [Prog.onReply_ok]
  split
  · simp only [Prog.cmd_andThen]
    refine workSafe_quiet ⟨by simp [Puts], ?_⟩ fun _ t => workSafe_requeueJob hf
    rintro h (_ | x) h' hd
    · exact hd.elim
    · obtain rfl := hd
      exact ⟨⟨x, rfl⟩, rfl, rfl, rfl⟩
  · exact workSafe_failJob hf

/-- The request may fail; before it, the `try` part of `execute_job` carries nothing, since it
may yet return without touching the queue. -/
theorem Works.post {s : View} {payload : GatewayRequest} {k : Except PyExc Response → Task}
    {v : Except PyExc Response} (hk : ∀ j, ∃ x, ¬ Carrying (k (.ok x)) j) :
    Works i s (.cmd (.post payload) k) s (k v) := by
  have hnot : ∀ j, ¬ Carrying (.cmd (.post payload) k) j := by
    rintro j (h | h)
    · simp [Puts] at h
    · obtain ⟨x, hx⟩ := hk j
      exact hx (h x)
  exact ⟨fun hi j hu => (hi j hu).elim (fun h => absurd h (hnot j)) Or.inr, fun _ => id,
    fun j => Or.inl rfl, fun j h => absurd h (hnot j)⟩

theorem workSafe_attemptJob {j : JobId} {f : Except PyExc Unit → Task} {s : View}
    (hidle : f (.ok ()) = idle) (hf : ∀ o t, WorkSafe i (f o) t) :
    WorkSafe i ((attemptJob j).andThen f) s := by
  simp only [attemptJob, getExecutionPayload, Prog.perform_bind, Prog.cmd_andThen]
  refine workSafe_quiet (quiet_redis (by simp [Puts]) ?_) fun payload t => ?_
  · rintro r - _ ⟨-, rfl⟩
    exact ⟨rfl, rfl, rfl⟩
  cases payload with
  | none => exact hf _ _
  | some payload =>
    simp only [Prog.onReply_ok, Prog.cmd_andThen]
    rintro t' - v ⟨h, g⟩ ⟨hdoes, rfl⟩
    obtain rfl : h = t'.1 := by
      cases v with
      | ok resp => exact hdoes
      | error e => exact hdoes.2
    have hempty : ∀ j', ¬ Carrying ((completeJob j "").andThen f) j' := by
      -- a completion that finds no record puts nothing
      intro j'
      simp only [completeJob, finishJob, getJob, Prog.perform_bind, Prog.cmd_andThen]
      rintro (h | h)
      · simp [Puts] at h
      · simpa [hidle, idle] using h none
    refine ⟨.post fun j' => ⟨⟨200, .ok "", ""⟩, ?_⟩, ?_⟩
    · simpa [Response.raiseForStatus, Response.parse] using hempty j'
    · cases v with
      | error e => exact hf _ _
      | ok resp =>
        simp only [Prog.onReply_ok, Response.raiseForStatus, Response.parse]
        split
        · cases resp.json with
          | ok result => exact workSafe_completeJob hf
          | error msg => exact hf _ _
        · exact hf _ _

theorem workSafe_executeTask {maxRetries : Int} {job : JobRecord} {s : View} :
    WorkSafe i (executeTask maxRetries job) s := by
  have hend : ∀ (o : Except PyExc Unit) t,
      WorkSafe i (Prog.onReply (fun _ => idle) o) t := by
    rintro (_ | _) t
    · exact workSafe_raise _ _
    · exact workSafe_idle _
  have hfail : ∀ exc t, WorkSafe i ((handleFailure maxRetries job.jobId exc).andThen
      (Prog.onReply fun _ => idle)) t := fun exc t => workSafe_handleFailure hend
  simp only [executeTask, executeJob, Prog.bind_eq_andThen, Prog.catch_andThen]
  refine workSafe_attemptJob rfl fun o t => ?_
  cases o with
  | ok _ => exact hend _ _
  | error exc => exact hfail exc t

/-- A round of reaping: the expired leases are requeued one after the other. -/
theorem workSafe_reapTask {s : View} : WorkSafe i reapTask s := by
  simp only [reapTask, reapExpiredLeases, Prog.perform_bind, Prog.cmd_bind, Prog.onReply_bind]
  refine workSafe_quiet quiet_now fun now t => ?_
  simp only [Prog.onReply_ok, Prog.bind_assoc]
  refine workSafe_quiet (quiet_redis (by simp [Puts]) ?_) fun ids t => ?_
  · rintro r - _ ⟨-, rfl⟩
    exact ⟨rfl, rfl, rfl⟩
  simp only [Prog.onReply_ok, Prog.bind_eq_andThen]
  refine workSafe_requeueAll (fun o t => ?_) ids
  cases o with
  | error e => exact workSafe_raise _ _
  | ok _ =>
    -- the gauges
    simp only [Prog.onReply_ok, Prog.pure_eq, Prog.ret_andThen, queueDepth, inFlightCount,
      Prog.perform_andThen]
    refine workSafe_quiet (quiet_redis (by simp [Puts]) ?_) fun _ t => ?_
    · rintro r - _ ⟨-, rfl⟩
      exact ⟨rfl, rfl, rfl⟩
    simp only [Prog.onReply_ok]
    refine workSafe_quiet (quiet_redis (by simp [Puts]) ?_) fun _ t => workSafe_idle _
    rintro r - _ ⟨-, rfl⟩
    exact ⟨rfl, rfl, rfl⟩

end Beside

/-! ## A claim, with the worker to itself -/

section Claim

/-- What a claim relies on: submissions add jobs that were nowhere. -/
structure Submissions (s s' : View) : Prop where
  pending : s.1.redis.pending ⊆ s'.1.redis.pending
  jobs : ∀ j, s'.1.redis.jobs j = s.1.redis.jobs j ∨
    s.1.redis.jobs j = none ∧ j ∉ s.1.redis.pending

theorem Submissions.refl (s : View) : Submissions s s := ⟨fun _ => id, fun _ => Or.inl rfl⟩

theorem Submissions.trans (a b c : View) (hab : Submissions a b) (hbc : Submissions b c) :
    Submissions a c where
  pending := fun _ h => hbc.pending (hab.pending h)
  jobs j := by
    rcases hab.jobs j with h | h
    · rw [← h]
      refine (hbc.jobs j).imp_right (And.imp_right (mt ?_))
      exact fun hp => hab.pending hp
    · exact Or.inr h

abbrev ClaimSafe (p : Task) (s : View) : Prop :=
  p.Safe runs Submissions (fun s p s' q => Inv .main s p → Inv .main s' q)
    (fun _ _ => True) s

/-- What one command of a claim has to show. -/
theorem keeps {s : View} {c : Cmd} {k : Except PyExc c.Reply → Task} {x : c.Reply}
    {h : Host Unit} (hu : ∀ j, Unlisted h.redis j →
      Unlisted s.1.redis j ∧ ¬ Puts j c ∨ Carrying (k (.ok x)) j)
    (hi : Inv .main s (.cmd c k)) : Inv .main (h, s.2) (k (.ok x)) := by
  intro j hj
  rcases hu j hj with ⟨hj', hput⟩ | hj'
  · exact (hi j hj').imp_left fun hc => hc.step hput x
  · exact Or.inl hj'

theorem claimSafe_quiet {c : Cmd} {k : Except PyExc c.Reply → Task} {s : View} (hc : Quiet c)
    (hk : ∀ x t, s.1.redis.pending ⊆ t.1.redis.pending → ClaimSafe (k (.ok x)) t) :
    ClaimSafe (.cmd c k) s := by
  rintro s' hb v ⟨h, g⟩ ⟨hdoes, rfl⟩
  obtain ⟨⟨x, rfl⟩, hjobs, hpending, hleases⟩ := hc.2 _ _ _ hdoes
  dsimp only at hjobs hpending hleases
  refine ⟨keeps fun j hj => Or.inl ⟨?_, hc.1 j⟩, hk x _ (hpending ▸ hb.pending)⟩
  simpa only [Unlisted, Redis.statusOf, hjobs, hpending, hleases] using hj

theorem claimSafe_redis {c : RedisCmd} {k : Except PyExc c.Reply → Task} {s : View}
    (hk : ∀ s', Submissions s s' → ∀ x r, s'.1.redis.Answers c x r →
      (∀ j, Unlisted r j → Unlisted s'.1.redis j ∧ ¬ Puts j (.redis c) ∨
        Carrying (k (.ok x)) j) ∧
      ClaimSafe (k (.ok x)) ({ s'.1 with redis := r }, s'.2)) :
    ClaimSafe (.cmd (.redis c) k) s := by
  rintro s' hb v ⟨h, g⟩ ⟨hdoes, rfl⟩
  cases v with
  | ok x =>
    obtain ⟨r, hr, rfl⟩ := hdoes
    exact ⟨keeps (hk s' hb x r hr).1, (hk s' hb x r hr).2⟩
  | error e => exact hdoes.1.elim

theorem quiet_get {c : RedisCmd} (hc : ∀ j, ¬ Puts j (.redis c))
    (h : ∀ (r : Redis) x r', r.Answers c x r' → r' = r) : Quiet (.redis c) :=
  quiet_redis hc fun r x r' hr => by
    obtain rfl := h r x r' hr
    exact ⟨rfl, rfl, rfl⟩

/-- Dropping a job that was seen not to be queued loses nothing. -/
theorem claimSafe_drop {j : JobId} {k : Except PyExc Bool → Task} {s : View}
    (hs : s.1.redis.statusOf j ≠ some .queued) (hp : j ∈ s.1.redis.pending)
    (hk : ∀ x t, (∀ j', j' ∈ s.1.redis.pending → j' ≠ j → j' ∈ t.1.redis.pending) →
      ClaimSafe (k (.ok x)) t) :
    ClaimSafe (.cmd (.redis (.sremPending j)) k) s := by
  refine claimSafe_redis fun s' hb x r hr => ?_
  obtain ⟨-, rfl⟩ := hr
  have hs' : s'.1.redis.statusOf j ≠ some .queued := by
    rcases hb.jobs j with h | h
    · rwa [Redis.statusOf, h]
    · exact absurd hp h.2
  refine ⟨fun j' hu => Or.inl ⟨?_, by simp [Puts]⟩, hk _ _ fun j' hj' hne => ?_⟩
  · rcases hu with ⟨hq, hn, hl⟩ | hu
    · refine Or.inl ⟨hq, fun hm => hn (Finset.mem_erase.mpr ⟨?_, hm⟩), hl⟩
      rintro rfl
      exact hs' hq
    · exact Or.inr hu
  · exact Finset.mem_erase.mpr ⟨hne, hb.pending hj'⟩

/-- The loop over the pending ids. The ids still to be looked at are pending, so no submission
can bring one of them to life between the look and the `SREM`. -/
theorem claimSafe_collect {policy : QueuePolicy} {now : Time} {ids : List JobId}
    {f : List Candidate → Task} {s : View} (hnd : ids.Nodup)
    (hids : ∀ j ∈ ids, j ∈ s.1.redis.pending)
    (hf : ∀ cs t, (∀ c ∈ cs, c.record.jobId = c.jobId) → ClaimSafe (f cs) t) :
    ClaimSafe (collectCandidates policy now ids >>= f) s := by
  induction ids generalizing s f with
  | nil => exact hf [] s (by simp)
  | cons j rest ih =>
    obtain ⟨hj, hnd⟩ := List.nodup_cons.mp hnd
    simp only [collectCandidates, getJob, Prog.perform_bind, Prog.cmd_bind, Prog.onReply_bind]
    refine claimSafe_redis fun s' hb x r hr => ?_
    obtain ⟨rfl, rfl⟩ := hr
    have hpend : ∀ j' ∈ j :: rest, j' ∈ s'.1.redis.pending := fun j' h => hb.pending (hids j' h)
    have hdrop : s'.1.redis.statusOf j ≠ some .queued →
        ClaimSafe (.cmd (.redis (.sremPending j))
          (Prog.onReply fun _ => collectCandidates policy now rest >>= f)) s' := fun hs =>
      claimSafe_drop hs (hpend j List.mem_cons_self) fun _ t ht => ih hnd
        (fun j' hj' => ht j' (hpend j' (List.mem_cons_of_mem _ hj')) fun he => hj (he ▸ hj')) hf
    refine ⟨fun j' hu => Or.inl ⟨hu, by simp [Puts]⟩, ?_⟩
    cases hrec : s'.1.redis.jobs j with
    | none =>
      simp only [Prog.onReply_ok, Prog.cmd_bind, Prog.onReply_bind]
      exact hdrop (by simp [Redis.statusOf, hrec])
    | some record =>
      simp only [Prog.onReply_ok]
      split
      · rw [Prog.bind_assoc]
        refine ih hnd (fun j' hj' => hpend j' (List.mem_cons_of_mem _ hj')) fun cs t hcs => ?_
        refine hf _ t fun c hc => ?_
        rcases List.mem_cons.mp hc with rfl | hc
        · exact s'.1.redis.jobs_key j record hrec
        · exact hcs c hc
      · rename_i hne
        simp only [Prog.cmd_bind, Prog.onReply_bind]
        exact hdrop (by simpa [Redis.statusOf, hrec] using hne)

/-- Writing the record of a carried job. -/
theorem claimSafe_setJob {record : JobRecord}
    {k : Except PyExc (Cmd.redis (.setJob record)).Reply → Task} {s : View}
    (hcarry : ∀ x, Carrying (k (.ok x)) record.jobId) (hk : ∀ x t, ClaimSafe (k (.ok x)) t) :
    ClaimSafe (.cmd (.redis (.setJob record)) k) s := by
  refine claimSafe_redis fun s' _ x r hr => ?_
  obtain rfl := hr
  refine ⟨fun j hu => ?_, hk _ _⟩
  rcases eq_or_ne j record.jobId with rfl | hne
  · exact Or.inr (hcarry x)
  · refine Or.inl ⟨?_, by simp [Puts]⟩
    simpa only [Unlisted, Redis.statusOf_setJob_of_ne _ record hne, Redis.setJob_pending,
      Redis.setJob_leases] using hu

theorem claimSafe_zadd {j : JobId} {score : Time}
    {k : Except PyExc (Cmd.redis (.zaddLease j score)).Reply → Task} {s : View}
    (hk : ∀ x t, ClaimSafe (k (.ok x)) t) :
    ClaimSafe (.cmd (.redis (.zaddLease j score)) k) s := by
  refine claimSafe_redis fun s' _ x r hr => ?_
  obtain rfl := hr
  refine ⟨fun j' hu => Or.inl ?_, hk _ _⟩
  rcases hu with ⟨hq, hn, hl⟩ | ⟨hrun, hl⟩
  · rw [ZSet.mem_add, not_or] at hl
    exact ⟨Or.inl ⟨hq, hn, hl.2⟩, by simpa [Puts] using Ne.symm hl.1⟩
  · rw [ZSet.mem_add, not_or] at hl
    exact ⟨Or.inr ⟨hrun, hl.2⟩, by simpa [Puts] using Ne.symm hl.1⟩

/-- From the `SREM` to the lease the claim carries the chosen job. -/
theorem carrying_startJob (leaseSeconds : Int) (chosen : Candidate) :
    Carrying (startJob leaseSeconds chosen >>= fun record => pure (some record))
      chosen.jobId := by
  refine Prog.Will.bind ?_ _
  simp only [startJob, leaseJob, saveJob, Prog.perform_bind]
  split <;> simp [Puts]

theorem claimSafe_leaseJob {leaseSeconds : Int} {chosen : Candidate} {s : View}
    (hid : chosen.record.jobId = chosen.jobId) :
    ClaimSafe (leaseJob leaseSeconds chosen >>= fun record => pure (some record)) s := by
  simp only [leaseJob, saveJob, Prog.perform_bind, Prog.cmd_bind, Prog.onReply_bind]
  refine claimSafe_quiet quiet_now fun startedAt t _ => ?_
  refine claimSafe_setJob (fun _ => ?_) fun _ t => ?_
  · simp [Carrying, Puts, hid]
  refine claimSafe_quiet quiet_now fun now t _ => ?_
  exact claimSafe_zadd fun _ t => fun _ _ => trivial

theorem claimSafe_startJob {leaseSeconds : Int} {chosen : Candidate} {s : View}
    (hid : chosen.record.jobId = chosen.jobId) :
    ClaimSafe (startJob leaseSeconds chosen >>= fun record => pure (some record)) s := by
  have hquiet : ∀ (r : Redis) x r',
      r.Answers .incrStreak x r' ∨ (∃ n, r.Answers (.setStreak n) x r') →
      r'.jobs = r.jobs ∧ r'.pending = r.pending ∧ r'.leases = r.leases := by
    rintro r - _ (rfl | ⟨_, rfl⟩) <;> exact ⟨rfl, rfl, rfl⟩
  simp only [startJob, Prog.perform_bind]
  split
  · simp only [Prog.cmd_bind, Prog.onReply_bind]
    exact claimSafe_quiet (quiet_redis (by simp [Puts]) fun r x r' h => hquiet r x r' (Or.inl h))
      fun _ _ _ => claimSafe_leaseJob hid
  · simp only [Prog.cmd_bind, Prog.onReply_bind]
    exact claimSafe_quiet
      (quiet_redis (by simp [Puts]) fun r x r' h => hquiet r x r' (Or.inr ⟨_, h⟩))
      fun _ _ _ => claimSafe_leaseJob hid

theorem claimSafe_claimTask {leaseSeconds : Int} {queuePolicy : Option QueuePolicy} {s : View} :
    ClaimSafe (claimTask leaseSeconds queuePolicy) s := by
  have hnone : ∀ t, ClaimSafe (.ret none) t := fun _ _ _ => trivial
  simp only [claimTask, claimNextJob, Prog.perform_bind]
  refine claimSafe_redis fun s₁ _ ids r hr => ?_
  obtain ⟨⟨hnd, hids⟩, rfl⟩ := hr
  refine ⟨fun j hu => Or.inl ⟨hu, by simp [Puts]⟩, ?_⟩
  simp only [Prog.onReply_ok]
  split
  · exact hnone _
  refine claimSafe_quiet quiet_now fun now t hpend => ?_
  simp only [Prog.onReply_ok]
  refine claimSafe_collect hnd (fun j hj => hpend ?_) fun cs t hcs => ?_
  · rw [← hids]
    exact List.mem_toFinset.mpr hj
  split
  · exact hnone _
  refine claimSafe_quiet (quiet_get (by simp [Puts]) fun r x r' h => h.2) fun streak t _ => ?_
  simp only [Prog.onReply_ok]
  split
  · exact hnone _
  · rename_i chosen hchosen
    have hid : chosen.record.jobId = chosen.jobId := hcs chosen (choose_mem hchosen)
    refine claimSafe_redis fun s₃ _ x r hr => ?_
    obtain ⟨rfl, rfl⟩ := hr
    simp only [Prog.onReply_ok]
    -- the chosen job is in nobody's hands but this program's from here on
    split
    · refine ⟨fun j hu => ?_, claimSafe_startJob hid⟩
      rcases eq_or_ne j chosen.jobId with rfl | hne
      · exact Or.inr (carrying_startJob leaseSeconds chosen)
      · refine Or.inl ⟨?_, by simp [Puts]⟩
        exact hu.imp_left fun h =>
          ⟨h.1, fun hm => h.2.1 (Finset.mem_erase.mpr ⟨hne, hm⟩), h.2.2⟩
    · rename_i hnot
      refine ⟨fun j hu => Or.inl ⟨?_, by simp [Puts]⟩, hnone _⟩
      rwa [Finset.erase_eq_of_notMem (by simpa using hnot)] at hu

end Claim

/-! ## Runs of the worker -/

abbrev Worker := Fleet Unit

/-- The process is not killed while it carries a job that is in neither set. -/
def CleanKill (w : Worker) (l : Label Unit) : Prop :=
  l = .restart () → ∀ i j, Carrying (w.threads i) j → ¬ Unlisted w.shared.redis j

/-- The two things a worker can be in the middle of. -/
inductive Phase (w : Worker) : Prop
  | beside (safe : ∀ i, WorkSafe i.2 (w.threads i) (w.view Carrying))
  | claiming (main : ClaimSafe (w.threads ((), .main)) (w.view Carrying))
      (exec : Ended (w.threads ((), .exec))) (done : ∀ s, WorkSafe .exec (w.threads ((), .exec)) s)

structure WorkerInv (w : Worker) : Prop where
  carried : ∀ j, Unlisted w.shared.redis j → ∃ i, Carrying (w.threads i) j
  phase : Phase w

theorem not_carrying_of_ended {p : Task} (h : Ended p) (j : JobId) : ¬ Carrying p j := by
  obtain ⟨o | o, rfl⟩ := h <;> exact id

theorem inv_iff (w : Worker) (i : Role) : Inv i (w.view Carrying) (w.threads ((), i)) ↔
    ∀ j, Unlisted w.shared.redis j → ∃ i, Carrying (w.threads i) j := by
  refine forall_congr' fun j => imp_congr_right fun _ => ?_
  constructor
  · rintro (h | h)
    · exact ⟨_, h⟩
    · exact ⟨_, h⟩
  · rintro ⟨⟨⟨⟩, i'⟩, h⟩
    rcases eq_or_ne i' i with rfl | hne
    · exact Or.inl h
    · obtain rfl : i' = i.other := by
        revert hne
        cases i <;> cases i' <;> simp [Role.other]
      exact Or.inr h

/-- What one thread guarantees for a step, the other relies on. -/
theorem Works.beside {i j : Unit × Role} {s s' : Host Unit} {p q : Task}
    {g : Unit × Role → JobId → Prop} (hij : i ≠ j) (hg : g i = Carrying p)
    (hw : Works i.2 (s, g) p (s', g) q) :
    Beside j.2 (s, g) (s', Function.update g i (Carrying q)) := by
  obtain ⟨⟨⟩, i⟩ := i
  obtain ⟨⟨⟩, j⟩ := j
  obtain rfl : i = j.other := by
    revert hij
    cases i <;> cases j <;> simp [Role.other]
  refine ⟨hw.pending, fun j' => ?_, fun j' ho => ?_⟩
  · simpa [Settled, others] using hw.status j'
  · have ho' : Carrying p j' := by simpa [others, hg] using ho
    simpa [others] using hw.hands j' ho'

/-- What a step of thread `i` keeps, read off the worker it leads to. -/
theorem carried_of_step {w w' : Worker} {i : Role}
    (hframe : w'.threads ((), i.other) = w.threads ((), i.other))
    (h : Inv i (w'.shared, (w.view Carrying).2) (w'.threads ((), i))) (j : JobId)
    (hu : Unlisted w'.shared.redis j) : ∃ i, Carrying (w'.threads i) j := by
  rcases h j hu with h | h
  · exact ⟨_, h⟩
  · refine ⟨((), i.other), ?_⟩
    rw [hframe]
    exact h

theorem Role.other_ne (i : Role) : ((), i.other) ≠ ((), i) := by cases i <;> simp [Role.other]

/-- **A command of the worker.** -/
theorem WorkerInv.of_command {w w' : Worker} {l : (Unit × Role) × Cmd} (hi : WorkerInv w)
    (hst : Pool.Step (fun i => does False i.1) w l w') : WorkerInv w' := by
  obtain ⟨⟨⟨⟩, i⟩, c⟩ := l
  have hframe : w'.threads ((), i.other) = w.threads ((), i.other) :=
    hst.frame (Role.other_ne i)
  have hinv := (inv_iff w i).mpr hi.carried
  rcases hi.phase with hsafe | ⟨hmain, hexec, hdone⟩
  · -- reaping beside executing: the parallel rule
    have hown : ∀ (i : Unit × Role) s (g : Unit × Role → JobId → Prop) x,
        Beside i.2 (s, g) (s, Function.update g i x) := by
      rintro ⟨⟨⟩, i⟩ s g x
      refine ⟨fun _ => id, fun _ => Or.inl rfl, fun j ho => Or.inl ?_⟩
      simpa [others, Function.update_of_ne (Role.other_ne i)] using ho
    obtain ⟨hworks, hsafe'⟩ := Pool.safe_step_ghost hsafe hst (fun i => Beside.refl i.2)
      (fun i => Beside.trans i.2) hown fun i j s p s' q g hij hg hw => hw.beside hij hg
    exact ⟨carried_of_step hframe (hworks.keeps hinv), .beside hsafe'⟩
  · -- claiming: the executing thread has nothing to execute
    cases hst with
    | @run _ _ k v s next does =>
    cases i with
    | exec =>
      obtain ⟨o, ho⟩ := hexec
      rw [next] at ho
      cases o <;> cases ho
    | main =>
      rw [next] at hmain hinv
      obtain ⟨hkeeps, hmain'⟩ := hmain (w.view Carrying) (Submissions.refl _) v
        (s, (w.view Carrying).2) ⟨does, rfl⟩
      refine ⟨carried_of_step hframe ?_, .claiming ?_ ?_ ?_⟩
      · simpa using hkeeps hinv
      · have hghost : Submissions (s, (w.view Carrying).2) (Pool.view Carrying
            ⟨s, Function.update w.threads ((), .main) (k v)⟩) := ⟨fun _ => id, fun _ => Or.inl rfl⟩
        simpa using hmain'.stable Submissions.trans hghost
      · exact Eq.mpr (congrArg Ended hframe) hexec
      · exact Eq.mpr (congrArg (fun p => ∀ s, WorkSafe .exec p s) hframe) hdone

theorem ended_idle : Ended idle := ⟨.ok none, rfl⟩

/-- With both threads done, nothing is carried, so nothing is unlisted. -/
theorem WorkerInv.listed {w : Worker} (hi : WorkerInv w) (hend : ∀ i, Ended (w.threads i))
    (j : JobId) :
    ¬ Unlisted w.shared.redis j := fun hu =>
  let ⟨i, hc⟩ := hi.carried j hu
  not_carrying_of_ended (hend i) j hc

/-- A worker about to start what its threads are to do, with every job in its place. -/
theorem WorkerInv.of_listed {w : Worker} (hlisted : ∀ j, ¬ Unlisted w.shared.redis j)
    (hsafe : ∀ i s, WorkSafe i.2 (w.threads i) s) : WorkerInv w :=
  ⟨fun j hu => absurd hu (hlisted j), .beside fun i => hsafe i _⟩

/-- The executing thread, as the main thread's next operation finds it. -/
theorem WorkerInv.exec_safe {w : Worker} (hi : WorkerInv w) :
    WorkSafe .exec (w.threads ((), .exec)) (w.view Carrying) := by
  rcases hi.phase with hsafe | ⟨-, -, hdone⟩
  · exact hsafe ((), .exec)
  · exact hdone _

theorem workSafe_of_ended {i : Role} {p : Task} {s : View} (hend : Ended p) (h : WorkSafe i p s)
    (s' : View) : WorkSafe i p s' := by
  obtain ⟨o | o, rfl⟩ := hend
  · exact fun _ _ => h s (Beside.refl i s)
  · exact fun _ _ => h s (Beside.refl i s)

/-- The main thread starts reaping, with the executing thread at work or not. -/
theorem WorkerInv.of_reap {w : Worker} (hi : WorkerInv w) (hmain : w.threads ((), .main) = idle) :
    WorkerInv (w.assign ((), .main) reapTask) := by
  have hexec : (w.assign ((), .main) reapTask).threads ((), .exec) = w.threads ((), .exec) := by
    simp [Fleet.assign]
  refine ⟨fun j hu => ?_, .beside ?_⟩
  · obtain ⟨⟨⟨⟩, i⟩, hc⟩ := hi.carried j hu
    cases i with
    | main =>
      rw [hmain] at hc
      exact absurd hc (not_carrying_of_ended ended_idle j)
    | exec => exact ⟨_, hexec.symm ▸ hc⟩
  · rintro ⟨⟨⟩, i⟩
    cases i with
    | main => simpa [Fleet.assign] using workSafe_reapTask
    | exec =>
      rw [hexec]
      refine hi.exec_safe.stable (Beside.trans _) ⟨fun _ => id, fun _ => Or.inl rfl, fun j ho => ?_⟩
      refine absurd ho (not_carrying_of_ended ?_ j)
      exact hmain ▸ ended_idle

theorem WorkerInv.of_claim {w : Worker} {leaseSeconds : Int} {queuePolicy : Option QueuePolicy}
    (hi : WorkerInv w) (hmain : w.threads ((), .main) = idle)
    (hend : Ended (w.threads ((), .exec))) :
    WorkerInv (w.assign ((), .main) (claimTask leaseSeconds queuePolicy)) := by
  have hlisted := hi.listed (by
    rintro ⟨⟨⟩, i⟩
    cases i with
    | main => exact hmain ▸ ended_idle
    | exec => exact hend)
  refine ⟨fun j hu => absurd hu (hlisted j), .claiming ?_ ?_ ?_⟩
  · simpa [Fleet.assign] using claimSafe_claimTask
  · simpa [Fleet.assign] using hend
  · simpa [Fleet.assign] using workSafe_of_ended hend hi.exec_safe

theorem WorkerInv.of_submit {maxRetries : Int} {w : Worker} {job : JobRecord} (hi : WorkerInv w)
    (hmain : w.threads ((), .main) = .ret (some job)) :
    WorkerInv ((w.assign ((), .main) idle).assign ((), .exec) (executeTask maxRetries job)) := by
  rcases hi.phase with hsafe | ⟨-, hend, -⟩
  · have h := hsafe ((), .main)
    rw [hmain] at h
    exact absurd rfl (h _ (Beside.refl _ _) job)
  · refine .of_listed (hi.listed ?_) ?_
    · rintro ⟨⟨⟩, i⟩
      cases i with
      | main => exact ⟨.ok (some job), hmain⟩
      | exec => exact hend
    · rintro ⟨⟨⟩, i⟩ s
      cases i with
      | main => simpa [Fleet.assign] using workSafe_idle s
      | exec => simpa [Fleet.assign] using workSafe_executeTask

/-- The pipeline of a submission, beside anything. -/
theorem WorkerInv.of_enqueue {w : Worker} {record : JobRecord} {payload : GatewayRequest}
    (hi : WorkerInv w) (hqueued : record.status = .queued)
    (hjob : w.shared.redis.jobs record.jobId = none)
    (hpend : record.jobId ∉ w.shared.redis.pending) : WorkerInv (w.enqueued record payload) := by
  have hmem : record.jobId ∈ (w.enqueued record payload).shared.redis.pending :=
    Finset.mem_insert_self _ _
  have hself : (w.enqueued record payload).shared.redis.statusOf record.jobId = some .queued := by
    rw [← hqueued]
    exact w.shared.redis.statusOf_setJob_self record
  have hsub : w.shared.redis.pending ⊆ (w.enqueued record payload).shared.redis.pending :=
    Finset.subset_insert _ _
  have hother : ∀ j, j ≠ record.jobId →
      (w.enqueued record payload).shared.redis.statusOf j = w.shared.redis.statusOf j :=
    fun j hne => w.shared.redis.statusOf_setJob_of_ne record hne
  refine ⟨fun j hu => ?_, ?_⟩
  · rcases eq_or_ne j record.jobId with rfl | hne
    · rcases hu with ⟨-, hn, -⟩ | ⟨hr, -⟩
      · exact absurd hmem hn
      · rw [hself] at hr
        cases hr
    · refine hi.carried j ?_
      rw [Unlisted, hother j hne] at hu
      exact hu.imp_left fun h => ⟨h.1, fun hm => h.2.1 (hsub hm), h.2.2⟩
  · rcases hi.phase with hsafe | ⟨hmain, hend, hdone⟩
    · refine .beside fun i => (hsafe i).stable (Beside.trans _) ⟨hsub, fun j => ?_, fun _ => Or.inl⟩
      rcases eq_or_ne j record.jobId with rfl | hne
      · exact Or.inr (Or.inr ⟨hself, Or.inl hmem⟩)
      · exact Or.inl (hother j hne)
    · refine .claiming (hmain.stable Submissions.trans ⟨hsub, fun j => ?_⟩) hend hdone
      rcases eq_or_ne j record.jobId with rfl | hne
      · exact Or.inr ⟨hjob, hpend⟩
      · exact Or.inl (w.shared.redis.setJob_of_ne record hne)

/-- **One step of the worker.** -/
theorem WorkerInv.of_step {maxRetries : Int} {w w' : Worker} {l : Label Unit} (hi : WorkerInv w)
    (hok : CleanKill w l) (hst : Fleet.Step False maxRetries w l w') : WorkerInv w' := by
  cases hst with
  | command runs => exact hi.of_command runs
  | reap main => exact hi.of_reap main
  | claim main exec leaseSeconds queuePolicy => exact hi.of_claim main exec
  | submit main => exact hi.of_submit main
  | restart =>
    refine .of_listed (fun j hu => ?_) ?_
    · obtain ⟨i, hc⟩ := hi.carried j hu
      exact hok rfl i j hc hu
    · rintro ⟨⟨⟩, i⟩ s
      cases i <;> simpa [Fleet.restarted] using workSafe_idle s
  | enqueue nojob nopending => exact hi.of_enqueue rfl nojob nopending

theorem WorkerInv.of_run {maxRetries : Int} {w w' : Worker}
    {ts : List (Worker × Label Unit × Worker)} (hi : WorkerInv w)
    (hrun : Run (Fleet.Step False maxRetries) w ts w')
    (hok : ∀ t ∈ ts, CleanKill t.1 t.2.1) : WorkerInv w' :=
  (hrun.restrict hok).invariant hi fun _ _ _ h hs => h.of_step hs.1 hs.2

/-- **No job is lost, unless a kill catches the worker with a job in neither set.** Start one
worker on a queue whose jobs are all in their places; let it reap, claim and execute, let jobs
be submitted, and let the process be killed and restarted any number of times. Whenever no
operation is in progress, every queued or running job is in the pending set or has a lease. -/
theorem no_job_lost {redis : Redis} {maxRetries : Int} {w : Worker}
    {ts : List (Worker × Label Unit × Worker)} (hlisted : ∀ j, ¬ Unlisted redis j)
    (hrun : Run (Fleet.Step False maxRetries) (Fleet.start redis) ts w)
    (hok : ∀ t ∈ ts, CleanKill t.1 t.2.1) (hdone : ∀ i, Ended (w.threads i)) :
    Recoverable w.shared.redis := by
  have hstart : WorkerInv (Fleet.start redis) := .of_listed hlisted fun i s => workSafe_idle s
  exact recoverable_of_listed ((hstart.of_run hrun hok).listed hdone)

/-! ## A kill inside a claim -/

/-- One submitted job, on an otherwise empty queue. -/
def oneRecord : JobRecord := newRecord (makePreview "prev" .normal 50) "job_a" 0 0

def emptyWorker : Worker := Fleet.start .empty

def oneJob : Worker :=
  emptyWorker.enqueued oneRecord (makePreview "prev" .normal 50).gatewayRequest

/-- The worker has started to claim the job. -/
def claimingJob : Worker := oneJob.assign ((), .main) (claimTask 60 none)

theorem run_claimingJob (faults : Prop) : Run (Fleet.Step faults 3) emptyWorker
    [(emptyWorker, .enqueue oneRecord, oneJob), (oneJob, .claim (), claimingJob)]
    claimingJob :=
  .tail (.tail .refl (.enqueue rfl (by decide))) (.claim rfl ended_idle 60 none)

/-- What `claim_next_job` does with a single pending job, up to its `SREM`. -/
theorem claimTask_steps {ω : Type} [DecidableEq ω] {w : ω} (faults : Prop) (leaseSeconds : Int)
    (now : Time) {h : Host ω} {j : JobId} {record : JobRecord} (hp : h.redis.pending = {j})
    (hj : h.redis.jobs j = some record) (hq : record.status = .queued) :
    Prog.Steps (does faults w) (claimTask leaseSeconds none) h
      (startJob leaseSeconds (candidate defaultQueuePolicy now j record) >>= fun record =>
        pure (some record))
      { h with redis := { h.redis with pending := h.redis.pending.erase j } } := by
  simp only [claimTask, claimNextJob, Prog.perform_bind]
  refine .cmd (v := .ok [j]) ⟨h.redis, ⟨⟨List.nodup_singleton j, ?_⟩, rfl⟩, rfl⟩ ?_
  · simp [hp]
  refine .cmd (v := .ok now) rfl ?_
  simp only [Prog.onReply_ok, collectCandidates, getJob, Prog.perform_bind, Prog.cmd_bind]
  refine .cmd (v := .ok (some record)) ⟨h.redis, ⟨hj.symm, rfl⟩, rfl⟩ ?_
  simp only [Prog.onReply_ok, hq, if_true, Prog.pure_eq, Prog.ret_bind, Option.getD_none,
    List.isEmpty_cons, Bool.false_eq_true, if_false]
  refine .cmd (v := .ok h.redis.streak) ⟨h.redis, ⟨rfl, rfl⟩, rfl⟩ ?_
  simp only [Prog.onReply_ok, choose_singleton]
  refine .cmd (v := .ok true) ⟨_, ⟨?_, rfl⟩, rfl⟩ .refl
  simp [candidate, hp]

theorem steps_claimingJob (faults : Prop) :
    Prog.Steps (does faults ()) (claimingJob.threads ((), .main))
    claimingJob.shared (startJob 60 (candidate defaultQueuePolicy 0 "job_a" oneRecord) >>=
      fun record => pure (some record))
    { claimingJob.shared with redis :=
        { claimingJob.shared.redis with
          pending := claimingJob.shared.redis.pending.erase "job_a" } } :=
  claimTask_steps faults 60 0 rfl rfl rfl

/-- **A kill inside a claim loses the job.** Right after the `SREM` the job is still stored as
queued, but in neither set; the restarted worker has nothing to find it by. -/
theorem claim_crash_loses_job : ∃ ts w, Run (Fleet.Step False 3) emptyWorker ts w ∧
    (∀ i, w.threads i = idle) ∧ w.shared.redis.statusOf "job_a" = some .queued ∧
    "job_a" ∉ w.shared.redis.pending ∧ "job_a" ∉ w.shared.redis.leases ∧
    ¬ Recoverable w.shared.redis := by
  obtain ⟨us, hus, -⟩ := Fleet.run_on (run_claimingJob False) ((), .main)
    (steps_claimingJob False)
  refine ⟨_, _, hus.tail (.restart (w := ())), ?_, rfl, by decide, by decide, fun h => ?_⟩
  · rintro ⟨⟨⟩, _ | _⟩ <;> rfl
  · exact absurd (h "job_a" (Or.inl rfl)) (by decide)

/-- The rest of a claim. -/
theorem startJob_steps {ω : Type} [DecidableEq ω] {w : ω} (faults : Prop) (leaseSeconds : Int)
    (now : Time) (chosen : Candidate) (h : Host ω) :
    ∃ h', Prog.Steps (does faults w) (startJob leaseSeconds chosen >>= fun record =>
        pure (some record)) h
      (.ret (some { chosen.record with status := .running, startedAt := some now })) h' ∧
      h'.redis.jobs =
        (h.redis.setJob { chosen.record with status := .running, startedAt := some now }).jobs ∧
      h'.redis.leases = h.redis.leases.add chosen.jobId (now + leaseSeconds) ∧
      h'.redis.payloads = h.redis.payloads ∧ h'.redis.pending = h.redis.pending ∧
      h'.retryCounts = h.retryCounts := by
  simp only [startJob, Prog.perform_bind]
  split
  · simp only [leaseJob, saveJob, Prog.perform_bind, Prog.cmd_bind, Prog.onReply_bind]
    refine ⟨_, .cmd (v := .ok ()) ⟨_, rfl, rfl⟩ (.cmd (v := .ok now) rfl
      (.cmd (v := .ok ()) ⟨_, rfl, rfl⟩ (.cmd (v := .ok now) rfl
      (.cmd (v := .ok ()) ⟨_, rfl, rfl⟩ .refl)))), ?_, ?_, ?_, ?_, ?_⟩ <;> rfl
  · simp only [leaseJob, saveJob, Prog.perform_bind, Prog.cmd_bind, Prog.onReply_bind]
    refine ⟨_, .cmd (v := .ok ()) ⟨_, rfl, rfl⟩ (.cmd (v := .ok now) rfl
      (.cmd (v := .ok ()) ⟨_, rfl, rfl⟩ (.cmd (v := .ok now) rfl
      (.cmd (v := .ok ()) ⟨_, rfl, rfl⟩ .refl)))), ?_, ?_, ?_, ?_, ?_⟩ <;> rfl

theorem no_job_lost_claimed : ∃ ts w, Run (Fleet.Step False 3) emptyWorker ts w ∧
    (∀ i, w.threads i = idle) ∧ (∃ t ∈ ts, t.2.1 = .restart ()) ∧
    Recoverable w.shared.redis := by
  obtain ⟨h, hstart, -⟩ := startJob_steps (w := ()) False 60 0 _ _
  obtain ⟨us, hus, hcmd⟩ := Fleet.run_on (run_claimingJob False) ((), .main)
    ((steps_claimingJob False).trans hstart)
  have hrun := hus.tail (.restart (w := ()))
  have hidle : ∀ o i, (Fleet.restarted ⟨h, Function.update claimingJob.threads ((), .main)
      (.ret o)⟩ ()).threads i = idle := by
    rintro o ⟨⟨⟩, _ | _⟩ <;> rfl
  refine ⟨_, _, hrun, hidle _, ⟨_, List.mem_append_right _ List.mem_cons_self, rfl⟩,
    no_job_lost ?_ hrun ?_ fun i => hidle _ i ▸ ended_idle⟩
  · rintro j (⟨h, -⟩ | ⟨h, -⟩) <;> exact absurd h (by simp [Redis.statusOf, Redis.empty])
  · intro t ht hl i j hc
    -- the one restart finds both threads done
    rcases List.mem_append.mp ht with ht | ht
    · rcases List.mem_append.mp ht with ht | ht
      · rcases List.mem_pair.mp ht with rfl | rfl <;> cases hl
      · obtain ⟨c, h⟩ := hcmd t ht
        cases h.symm.trans hl
    · obtain rfl := List.mem_singleton.mp ht
      refine absurd hc (not_carrying_of_ended ?_ j)
      obtain ⟨⟨⟩, _ | _⟩ := i
      · exact ⟨.ok (some _), rfl⟩
      · exact ended_idle

end PolyGate.Automation.Recovery
