import PolyGate.Automation.Queue.Terminal

/-!
# `Automation/Queue/Attempts.lean` — how often a job is posted

The retry budget is `_retry_counts`, a dictionary of the process. A post is covered by a retry that
was counted before the job went back to the queue, or it is the last one: the job is then finished,
and its execution payload is deleted, without which nothing is posted. That argument is about one
process. It counts nothing for a job that comes back through its lease, to a worker that was
restarted or to another one, whose dictionary knows nothing of it.

`attempts_bounded` is for every run in which no job is handed to a second process.
`attempts_unbounded` is one worker that dies after each post.
-/

namespace PolyGate.Automation.Attempts

open Lib

/-! ## What has been posted -/

section
variable {ω : Type} [DecidableEq ω]

/-- What has been handed out and posted so far. -/
structure Ledger (ω : Type) where
  /-- how often a worker has been started again -/
  restarts : ω → Nat
  /-- the job its executing thread was last given -/
  hand : ω → Option JobId
  /-- the processes that a job has been handed to: a worker, and its restarts by then -/
  handed : JobId → List (ω × Nat)
  posts : JobId → Nat

namespace Ledger

def empty : Ledger ω := ⟨fun _ => 0, fun _ => none, fun _ => [], fun _ => 0⟩

variable (L : Ledger ω)

/-- The process that worker `w` is at present. -/
def process (w : ω) : ω × Nat := (w, L.restarts w)

def restarted (w : ω) : Ledger ω :=
  { L with
    restarts := Function.update L.restarts w (L.restarts w + 1)
    hand := Function.update L.hand w none }

def submitted (w : ω) (j : JobId) : Ledger ω :=
  { L with
    hand := Function.update L.hand w (some j)
    handed := Function.update L.handed j (L.process w :: L.handed j) }

def posted (j : JobId) : Ledger ω :=
  { L with posts := Function.update L.posts j (L.posts j + 1) }

/-- A post is one of the job that the executing thread was given. -/
def next (t : Fleet ω × Label ω × Fleet ω) : Ledger ω :=
  match t.2.1 with
  | .restart w => L.restarted w
  | .submit w => match t.1.threads (w, .main) with
    | .ret (some job) => L.submitted w job.jobId
    | _ => L
  | .command (w, .exec) (.post _) => match L.hand w with
    | some j => L.posted j
    | none => L
  | _ => L

end Ledger

def ledger (ts : List (Fleet ω × Label ω × Fleet ω)) : Ledger ω := ts.foldl .next .empty

/-- A job is handed to no process but the one it was first handed to. -/
def OneProcess (L : Ledger ω) (a : Fleet ω) (l : Label ω) : Prop :=
  ∀ w job, l = .submit w → a.threads (w, .main) = .ret (some job) →
    ∀ p ∈ L.handed job.jobId, p = L.process w

end

/-! ## What the commands leave -/

theorem answers_known {s s' : Redis} {c : RedisCmd} {v : c.Reply} (h : s.Answers c v s') {j : JobId}
    (hj : s.jobs j ≠ none) : s'.jobs j ≠ none := by
  rcases Terminal.answers_jobs h with heq | ⟨r, -, heq⟩
  · rwa [heq]
  · rw [heq]
    by_cases hid : j = r.jobId
    · rw [hid, Redis.setJob_self]
      exact Option.some_ne_none r
    · rwa [Redis.setJob_of_ne _ _ hid]

def isPipeline : RedisCmd → Bool
  | .enqueuePipeline _ _ => true
  | _ => false

/-- Only a submission writes a payload. -/
theorem answers_payloads {s s' : Redis} {c : RedisCmd} {v : c.Reply} (h : s.Answers c v s')
    (hc : isPipeline c = false) {j : JobId} (hj : s.payloads j = none) :
    s'.payloads j = none := by
  cases c with
  | enqueuePipeline r p => cases hc
  | delPayload id =>
    obtain rfl := h
    by_cases hid : j = id
    · rw [hid]
      exact Function.update_self ..
    · exact (Function.update_of_ne hid ..).trans hj
  | setNxIdempotency key id =>
    simp only [Redis.Answers] at h
    split at h
    · rw [h.2]
      exact hj
    · rw [h.2]
      exact hj
  | setPreview | setJob | setIdempotency | saddPending | incrStreak | setStreak | zaddLease
  | zremLease =>
    obtain rfl := h
    exact hj
  | _ =>
    rw [h.2]
    exact hj

/-! ## An execution, and the posts of its job -/

section Execution

variable {ω : Type}

/-- The world of an executing thread, with the number of posts of its job. -/
abbrev Account (ω : Type) := Host ω × Nat

/-- What the others leave alone while worker `w` executes job `j`. -/
structure Others (w : ω) (j : JobId) (s s' : Account ω) : Prop where
  posts : s'.2 = s.2
  retries : s'.1.retryCounts w j = s.1.retryCounts w j
  known : s.1.redis.jobs j ≠ none → s'.1.redis.jobs j ≠ none
  spent : s.1.redis.jobs j ≠ none → s.1.redis.payloads j = none → s'.1.redis.payloads j = none

/-- The budget has been kept to. -/
structure Bounded (maxRetries : Int) (w : ω) (j : JobId) (s : Account ω) : Prop where
  known : s.1.redis.jobs j ≠ none
  retries : (s.1.retryCounts w j : Int) ≤ maxRetries
  posts : s.2 ≤ s.1.retryCounts w j + 1

/-- Every post is covered by a retry. -/
def Covered (w : ω) (j : JobId) (s : Account ω) : Prop := s.2 ≤ s.1.retryCounts w j

/-- No post is to come that is not covered. -/
def Settled (w : ω) (j : JobId) (s : Account ω) : Prop :=
  Covered w j s ∨ s.1.redis.payloads j = none

section
variable {maxRetries : Int} {w : ω} {j : JobId} {s s' : Account ω}

theorem Others.refl (s : Account ω) : Others w j s s := ⟨rfl, rfl, id, fun _ => id⟩

theorem Others.trans (a b c : Account ω) (hab : Others w j a b) (hbc : Others w j b c) :
    Others w j a c :=
  ⟨hbc.posts.trans hab.posts, hbc.retries.trans hab.retries, fun h => hbc.known (hab.known h),
    fun h hp => hbc.spent (hab.known h) (hab.spent h hp)⟩

theorem Bounded.stable (h : Bounded maxRetries w j s) (hothers : Others w j s s') :
    Bounded maxRetries w j s' := by
  refine ⟨hothers.known h.known, ?_, ?_⟩
  · rw [hothers.retries]
    exact h.retries
  · rw [hothers.retries, hothers.posts]
    exact h.posts

theorem Covered.stable (h : Covered w j s) (hothers : Others w j s s') : Covered w j s' := by
  rw [Covered, hothers.retries, hothers.posts]
  exact h

theorem Settled.stable (h : Settled w j s) (hbounded : Bounded maxRetries w j s)
    (hothers : Others w j s s') : Settled w j s' := by
  rcases h with h | h
  · exact Or.inl (h.stable hothers)
  · exact Or.inr (hothers.spent hbounded.known h)

end

variable [DecidableEq ω] (maxRetries : Int) (w : ω) (j : JobId)

def isPost : Cmd → Bool
  | .post _ => true
  | _ => false

def counting : Exec Cmd Cmd.Reply PyExc (Account ω) :=
  fun s c v s' => does False w s.1 c v s'.1 ∧ s'.2 = s.2 + (isPost c).toNat

abbrev ExecSafe (p : Task) (s : Account ω) : Prop :=
  p.Safe (counting w) (Others w j) (fun _ _ s' _ => Bounded maxRetries w j s')
    (fun _ s => Bounded maxRetries w j s ∧ Settled w j s) s

variable {maxRetries w j} {s : Account ω}

theorem execSafe_ended {p : Task} (hp : Ended p) (hb : Bounded maxRetries w j s)
    (hs : Settled w j s) : ExecSafe maxRetries w j p s := by
  obtain ⟨o, rfl⟩ := hp
  cases o with
  | ok o => exact fun s' hothers => ⟨hb.stable hothers, hs.stable hb hothers⟩
  | error e => exact fun s' hothers => ⟨hb.stable hothers, hs.stable hb hothers⟩

/-- A Redis command spends nothing and brings no payload back. -/
theorem execSafe_redis {c : RedisCmd} {k : Except PyExc c.Reply → Task}
    (hb : Bounded maxRetries w j s) (hc : isPipeline c = false)
    (hk : ∀ (r : Redis) x t, r.Answers c x t.1.redis → Bounded maxRetries w j t →
      (Covered w j s → Covered w j t) → (Settled w j s → Settled w j t) →
      ExecSafe maxRetries w j (k (.ok x)) t) :
    ExecSafe maxRetries w j (.cmd (.redis c) k) s := by
  rintro s' hothers v ⟨h, n⟩ ⟨hdoes, hn⟩
  obtain rfl : n = s'.2 := hn
  have hb' := hb.stable hothers
  cases v with
  | error e => exact hdoes.1.elim
  | ok x =>
    obtain ⟨r, hr, rfl⟩ := hdoes
    have hbounded : Bounded maxRetries w j ({ s'.1 with redis := r }, s'.2) :=
      ⟨answers_known hr hb'.known, hb'.retries, hb'.posts⟩
    refine ⟨hbounded, hk s'.1.redis x _ hr hbounded (fun h => ?_) fun h => ?_⟩
    · have hcovered : Covered w j s' := h.stable hothers
      exact hcovered
    rcases h.stable hb hothers with h | h
    · exact Or.inl h
    · exact Or.inr (answers_payloads hr hc h)

theorem execSafe_now {k : Except PyExc Time → Task} (hb : Bounded maxRetries w j s)
    (hk : ∀ x t, Bounded maxRetries w j t → ExecSafe maxRetries w j (k (.ok x)) t) :
    ExecSafe maxRetries w j (.cmd .now k) s := by
  rintro s' hothers v ⟨h, n⟩ ⟨hdoes, hn⟩
  obtain rfl : n = s'.2 := hn
  cases v with
  | error e => exact hdoes.elim
  | ok x =>
    obtain rfl : h = s'.1 := hdoes
    exact ⟨hb.stable hothers, hk x _ (hb.stable hothers)⟩

/-- `requeue_job` keeps what is settled. -/
theorem execSafe_requeueJob {f : Except PyExc Unit → Task} (hb : Bounded maxRetries w j s)
    (hs : Settled w j s)
    (hf : ∀ o t, Bounded maxRetries w j t → Settled w j t → ExecSafe maxRetries w j (f o) t) :
    ExecSafe maxRetries w j ((requeueJob j).andThen f) s := by
  simp only [requeueJob, getJob, saveJob, Prog.perform_bind, Prog.cmd_andThen]
  refine execSafe_redis hb rfl fun _ record t _ hb _ ht => ?_
  cases record with
  | none => exact hf _ _ hb (ht hs)
  | some record =>
    simp only [Prog.onReply_ok, Prog.cmd_andThen]
    refine execSafe_redis hb rfl fun _ _ t₁ _ hb _ ht₁ => ?_
    simp only [Prog.onReply_ok, Prog.cmd_andThen]
    refine execSafe_redis hb rfl fun _ _ t₂ _ hb _ ht₂ => ?_
    simp only [Prog.onReply_ok, Prog.perform_andThen]
    refine execSafe_redis hb rfl fun _ _ t₃ _ hb _ ht₃ => ?_
    exact hf _ _ hb (ht₃ (ht₂ (ht₁ (ht hs))))

/-- `complete_job` and `fail_job` leave no payload. -/
theorem execSafe_finishJob {finish : JobRecord → Time → JobRecord} {f : Except PyExc Unit → Task}
    (hb : Bounded maxRetries w j s)
    (hf : ∀ o t, Bounded maxRetries w j t → Settled w j t → ExecSafe maxRetries w j (f o) t) :
    ExecSafe maxRetries w j ((finishJob j finish).andThen f) s := by
  simp only [finishJob, getJob, saveJob, clearExecutionPayload, Prog.perform_bind,
    Prog.cmd_andThen]
  refine execSafe_redis hb rfl fun r record t hr hb _ _ => ?_
  cases record with
  | none =>
    -- the record of a job that was handed out is there
    obtain ⟨hnone, hsame⟩ := hr
    have hknown := hb.known
    rw [hsame, ← hnone] at hknown
    exact absurd rfl hknown
  | some record =>
    simp only [Prog.onReply_ok, Prog.cmd_andThen]
    refine execSafe_now hb fun completedAt t hb => ?_
    simp only [Prog.onReply_ok, Prog.cmd_andThen]
    refine execSafe_redis hb rfl fun _ _ t _ hb _ _ => ?_
    simp only [Prog.onReply_ok, Prog.cmd_andThen]
    refine execSafe_redis hb rfl fun _ _ t _ hb _ _ => ?_
    simp only [Prog.onReply_ok, Prog.perform_andThen]
    refine execSafe_redis hb rfl fun r _ t hr hb _ _ => hf _ _ hb (Or.inr ?_)
    obtain hr : t.1.redis = _ := hr
    rw [hr]
    exact Function.update_self ..

/-- The `except` part counts the retry before the job goes back, or finishes the job. -/
theorem execSafe_handleFailure {exc : PyExc} {f : Except PyExc Unit → Task}
    (hb : Bounded maxRetries w j s)
    (hf : ∀ o t, Bounded maxRetries w j t → Settled w j t → ExecSafe maxRetries w j (f o) t) :
    ExecSafe maxRetries w j ((handleFailure maxRetries j exc).andThen f) s := by
  simp only [handleFailure, Prog.perform_bind, Prog.cmd_andThen]
  rintro s₁ hothers v ⟨h, n⟩ ⟨hdoes, hn⟩
  obtain rfl : n = s₁.2 := hn
  have hb₁ := hb.stable hothers
  cases v with
  | error e => exact hdoes.elim
  | ok retries =>
    obtain ⟨rfl, rfl⟩ := hdoes
    refine ⟨hb₁, ?_⟩
    simp only [Prog.onReply_ok]
    split
    · rename_i hretry
      have hlt : (s₁.1.retryCounts w j : Int) < maxRetries :=
        of_decide_eq_true (Bool.and_eq_true_iff.mp hretry).2
      simp only [Prog.cmd_andThen]
      rintro s₂ hothers₂ v ⟨h, n⟩ ⟨hdoes, hn⟩
      obtain rfl : n = s₂.2 := hn
      cases v with
      | error e => exact hdoes.elim
      | ok _ =>
        obtain rfl : h = _ := hdoes
        -- the count is written before the job is requeued, so it covers the attempt that was made
        have hcount : (s₂.1.setRetryCount w j (s₁.1.retryCounts w j + 1)).retryCounts w j =
            s₁.1.retryCounts w j + 1 := by
          simp [Host.setRetryCount]
        have hposts := (hb₁.stable hothers₂).posts
        rw [hothers₂.retries] at hposts
        have hb₂ : Bounded maxRetries w j
            (s₂.1.setRetryCount w j (s₁.1.retryCounts w j + 1), s₂.2) := by
          refine ⟨(hb₁.stable hothers₂).known, ?_, ?_⟩
          · rw [hcount]
            push_cast
            exact hlt
          · rw [hcount]
            exact Nat.le_succ_of_le hposts
        refine ⟨hb₂, execSafe_requeueJob hb₂ (Or.inl ?_) hf⟩
        rw [Covered, hcount]
        exact hposts
    · exact execSafe_finishJob hb₁ hf

/-- The `try` part posts a job that has its payload, and only if what was posted is covered. -/
theorem execSafe_attemptJob {f : Except PyExc Unit → Task} (hb : Bounded maxRetries w j s)
    (hs : Settled w j s)
    (hf : ∀ t, Bounded maxRetries w j t → Settled w j t → ExecSafe maxRetries w j (f (.ok ())) t)
    (hfail : ∀ e t, Bounded maxRetries w j t → ExecSafe maxRetries w j (f (.error e)) t) :
    ExecSafe maxRetries w j ((attemptJob j).andThen f) s := by
  simp only [attemptJob, getExecutionPayload, Prog.perform_bind, Prog.cmd_andThen]
  refine execSafe_redis hb rfl fun r payload t hr hb _ ht => ?_
  cases payload with
  | none => exact hfail _ _ hb
  | some payload =>
    have hcovered : Covered w j t := by
      obtain ⟨hsome, hsame⟩ := hr
      refine (ht hs).resolve_right fun hnone => ?_
      rw [hsame, ← hsome] at hnone
      cases hnone
    simp only [Prog.onReply_ok, Prog.cmd_andThen]
    rintro s₁ hothers v ⟨h, n⟩ ⟨hdoes, hn⟩
    obtain rfl : n = s₁.2 + 1 := hn
    obtain rfl : h = s₁.1 := by
      cases v with
      | ok resp => exact hdoes
      | error e => exact hdoes.2
    -- one more request, and the count still covers it
    have hb₁ : Bounded maxRetries w j (s₁.1, s₁.2 + 1) :=
      ⟨(hb.stable hothers).known, (hb.stable hothers).retries,
        Nat.succ_le_succ (hcovered.stable hothers)⟩
    refine ⟨hb₁, ?_⟩
    have hdone (o : Except PyExc Unit) (t : Account ω) (hb : Bounded maxRetries w j t)
        (hs : Settled w j t) : ExecSafe maxRetries w j (f o) t := by
      cases o with
      | ok _ => exact hf t hb hs
      | error e => exact hfail e t hb
    cases v with
    | error e => exact hfail _ _ hb₁
    | ok resp =>
      simp only [Prog.onReply_ok, Response.raiseForStatus, Response.parse]
      split
      · cases resp.json with
        | ok result => exact execSafe_finishJob hb₁ hdone
        | error msg => exact hfail _ _ hb₁
      · exact hfail _ _ hb₁

/-- **An execution keeps to the budget.** -/
theorem execSafe_executeTask {job : JobRecord} (hb : Bounded maxRetries w job.jobId s)
    (hs : Settled w job.jobId s) :
    ExecSafe maxRetries w job.jobId (executeTask maxRetries job) s := by
  have hend (o : Except PyExc Unit) (t : Account ω) (hb : Bounded maxRetries w job.jobId t)
      (hs : Settled w job.jobId t) :
      ExecSafe maxRetries w job.jobId (Prog.onReply (fun _ => idle) o) t := by
    cases o with
    | ok _ => exact execSafe_ended ⟨.ok none, rfl⟩ hb hs
    | error e => exact execSafe_ended ⟨.error e, rfl⟩ hb hs
  simp only [executeTask, executeJob, Prog.bind_eq_andThen, Prog.catch_andThen]
  refine execSafe_attemptJob hb hs (fun t hb hs => hend _ t hb hs) fun e t hb => ?_
  exact execSafe_handleFailure hb hend

end Execution

/-! ## The main thread -/

section Main

/-- A command that leaves the retry counts alone, posts nothing and submits nothing. -/
def Plain : Cmd → Prop
  | .redis c => isPipeline c = false
  | .now | .newJobId | .getRetryCount _ => True
  | .post _ | .setRetryCount _ _ => False

theorem plain_requeueJob (j : JobId) : Prog.Only Plain (requeueJob j) := by
  refine Prog.only_perform_bind.mpr ⟨rfl, fun record => ?_⟩
  cases record with
  | none => trivial
  | some record =>
    refine Prog.only_perform_bind.mpr ⟨rfl, fun _ => ?_⟩
    exact Prog.only_perform_bind.mpr ⟨rfl, fun _ => Prog.only_perform.mpr rfl⟩

theorem plain_requeueAll (ids : List JobId) : Prog.Only Plain (requeueAll ids) := by
  induction ids with
  | nil => trivial
  | cons j rest ih => exact (plain_requeueJob j).bind fun _ => ih

theorem plain_reapTask : Prog.Only Plain reapTask := by
  refine Prog.Only.bind ?_ fun _ => ?_
  · refine Prog.only_perform_bind.mpr ⟨trivial, fun now => ?_⟩
    refine Prog.only_perform_bind.mpr ⟨rfl, fun ids => ?_⟩
    exact (plain_requeueAll ids).bind fun _ => trivial
  · refine Prog.only_perform_bind.mpr ⟨rfl, fun _ => ?_⟩
    exact Prog.only_perform_bind.mpr ⟨rfl, fun _ => trivial⟩

theorem plain_collectCandidates (policy : QueuePolicy) (now : Time) (ids : List JobId) :
    Prog.Only Plain (collectCandidates policy now ids) := by
  induction ids with
  | nil => trivial
  | cons j rest ih =>
    refine Prog.only_perform_bind.mpr ⟨rfl, fun record => ?_⟩
    cases record with
    | none => exact Prog.only_perform_bind.mpr ⟨rfl, fun _ => ih⟩
    | some record =>
      dsimp only
      split
      · exact ih.bind fun others => trivial
      · exact Prog.only_perform_bind.mpr ⟨rfl, fun _ => ih⟩

theorem plain_leaseJob (leaseSeconds : Int) (chosen : Candidate) :
    Prog.Only Plain (leaseJob leaseSeconds chosen) := by
  refine Prog.only_perform_bind.mpr ⟨trivial, fun startedAt => ?_⟩
  refine Prog.only_perform_bind.mpr ⟨rfl, fun _ => ?_⟩
  refine Prog.only_perform_bind.mpr ⟨trivial, fun now => ?_⟩
  exact Prog.only_perform_bind.mpr ⟨rfl, fun _ => trivial⟩

theorem plain_startJob (leaseSeconds : Int) (chosen : Candidate) :
    Prog.Only Plain (startJob leaseSeconds chosen) := by
  unfold startJob
  split
  · exact Prog.only_perform_bind.mpr ⟨rfl, fun _ => plain_leaseJob ..⟩
  · exact Prog.only_perform_bind.mpr ⟨rfl, fun _ => plain_leaseJob ..⟩

theorem plain_claimTask (leaseSeconds : Int) (queuePolicy : Option QueuePolicy) :
    Prog.Only Plain (claimTask leaseSeconds queuePolicy) := by
  refine Prog.only_perform_bind.mpr ⟨rfl, fun ids => ?_⟩
  split
  · trivial
  refine Prog.only_perform_bind.mpr ⟨trivial, fun now => ?_⟩
  refine (plain_collectCandidates ..).bind fun candidates => ?_
  split
  · trivial
  refine Prog.only_perform_bind.mpr ⟨rfl, fun streak => ?_⟩
  split
  · trivial
  · refine Prog.only_perform_bind.mpr ⟨rfl, fun removed => ?_⟩
    split
    · exact (plain_startJob ..).bind fun record => trivial
    · trivial

variable {ω : Type} [DecidableEq ω]

/-- Records stay. -/
def Known (h h' : Host ω) : Prop := ∀ j, h.redis.jobs j ≠ none → h'.redis.jobs j ≠ none

/-- A job that is handed over has a record. -/
abbrev ClaimSafe (w : ω) (p : Task) (h : Host ω) : Prop :=
  p.Safe (does False w) Known (fun _ _ _ _ => True)
    (fun o h => ∀ job, o = .ok (some job) → h.redis.jobs job.jobId ≠ none) h

/-- Nothing is handed over. -/
def Jobless {α : Type} : Store (Option α) → Prop
  | .ret a => a = none
  | .raise _ => True
  | .cmd _ k => ∀ v, Jobless (k v)

theorem safe_anything {α : Type} (w : ω) (p : Store α) (h : Host ω) :
    p.Safe (does False w) Known (fun _ _ _ _ => True) (fun _ _ => True) h := by
  induction p generalizing h with
  | ret a => exact fun _ _ => trivial
  | raise e => exact fun _ _ => trivial
  | cmd c k ih => exact fun h' _ v h'' _ => ⟨trivial, ih v h''⟩

theorem claimSafe_bind {α : Type} {w : ω} {p : Store α} {f : α → Task} {h : Host ω}
    (hf : ∀ a h, ClaimSafe w (f a) h) : ClaimSafe w (p >>= f) h := by
  refine Prog.Safe.bind (fun _ _ => id) (safe_anything w p h) (fun a h _ => hf a h) ?_
  intro e h _ job heq
  cases heq

theorem claimSafe_none {w : ω} {h : Host ω} : ClaimSafe w (.ret none) h := by
  intro h' _ job heq
  cases heq

/-- A claim writes the record that it returns. -/
theorem claimSafe_leaseJob {w : ω} {leaseSeconds : Int} {chosen : Candidate} {h : Host ω} :
    ClaimSafe w (leaseJob leaseSeconds chosen >>= fun record => return some record) h := by
  simp only [leaseJob, saveJob, Prog.perform_bind, Prog.cmd_bind, Prog.onReply_bind]
  rintro h₁ - v h₂ hdoes
  refine ⟨trivial, ?_⟩
  cases v with
  | error e => exact hdoes.elim
  | ok startedAt =>
    rintro h₃ - v h₄ hdoes
    refine ⟨trivial, ?_⟩
    cases v with
    | error e => exact hdoes.1.elim
    | ok _ =>
      obtain ⟨r, hr, rfl⟩ := hdoes
      obtain rfl : r = _ := hr
      -- from here on the record is there
      rintro h₅ hknown₅ v h₆ hdoes
      refine ⟨trivial, ?_⟩
      cases v with
      | error e => exact hdoes.elim
      | ok now =>
        obtain rfl : h₆ = h₅ := hdoes
        rintro h₇ hknown₇ v h₈ hdoes
        refine ⟨trivial, ?_⟩
        cases v with
        | error e => exact hdoes.1.elim
        | ok _ =>
          obtain ⟨r, hr, rfl⟩ := hdoes
          intro h₉ hknown₉ job heq
          cases heq
          refine hknown₉ _ (answers_known hr (hknown₇ _ (hknown₅ _ ?_)))
          rw [Redis.setJob_self]
          exact Option.some_ne_none _

theorem claimSafe_claimTask {w : ω} {leaseSeconds : Int} {queuePolicy : Option QueuePolicy}
    {h : Host ω} : ClaimSafe w (claimTask leaseSeconds queuePolicy) h := by
  refine claimSafe_bind fun ids h => ?_
  split
  · exact claimSafe_none
  refine claimSafe_bind fun now h => claimSafe_bind fun candidates h => ?_
  split
  · exact claimSafe_none
  refine claimSafe_bind fun streak h => ?_
  split
  · exact claimSafe_none
  · refine claimSafe_bind fun removed h => ?_
    split
    · unfold startJob
      split
      · rw [Prog.bind_assoc]
        exact claimSafe_bind fun _ h => claimSafe_leaseJob
      · rw [Prog.bind_assoc]
        exact claimSafe_bind fun _ h => claimSafe_leaseJob
    · exact claimSafe_none

theorem jobless_bind {α β : Type} {p : Store α} {f : α → Store (Option β)}
    (hf : ∀ a, Jobless (f a)) : Jobless (p >>= f) := by
  induction p with
  | ret a => exact hf a
  | raise e => trivial
  | cmd c k ih => exact ih

theorem jobless_reapTask : Jobless reapTask :=
  jobless_bind fun _ => jobless_bind fun _ => jobless_bind fun _ => rfl

end Main

/-! ## The executing thread -/

section Exec

/-- The commands of an execution of `j`. -/
def Executes (j : JobId) : Cmd → Prop
  | .redis c => isPipeline c = false
  | .setRetryCount id _ => id = j
  | .now | .newJobId | .getRetryCount _ | .post _ => True

theorem Plain.executes {c : Cmd} (h : Plain c) (j : JobId) : Executes j c := by
  cases c with
  | redis c => exact h
  | setRetryCount => exact h.elim
  | _ => trivial

theorem executes_finishJob (j : JobId) (finish : JobRecord → Time → JobRecord) :
    Prog.Only (Executes j) (finishJob j finish) := by
  refine Prog.only_perform_bind.mpr ⟨rfl, fun record => ?_⟩
  cases record with
  | none => trivial
  | some record =>
    refine Prog.only_perform_bind.mpr ⟨trivial, fun completedAt => ?_⟩
    refine Prog.only_perform_bind.mpr ⟨rfl, fun _ => ?_⟩
    exact Prog.only_perform_bind.mpr ⟨rfl, fun _ => Prog.only_perform.mpr rfl⟩

theorem executes_attemptJob (j : JobId) : Prog.Only (Executes j) (attemptJob j) := by
  refine Prog.only_perform_bind.mpr ⟨rfl, fun payload => ?_⟩
  cases payload with
  | none => trivial
  | some payload =>
    refine Prog.only_perform_bind.mpr ⟨trivial, fun resp => Prog.Only.bind ?_ fun _ => ?_⟩
    · unfold Response.raiseForStatus
      split <;> trivial
    · refine Prog.Only.bind ?_ fun result => executes_finishJob j _
      unfold Response.parse
      split <;> trivial

theorem executes_handleFailure (maxRetries : Int) (j : JobId) (exc : PyExc) :
    Prog.Only (Executes j) (handleFailure maxRetries j exc) := by
  refine Prog.only_perform_bind.mpr ⟨trivial, fun retries => ?_⟩
  split
  · refine Prog.only_perform_bind.mpr ⟨rfl, fun _ => ?_⟩
    exact (plain_requeueJob j).imp fun c h => h.executes j
  · exact executes_finishJob j _

theorem executes_executeTask (maxRetries : Int) (job : JobRecord) :
    Prog.Only (Executes job.jobId) (executeTask maxRetries job) :=
  (Prog.Only.catch (executes_attemptJob _) fun _ => executes_handleFailure ..).bind fun _ => trivial

end Exec

/-! ## What a command leaves to the others -/

section Commands

variable {ω : Type} [DecidableEq ω] {w w' : ω} {j j' : JobId} {h h' : Host ω} {c : Cmd}
  {v : Except PyExc c.Reply}

/-- A command that leaves the retry counts and the payloads alone. -/
def Harmless : Cmd → Prop
  | .redis c => isPipeline c = false
  | .setRetryCount _ _ => False
  | .now | .newJobId | .getRetryCount _ | .post _ => True

theorem does_harmless (hdoes : does False w h c v h') (hc : Harmless c) (w' : ω) (j' : JobId)
    (n : Nat) : Others w' j' (h, n) (h', n) := by
  cases v with
  | error e =>
    cases c with
    | redis c => exact hdoes.1.elim
    | post payload =>
      obtain ⟨-, rfl⟩ := hdoes
      exact .refl _
    | now | newJobId | getRetryCount | setRetryCount => exact hdoes.elim
  | ok x =>
    cases c with
    | redis c =>
      obtain ⟨r, hr, rfl⟩ := hdoes
      exact ⟨rfl, rfl, answers_known hr, fun _ => answers_payloads hr hc⟩
    | now | newJobId | post =>
      obtain rfl : h' = h := hdoes
      exact .refl _
    | getRetryCount id =>
      obtain ⟨-, rfl⟩ := hdoes
      exact .refl _
    | setRetryCount => exact hc.elim

theorem Plain.harmless (h : Plain c) : Harmless c := by
  cases c with
  | redis c => exact h
  | setRetryCount | post => exact h.elim
  | _ => trivial

/-- A command of an execution is harmless, or counts a retry of its job. -/
theorem Executes.harmless_or (hdoes : does False w h c v h') (hc : Executes j c) :
    Harmless c ∨ ∃ n, h' = h.setRetryCount w j n := by
  cases c with
  | redis c => exact Or.inl hc
  | setRetryCount id m =>
    cases v with
    | error e => exact hdoes.elim
    | ok _ =>
      obtain rfl : id = j := hc
      exact Or.inr ⟨m, hdoes⟩
  | _ => exact Or.inl trivial

/-- A command of an execution of `j` leaves the other jobs, and the other workers, alone. -/
theorem does_others (hdoes : does False w h c v h') (hc : Executes j c) (hne : w' = w → j' ≠ j)
    (n : Nat) : Others w' j' (h, n) (h', n) := by
  rcases hc.harmless_or hdoes with hc | ⟨m, rfl⟩
  · exact does_harmless hdoes hc w' j' n
  · refine ⟨rfl, ?_, fun hj => hj, fun _ hj => hj⟩
    by_cases hw : w' = w
    · subst hw
      simp [Host.setRetryCount, Function.update_of_ne (hne rfl)]
    · simp [Host.setRetryCount, Function.update_of_ne hw]

theorem does_known (hdoes : does False w h c v h') (hc : Executes j c) : Known h h' := by
  rcases hc.harmless_or hdoes with hc | ⟨m, rfl⟩
  · exact fun j' => (does_harmless hdoes hc w j' 0).known
  · exact fun j' hj' => hj'

end Commands

/-! ## The fleet -/

section Fleet

variable {ω : Type} [DecidableEq ω]

/-- A worker's two threads: it claims only while nothing is executed. -/
structure Threads (w : ω) (main exec : Task) (h : Host ω) : Prop where
  plain : Prog.Only Plain main
  main : Jobless main ∨ Ended exec ∧ ClaimSafe w main h

/-- What worker `w` executes, if anything. -/
inductive Executing (maxRetries : Int) (L : Ledger ω) (w : ω) (exec : Task) (h : Host ω) : Prop
  | nothing (hand : L.hand w = none) (idle : exec = idle)
  | job {j : JobId} (hand : L.hand w = some j) (handed : L.process w ∈ L.handed j)
      (only : Prog.Only (Executes j) exec) (safe : ExecSafe maxRetries w j exec (h, L.posts j))

/-- The processes that jobs have been handed to. -/
structure Handed (L : Ledger ω) : Prop where
  one : ∀ j, ∀ p ∈ L.handed j, ∀ p' ∈ L.handed j, p = p'
  older : ∀ j, ∀ p ∈ L.handed j, p.2 ≤ L.restarts p.1
  fresh : ∀ j, L.handed j = [] → L.posts j = 0

structure Inv (maxRetries : Int) (L : Ledger ω) (a : Fleet ω) : Prop where
  handed : Handed L
  counts : ∀ w j, (a.shared.retryCounts w j : Int) ≤ maxRetries
  bound : ∀ j, (L.posts j : Int) ≤ maxRetries + 1
  threads : ∀ w, Threads w (a.threads (w, .main)) (a.threads (w, .exec)) a.shared
  executing : ∀ w, Executing maxRetries L w (a.threads (w, .exec)) a.shared
  bounded : ∀ w j, L.process w ∈ L.handed j → Bounded maxRetries w j (a.shared, L.posts j)
  settled : ∀ w j, L.process w ∈ L.handed j → L.hand w ≠ some j →
    Settled w j (a.shared, L.posts j)

variable {maxRetries : Int} {L : Ledger ω} {a b : Fleet ω} {w : ω}

theorem inv_start (redis : Redis) (hmax : 0 ≤ maxRetries) :
    Inv maxRetries .empty (Fleet.start redis : Fleet ω) where
  handed := ⟨fun _ _ h => absurd h List.not_mem_nil, fun _ _ h => absurd h List.not_mem_nil,
    fun _ _ => rfl⟩
  counts _ _ := hmax
  bound _ := by
    show ((0 : Nat) : Int) ≤ _
    omega
  threads w := ⟨trivial, Or.inl rfl⟩
  executing w := .nothing rfl rfl
  bounded _ _ h := absurd h List.not_mem_nil
  settled _ _ h := absurd h List.not_mem_nil

/-- An execution goes on when the others have kept out of it. -/
theorem Executing.stable {L' : Ledger ω} {p : Task} {h h' : Host ω}
    (hi : Executing maxRetries L w p h) (hhand : L'.hand w = L.hand w)
    (hhanded : ∀ j, L.process w ∈ L.handed j → L'.process w ∈ L'.handed j)
    (hothers : ∀ j, L.process w ∈ L.handed j → L.hand w = some j →
      Others w j (h, L.posts j) (h', L'.posts j)) : Executing maxRetries L' w p h' := by
  cases hi with
  | nothing hand idle => exact .nothing (hhand.trans hand) idle
  | job hand handed only safe =>
    exact .job (hhand.trans hand) (hhanded _ handed) only
      (safe.stable Others.trans (hothers _ handed hand))

theorem Threads.stable {main exec : Task} {h h' : Host ω} (hi : Threads w main exec h)
    (hknown : Known h h') : Threads w main exec h' := by
  refine ⟨hi.plain, hi.main.imp_right fun ⟨hend, hsafe⟩ => ⟨hend, ?_⟩⟩
  exact hsafe.stable (fun _ _ _ hab hbc j hj => hbc j (hab j hj)) hknown

/-- A step of which no execution notices anything. -/
theorem Inv.of_others (hi : Inv maxRetries L a)
    (hexec : ∀ w, b.threads (w, .exec) = a.threads (w, .exec))
    (hretries : b.shared.retryCounts = a.shared.retryCounts)
    (hothers : ∀ w j, a.shared.redis.jobs j ≠ none →
      Others w j (a.shared, L.posts j) (b.shared, L.posts j))
    (hthreads : ∀ w, Threads w (b.threads (w, .main)) (b.threads (w, .exec)) b.shared) :
    Inv maxRetries L b where
  handed := hi.handed
  counts w j := by
    rw [hretries]
    exact hi.counts w j
  bound := hi.bound
  threads := hthreads
  executing w := by
    rw [hexec]
    exact (hi.executing w).stable rfl (fun _ => id) fun j hj _ =>
      hothers w j (hi.bounded w j hj).known
  bounded w j hj := (hi.bounded w j hj).stable (hothers w j (hi.bounded w j hj).known)
  settled w j hj hne := (hi.settled w j hj hne).stable (hi.bounded w j hj)
    (hothers w j (hi.bounded w j hj).known)

theorem not_ended_cmd {c : Cmd} {k : Except PyExc c.Reply → Task} : ¬ Ended (.cmd c k) := by
  rintro ⟨o, h⟩
  cases o <;> cases h

/-- A command of a main thread. -/
theorem Inv.of_main {c : Cmd} (hi : Inv maxRetries L a)
    (hst : Pool.Step (fun i : ω × Role => does False i.1) a ((w, .main), c) b) :
    Inv maxRetries L b := by
  cases hst with
  | @run _ _ k v h next hdoes =>
  obtain ⟨hplain, hmain⟩ := hi.threads w
  rw [next] at hplain hmain
  have hothers (w' : ω) (j' : JobId) (n : Nat) := does_harmless hdoes hplain.1.harmless w' j' n
  have hknown : Known a.shared h := does_known hdoes (hplain.1.executes "")
  have hexec (w' : ω) : Function.update a.threads (w, Role.main) (k v) (w', .exec) =
      a.threads (w', .exec) := Function.update_of_ne (by simp) ..
  refine hi.of_others hexec ?_ (fun w' j' _ => hothers w' j' _) fun w' => ?_
  · funext w' j'
    exact (hothers w' j' 0).retries
  · dsimp only
    rw [hexec]
    by_cases hw : w' = w
    · subst hw
      rw [Function.update_self]
      refine ⟨hplain.2 v, hmain.imp (fun hjobless => hjobless v) fun ⟨hend, hsafe⟩ => ⟨hend, ?_⟩⟩
      exact (hsafe a.shared (fun _ => id) v h hdoes).2
    · rw [Function.update_of_ne (by simp [hw])]
      exact (hi.threads w').stable hknown

/-- What a command of an execution of `j` changes in the ledger. -/
structure Posted (L L' : Ledger ω) (j : JobId) (n : Nat) : Prop where
  process : ∀ w, L'.process w = L.process w
  restarts : L'.restarts = L.restarts
  hand : L'.hand = L.hand
  handed : L'.handed = L.handed
  self : L'.posts j = L.posts j + n
  others : ∀ j', j' ≠ j → L'.posts j' = L.posts j'

theorem next_main (c : Cmd) : L.next (a, .command (w, .main) c, b) = L := by
  cases c <;> rfl

theorem next_exec {j : JobId} (h : L.hand w = some j) (c : Cmd) :
    Posted L (L.next (a, .command (w, .exec) c, b)) j (isPost c).toNat := by
  cases c with
  | post payload =>
    have hnext : L.next (a, .command (w, .exec) (.post payload), b) = L.posted j := by
      rw [Ledger.next]
      dsimp only
      rw [h]
    rw [hnext]
    exact ⟨fun _ => rfl, rfl, rfl, rfl, Function.update_self ..,
      fun j' hne => Function.update_of_ne hne ..⟩
  | _ => exact ⟨fun _ => rfl, rfl, rfl, rfl, rfl, fun _ _ => rfl⟩

/-- A command of an executing thread. -/
theorem Inv.of_exec {c : Cmd} (hi : Inv maxRetries L a)
    (hst : Pool.Step (fun i : ω × Role => does False i.1) a ((w, .exec), c) b) :
    Inv maxRetries (L.next (a, .command (w, .exec) c, b)) b := by
  cases hst with
  | @run _ _ k v h next hdoes =>
  have hexecuting := hi.executing w
  rw [next] at hexecuting
  cases hexecuting with
  | nothing hand idle => cases idle
  | @job j hand handed only safe =>
  obtain ⟨hbounded, hsafe⟩ := safe (a.shared, L.posts j) (.refl _) v
    (h, L.posts j + (isPost c).toNat) ⟨hdoes, rfl⟩
  have hL := next_exec (a := a) (b := ⟨h, Function.update a.threads (w, .exec) (k v)⟩) hand c
  generalize L.next _ = L' at hL ⊢
  rw [← hL.self] at hbounded hsafe
  -- nobody else executes this job
  have hother {w' : ω} {j' : JobId} (hhanded : L.process w' ∈ L.handed j') (hne : w' = w → j' ≠ j) :
      j' ≠ j := by
    rintro rfl
    exact hne (Prod.mk.inj (hi.handed.one _ _ hhanded _ handed)).1 rfl
  have hothers {w' : ω} {j' : JobId} (hhanded : L.process w' ∈ L.handed j')
      (hne : w' = w → j' ≠ j) : Others w' j' (a.shared, L.posts j') (h, L'.posts j') := by
    rw [hL.others j' (hother hhanded hne)]
    exact does_others hdoes only.1 hne _
  have hknown : Known a.shared h := does_known hdoes only.1
  refine ⟨⟨?_, ?_, ?_⟩, fun w' j' => ?_, fun j' => ?_, fun w' => ?_, fun w' => ?_,
    fun w' j' hhanded => ?_, fun w' j' hhanded hne => ?_⟩
  · rw [hL.handed]
    exact hi.handed.one
  · rw [hL.handed, hL.restarts]
    exact hi.handed.older
  · intro j' hnone
    rw [hL.handed] at hnone
    rw [hL.others j' ?_]
    · exact hi.handed.fresh j' hnone
    · rintro rfl
      rw [hnone] at handed
      cases handed
  · by_cases hsame : w' = w ∧ j' = j
    · obtain ⟨rfl, rfl⟩ := hsame
      exact hbounded.retries
    · have hretries := (does_others hdoes only.1 (fun hw hj => hsame ⟨hw, hj⟩) 0).retries
      dsimp only at hretries ⊢
      rw [hretries]
      exact hi.counts w' j'
  · by_cases hj : j' = j
    · subst hj
      have hposts := hbounded.posts
      have hretries := hbounded.retries
      omega
    · rw [hL.others j' hj]
      exact hi.bound j'
  · dsimp only
    rw [Function.update_of_ne (by simp)]
    by_cases hw : w' = w
    · subst hw
      obtain ⟨hplain, hmain⟩ := hi.threads w'
      refine ⟨hplain, Or.inl (hmain.resolve_right fun hend => ?_)⟩
      exact not_ended_cmd (next ▸ hend.1)
    · rw [Function.update_of_ne (by simp [hw])]
      exact (hi.threads w').stable hknown
  · dsimp only
    by_cases hw : w' = w
    · subst hw
      rw [Function.update_self]
      refine .job (j := j) ?_ ?_ (only.2 v) hsafe
      · rw [hL.hand]
        exact hand
      · rw [hL.process, hL.handed]
        exact handed
    · rw [Function.update_of_ne (by simp [hw])]
      refine (hi.executing w').stable (congrFun hL.hand w') (fun j' hj' => ?_) fun j' hj' _ => ?_
      · rw [hL.process, hL.handed]
        exact hj'
      · exact hothers hj' fun h => absurd h hw
  · rw [hL.process, hL.handed] at hhanded
    by_cases hsame : w' = w ∧ j' = j
    · obtain ⟨rfl, rfl⟩ := hsame
      exact hbounded
    · exact (hi.bounded w' j' hhanded).stable (hothers hhanded fun hw hj => hsame ⟨hw, hj⟩)
  · rw [hL.process, hL.handed] at hhanded
    rw [hL.hand] at hne
    have hnot : w' = w → j' ≠ j := by
      rintro rfl rfl
      exact hne hand
    exact (hi.settled w' j' hhanded hne).stable (hi.bounded w' j' hhanded) (hothers hhanded hnot)

/-- A worker starts to reap, or to claim. -/
theorem Inv.of_assign {p : Task} (hi : Inv maxRetries L a) (hplain : Prog.Only Plain p)
    (hp : Jobless p ∨ Ended (a.threads (w, .exec)) ∧ ClaimSafe w p a.shared) :
    Inv maxRetries L (a.assign (w, .main) p) := by
  refine hi.of_others (fun w' => Function.update_of_ne (by simp) ..) rfl
    (fun w' j' _ => .refl _) fun w' => ?_
  dsimp only [Fleet.assign]
  rw [Function.update_of_ne (by simp) (a := (w', Role.exec))]
  by_cases hw : w' = w
  · subst hw
    rw [Function.update_self]
    exact ⟨hplain, hp⟩
  · rw [Function.update_of_ne (by simp [hw])]
    exact hi.threads w'

/-- A worker that executes nothing has settled what it was given. -/
theorem Inv.settled_of_ended (hi : Inv maxRetries L a) (hend : Ended (a.threads (w, .exec)))
    {j : JobId} (hhanded : L.process w ∈ L.handed j) : Settled w j (a.shared, L.posts j) := by
  by_cases hhand : L.hand w = some j
  · cases hi.executing w with
    | nothing hnone => cases hhand.symm.trans hnone
    | job hhand' _ _ safe =>
      cases hhand.symm.trans hhand'
      obtain ⟨o, ho⟩ := hend
      rw [ho] at safe
      cases o with
      | ok o => exact (safe _ (.refl _)).2
      | error e => exact (safe _ (.refl _)).2
  · exact hi.settled w j hhanded hhand

/-- A claimed job is handed to the process it was first handed to. -/
theorem Inv.of_submit {job : JobRecord} (hi : Inv maxRetries L a)
    (main : a.threads (w, .main) = .ret (some job))
    (hone : ∀ p ∈ L.handed job.jobId, p = L.process w) :
    Inv maxRetries (L.submitted w job.jobId)
      ((a.assign (w, .main) idle).assign (w, .exec) (executeTask maxRetries job)) := by
  obtain ⟨-, hmain⟩ := hi.threads w
  rw [main] at hmain
  obtain ⟨hend, hsafe⟩ := hmain.resolve_left fun h => by cases h
  have hknown : a.shared.redis.jobs job.jobId ≠ none := hsafe a.shared (fun _ => id) job rfl
  have hready : Bounded maxRetries w job.jobId (a.shared, L.posts job.jobId) ∧
      Settled w job.jobId (a.shared, L.posts job.jobId) := by
    -- a job that this process has had before has settled since, or it is a new one
    cases hhanded : L.handed job.jobId with
    | nil =>
      have hnone : L.posts job.jobId = 0 := hi.handed.fresh _ hhanded
      rw [hnone]
      exact ⟨⟨hknown, hi.counts w _, Nat.zero_le _⟩, Or.inl (Nat.zero_le _)⟩
    | cons p ps =>
      have hp : p = L.process w := hone p (hhanded ▸ List.mem_cons_self)
      have hmem : L.process w ∈ L.handed job.jobId := by
        rw [hhanded, hp]
        exact List.mem_cons_self
      exact ⟨hi.bounded w _ hmem, hi.settled_of_ended hend hmem⟩
  have hself : (L.submitted w job.jobId).handed job.jobId =
      L.process w :: L.handed job.jobId := Function.update_self ..
  have hold {j : JobId} (hne : j ≠ job.jobId) :
      (L.submitted w job.jobId).handed j = L.handed j := Function.update_of_ne hne ..
  have hall : ∀ p ∈ L.process w :: L.handed job.jobId, p = L.process w :=
    List.forall_mem_cons.mpr ⟨rfl, hone⟩
  -- whoever else has had the job was this process
  have hmine {w' : ω} (h : L.process w' ∈ L.process w :: L.handed job.jobId) : w' = w :=
    (Prod.mk.inj (hall _ h)).1
  refine ⟨⟨fun j p hp p' hp' => ?_, fun j p hp => ?_, fun j hnone => ?_⟩, hi.counts, hi.bound,
    fun w' => ?_, fun w' => ?_, fun w' j hhanded => ?_, fun w' j hhanded hne => ?_⟩
  · by_cases hj : j = job.jobId
    · subst hj
      rw [hself] at hp hp'
      rw [hall p hp, hall p' hp']
    · rw [hold hj] at hp hp'
      exact hi.handed.one j p hp p' hp'
  · by_cases hj : j = job.jobId
    · subst hj
      rw [hself] at hp
      rw [hall p hp]
      exact Nat.le_refl _
    · rw [hold hj] at hp
      exact hi.handed.older j p hp
  · by_cases hj : j = job.jobId
    · subst hj
      rw [hself] at hnone
      cases hnone
    · rw [hold hj] at hnone
      exact hi.handed.fresh j hnone
  · dsimp only [Fleet.assign]
    rw [Function.update_of_ne (by simp) (a := (w', Role.main))]
    by_cases hw : w' = w
    · subst hw
      rw [Function.update_self]
      exact ⟨trivial, Or.inl rfl⟩
    · rw [Function.update_of_ne (by simp [hw]), Function.update_of_ne (by simp [hw]),
        Function.update_of_ne (by simp [hw])]
      exact hi.threads w'
  · dsimp only [Fleet.assign]
    -- only this worker's second thread begins something
    by_cases hw : w' = w
    · subst hw
      rw [Function.update_self]
      refine .job (Function.update_self ..) ?_ (executes_executeTask maxRetries job)
        (execSafe_executeTask hready.1 hready.2)
      rw [hself]
      exact List.mem_cons_self
    · rw [Function.update_of_ne (by simp [hw]), Function.update_of_ne (by simp [hw])]
      refine (hi.executing w').stable (Function.update_of_ne hw ..) (fun j hj => ?_)
        fun j _ _ => .refl _
      by_cases hjob : j = job.jobId
      · subst hjob
        rw [hself]
        exact List.mem_cons_of_mem _ hj
      · rw [hold hjob]
        exact hj
  · by_cases hj : j = job.jobId
    · subst hj
      rw [hself] at hhanded
      obtain rfl := hmine hhanded
      exact hready.1
    · rw [hold hj] at hhanded
      exact hi.bounded w' j hhanded
  · by_cases hj : j = job.jobId
    · subst hj
      rw [hself] at hhanded
      obtain rfl := hmine hhanded
      exact absurd (Function.update_self ..) hne
    · rw [hold hj] at hhanded
      by_cases hw : w' = w
      · subst hw
        exact hi.settled_of_ended hend hhanded
      · refine hi.settled w' j hhanded fun hhand => hne ?_
        exact (Function.update_of_ne hw ..).trans hhand

theorem submitted_hand (L : Ledger ω) (w : ω) (j : JobId) : (L.submitted w j).hand w = some j :=
  Function.update_self ..

/-- The process dies, and the one that replaces it has nothing in hand. -/
theorem Inv.of_restart (hi : Inv maxRetries L a) (hmax : 0 ≤ maxRetries) :
    Inv maxRetries (L.restarted w) (a.restarted w) := by
  have hothers (w' : ω) (hw : w' ≠ w) (j : JobId) (n : Nat) :
      Others w' j (a.shared, n) ((a.restarted w).shared, n) := by
    refine ⟨rfl, ?_, id, fun _ => id⟩
    exact congrFun (Function.update_of_ne hw ..) j
  -- the new process has been handed nothing
  have hprocess {w' : ω} {j : JobId} (h : (L.restarted w).process w' ∈ L.handed j) :
      w' ≠ w ∧ L.process w' ∈ L.handed j := by
    have hw : w' ≠ w := by
      rintro rfl
      have hle : (L.restarted w').restarts w' ≤ L.restarts w' := hi.handed.older j _ h
      have hnew : (L.restarted w').restarts w' = L.restarts w' + 1 := Function.update_self ..
      omega
    have hrestarts : (L.restarted w).restarts w' = L.restarts w' := Function.update_of_ne hw ..
    rw [Ledger.process, hrestarts] at h
    exact ⟨hw, h⟩
  refine ⟨⟨hi.handed.one, fun j p hp => ?_, hi.handed.fresh⟩, fun w' j => ?_, hi.bound,
    fun w' => ?_, fun w' => ?_, fun w' j hhanded => ?_, fun w' j hhanded hne => ?_⟩
  · have hle := hi.handed.older j p hp
    by_cases hw : p.1 = w
    · rw [show (L.restarted w).restarts p.1 = L.restarts w + 1 from
        hw ▸ Function.update_self ..]
      rw [hw] at hle
      omega
    · rw [show (L.restarted w).restarts p.1 = L.restarts p.1 from Function.update_of_ne hw ..]
      exact hle
  · by_cases hw : w' = w
    · subst hw
      rw [show (a.restarted w').shared.retryCounts w' = fun _ => 0 from Function.update_self ..]
      exact hmax
    · rw [show (a.restarted w).shared.retryCounts w' = a.shared.retryCounts w' from
        Function.update_of_ne hw ..]
      exact hi.counts w' j
  · by_cases hw : w' = w
    · subst hw
      refine ⟨?_, Or.inl ?_⟩
      all_goals
        rw [show (a.restarted w').threads (w', .main) = idle by simp [Fleet.restarted]]
        trivial
    · have hmain : (a.restarted w).threads (w', .main) = a.threads (w', .main) := by
        simp [Fleet.restarted, hw]
      have hexec : (a.restarted w).threads (w', .exec) = a.threads (w', .exec) := by
        simp [Fleet.restarted, hw]
      rw [hmain, hexec]
      exact (hi.threads w').stable fun _ => id
  · by_cases hw : w' = w
    · subst hw
      exact .nothing (Function.update_self ..) (by simp [Fleet.restarted])
    · have hexec : (a.restarted w).threads (w', .exec) = a.threads (w', .exec) := by
        simp [Fleet.restarted, hw]
      rw [hexec]
      refine (hi.executing w').stable (Function.update_of_ne hw ..) (fun j hj => ?_)
        fun j _ _ => hothers w' hw j _
      rw [Ledger.process, show (L.restarted w).restarts w' = L.restarts w' from
        Function.update_of_ne hw ..]
      exact hj
  · obtain ⟨hw, hhanded⟩ := hprocess hhanded
    exact (hi.bounded w' j hhanded).stable (hothers w' hw j _)
  · obtain ⟨hw, hhanded⟩ := hprocess hhanded
    have hhand : L.hand w' ≠ some j := fun h => hne ((Function.update_of_ne hw ..).trans h)
    exact (hi.settled w' j hhanded hhand).stable (hi.bounded w' j hhanded) (hothers w' hw j _)

theorem Inv.of_enqueue {record : JobRecord} {payload : GatewayRequest} (hi : Inv maxRetries L a)
    (nojob : a.shared.redis.jobs record.jobId = none) :
    Inv maxRetries L (a.enqueued record payload) := by
  have hjobs (j : JobId) (hj : a.shared.redis.jobs j ≠ none) : j ≠ record.jobId := by
    rintro rfl
    exact hj nojob
  refine hi.of_others (fun _ => rfl) rfl (fun w j hj => ⟨rfl, rfl, fun _ => ?_, fun _ hnone => ?_⟩)
    fun w => (hi.threads w).stable fun j hj => ?_
  · exact (Redis.setJob_of_ne _ _ (hjobs j hj)).symm ▸ hj
  · exact (Function.update_of_ne (hjobs j hj) ..).trans hnone
  · exact (Redis.setJob_of_ne _ _ (hjobs j hj)).symm ▸ hj

/-- **One step of the fleet.** -/
theorem Inv.of_step {l : Label ω} (hi : Inv maxRetries L a) (hmax : 0 ≤ maxRetries)
    (hone : OneProcess L a l) (hst : Fleet.Step False maxRetries a l b) :
    Inv maxRetries (L.next (a, l, b)) b := by
  cases hst with
  | @command i c _ runs =>
    obtain ⟨w, role⟩ := i
    cases role with
    | main =>
      rw [next_main]
      exact hi.of_main runs
    | exec => exact hi.of_exec runs
  | reap main => exact hi.of_assign plain_reapTask (Or.inl jobless_reapTask)
  | claim main exec leaseSeconds queuePolicy =>
    exact hi.of_assign (plain_claimTask ..) (Or.inr ⟨exec, claimSafe_claimTask⟩)
  | @submit w job main =>
    have hnext (b : Fleet ω) : L.next (a, .submit w, b) = L.submitted w job.jobId := by
      rw [Ledger.next]
      dsimp only
      rw [main]
    rw [hnext]
    exact hi.of_submit main (hone w job rfl main)
  | restart => exact hi.of_restart hmax
  | enqueue nojob nopending => exact hi.of_enqueue nojob

/-- **A job is posted at most `maxRetries + 1` times, unless it is handed to a second process.** -/
theorem attempts_bounded (maxRetries : Int) (hmax : 0 ≤ maxRetries) (redis : Redis)
    (ts : List (Fleet ω × Label ω × Fleet ω)) (a : Fleet ω)
    (hrun : Run (Fleet.Step False maxRetries) (Fleet.start redis) ts a)
    (hone : ∀ us t, us ++ [t] <+: ts → OneProcess (ledger us) t.1 t.2.1) (j : JobId) :
    ((ledger ts).posts j : Int) ≤ maxRetries + 1 := by
  have hinv : (∀ us t, us ++ [t] <+: ts → OneProcess (ledger us) t.1 t.2.1) →
      Inv maxRetries (ledger ts) a := by
    refine hrun.history (I := fun ts a => (∀ us t, us ++ [t] <+: ts →
      OneProcess (ledger us) t.1 t.2.1) → Inv maxRetries (ledger ts) a)
      (fun _ => inv_start redis hmax) ?_
    intro ts a l b ih hst hone
    have hi := ih fun us t hus => hone us t (hus.trans (List.prefix_append _ _))
    rw [ledger, List.foldl_append]
    exact hi.of_step hmax (hone ts (a, l, b) (List.prefix_refl _)) hst
  exact (hinv hone).bound j

end Fleet

/-! ## A worker that dies after each post -/

section Crashes

open Recovery

/-- The job waits in an otherwise empty queue, with its payload. -/
structure Waiting (a : Fleet Unit) : Prop where
  idle : ∀ i, a.threads i = idle
  pending : a.shared.redis.pending = {"job_a"}
  leases : a.shared.redis.leases = .empty
  queued : ∃ r, a.shared.redis.jobs "job_a" = some r ∧ r.status = .queued
  payload : a.shared.redis.payloads "job_a" ≠ none

theorem waiting_oneJob : Waiting oneJob where
  idle _ := rfl
  pending := rfl
  leases := rfl
  queued := ⟨oneRecord, rfl, rfl⟩
  payload := Option.ne_none_iff_exists'.mpr ⟨_, rfl⟩

theorem assign_self (a : Fleet Unit) (i : Unit × Role) (p : Task) : (a.assign i p).threads i = p :=
  Function.update_self ..

/-- The commands of the main thread do not count. -/
theorem foldl_main {us : List (Fleet Unit × Label Unit × Fleet Unit)}
    (h : ∀ t ∈ us, ∃ c, t.2.1 = .command ((), .main) c) (L : Ledger Unit) :
    us.foldl .next L = L := by
  induction us generalizing L with
  | nil => rfl
  | cons t us ih =>
    obtain ⟨a, l, b⟩ := t
    obtain ⟨c, hc⟩ := h _ List.mem_cons_self
    obtain rfl : l = _ := hc
    rw [List.foldl_cons, next_main]
    exact ih (fun t ht => h t (List.mem_cons_of_mem _ ht)) L

def isSubmit (t : Fleet Unit × Label Unit × Fleet Unit) : Bool :=
  match t.2.1 with
  | .submit _ => true
  | _ => false

theorem countP_main {us : List (Fleet Unit × Label Unit × Fleet Unit)}
    (h : ∀ t ∈ us, ∃ c, t.2.1 = .command ((), .main) c) : us.countP isSubmit = 0 := by
  refine List.countP_eq_zero.mpr fun t ht => ?_
  obtain ⟨c, hc⟩ := h t ht
  simp [isSubmit, hc]

/-- Only a submission hands a job over. -/
theorem next_handed {t : Fleet Unit × Label Unit × Fleet Unit} (h : isSubmit t = false)
    (L : Ledger Unit) : (L.next t).handed = L.handed := by
  obtain ⟨a, l, b⟩ := t
  cases l with
  | submit => cases h
  | command i c =>
    obtain ⟨w, role⟩ := i
    cases role with
    | main => rw [next_main]
    | exec =>
      cases c with
      | post payload =>
        show (match L.hand w with | some j => L.posted j | none => L).handed = _
        split <;> rfl
      | _ => rfl
  | _ => rfl

theorem foldl_handed {us : List (Fleet Unit × Label Unit × Fleet Unit)}
    (h : us.countP isSubmit = 0) (L : Ledger Unit) : (us.foldl .next L).handed = L.handed := by
  induction us generalizing L with
  | nil => rfl
  | cons t us ih =>
    obtain ⟨ht, hus⟩ := List.forall_mem_cons.mp (List.countP_eq_zero.mp h)
    rw [List.foldl_cons, ih (List.countP_eq_zero.mpr hus),
      next_handed (Bool.eq_false_iff.mpr ht)]

/-- One submission hands its job to one process. -/
theorem oneProcess_of_countP {ts : List (Fleet Unit × Label Unit × Fleet Unit)}
    (h : ts.countP isSubmit ≤ 1) :
    ∀ us t, us ++ [t] <+: ts → OneProcess (ledger us) t.1 t.2.1 := by
  intro us t hus w job hlabel hmain p hp
  have hle := hus.sublist.countP_le (p := isSubmit)
  have hsubmit : isSubmit t = true := by simp [isSubmit, hlabel]
  rw [List.countP_append, List.countP_singleton, if_pos hsubmit] at hle
  have hnone : us.countP isSubmit = 0 := by omega
  rw [ledger, foldl_handed hnone] at hp
  cases hp

/-- A round of reaping that finds one expired lease, up to its end. -/
theorem reapTask_run {h : Host Unit} {j : JobId} {record : JobRecord} (now : Time)
    (hlease : h.redis.leases.rangeByScore 0 now = [j]) (hjob : h.redis.jobs j = some record) :
    Prog.Steps (does False ()) reapTask h idle
      { h with redis :=
        { h.redis.setJob { record with status := .queued } with
          leases := h.redis.leases.rem j
          pending := insert j h.redis.pending } } := by
  simp only [reapTask, reapExpiredLeases, Prog.perform_bind, Prog.cmd_bind]
  refine .cmd (v := .ok now) rfl ?_
  refine .cmd (v := .ok [j]) ⟨h.redis, ⟨hlease.symm, rfl⟩, rfl⟩ ?_
  refine .cmd (v := .ok (some record)) ⟨h.redis, ⟨hjob.symm, rfl⟩, rfl⟩ ?_
  refine .cmd (v := .ok ()) ⟨_, rfl, rfl⟩ ?_
  refine .cmd (v := .ok ()) ⟨_, rfl, rfl⟩ ?_
  refine .cmd (v := .ok ()) ⟨_, rfl, rfl⟩ ?_
  refine .cmd (v := .ok _) ⟨_, ⟨rfl, rfl⟩, rfl⟩ ?_
  exact .cmd (v := .ok _) ⟨_, ⟨rfl, rfl⟩, rfl⟩ .refl

/-- A claim, the submission of the job, and its post. -/
theorem post_run {a₀ a : Fleet Unit} {ts : List (Fleet Unit × Label Unit × Fleet Unit)}
    (hrun : Run (Fleet.Step False 3) a₀ ts a) (ha : Waiting a) :
    ∃ us b, Run (Fleet.Step False 3) a₀ (ts ++ us) b ∧
      (∀ L : Ledger Unit, (us.foldl .next L).posts "job_a" = L.posts "job_a" + 1) ∧
      us.countP isSubmit = 1 ∧ b.shared.redis.pending = ∅ ∧
      b.shared.redis.leases = ZSet.empty.add "job_a" 60 ∧
      b.shared.redis.jobs "job_a" ≠ none ∧ b.shared.redis.payloads "job_a" ≠ none := by
  obtain ⟨hidle, hpending, hleases, ⟨record, hjob, hqueued⟩, hpayload⟩ := ha
  -- the claim
  have hclaiming := hrun.tail (.claim (w := ()) (hidle ((), .main))
    (hidle ((), .exec) ▸ ended_idle) 60 none)
  obtain ⟨h, hstart, hjobs, hleased, hpayloads, hpending', -⟩ := startJob_steps (w := ()) False 60 0
    (candidate defaultQueuePolicy 0 "job_a" record)
    { a.shared with redis :=
      { a.shared.redis with pending := a.shared.redis.pending.erase "job_a" } }
  obtain ⟨us, hclaimed, hmain⟩ := Fleet.run_on hclaiming ((), .main) (by
    rw [assign_self]
    exact (claimTask_steps False 60 0 hpending hjob hqueued).trans hstart)
  -- the executing thread reads the payload and posts it
  have hsubmitted := hclaimed.tail (.submit (w := ()) rfl)
  obtain ⟨payload, hsome⟩ := Option.ne_none_iff_exists'.mp hpayload
  have hsome' : h.redis.payloads record.jobId = some payload := by
    rw [hpayloads, a.shared.redis.jobs_key _ _ hjob]
    exact hsome
  have hid : record.jobId = "job_a" := a.shared.redis.jobs_key _ _ hjob
  have hget := hsubmitted.tail (.command (i := ((), .exec)) (.run (v := .ok (some payload)) rfl
    ⟨_, ⟨hsome'.symm, rfl⟩, rfl⟩))
  have hpost := hget.tail (.command (i := ((), .exec)) (.run (v := .ok ⟨200, .ok "answer", ""⟩) rfl
    rfl))
  rw [List.append_assoc, List.append_assoc, List.append_assoc, List.append_assoc] at hpost
  refine ⟨_, _, hpost, fun L => ?_, ?_, ?_, ?_, ?_, ?_⟩
  · simp only [List.foldl_append, List.foldl_cons, List.foldl_nil]
    have hclaim : L.next (a, .claim (), a.assign ((), .main) (claimTask 60 none)) = L := rfl
    have hhand : (L.submitted () record.jobId).hand () = some "job_a" := by
      rw [submitted_hand, hid]
    rw [hclaim, foldl_main hmain]
    -- the submission, the `GET` of the payload, and the post
    exact (next_exec hhand (.post payload)).self
  · simp only [List.countP_append, countP_main hmain]
    rfl
  · exact hpending'.trans (by rw [hpending]; rfl)
  · show h.redis.leases = _
    rw [hleased]
    show a.shared.redis.leases.add "job_a" (0 + ((60 : Int) : Time)) = _
    rw [hleases, zero_add]
    rfl
  · show h.redis.jobs "job_a" ≠ none
    rw [hjobs, ← hid]
    exact (Redis.setJob_self ..).symm ▸ Option.some_ne_none _
  · exact fun hnone => hpayload (hpayloads ▸ hnone)

/-- The worker dies; the one that replaces it finds the lease expired. -/
theorem reclaim_run {a₀ a : Fleet Unit} {ts : List (Fleet Unit × Label Unit × Fleet Unit)}
    (hrun : Run (Fleet.Step False 3) a₀ ts a) (hpending : a.shared.redis.pending = ∅)
    (hleases : a.shared.redis.leases = ZSet.empty.add "job_a" 60)
    (hjob : a.shared.redis.jobs "job_a" ≠ none)
    (hpayload : a.shared.redis.payloads "job_a" ≠ none) :
    ∃ us b, Run (Fleet.Step False 3) a₀ (ts ++ us) b ∧
      (∀ L : Ledger Unit, (us.foldl .next L).posts = L.posts) ∧ Waiting b := by
  obtain ⟨record, hrecord⟩ := Option.ne_none_iff_exists'.mp hjob
  have hid : record.jobId = "job_a" := a.shared.redis.jobs_key _ _ hrecord
  have hreaping := (hrun.tail (.restart (w := ()))).tail (.reap (w := ()) rfl)
  obtain ⟨us, hreaped, hmain⟩ := Fleet.run_on hreaping ((), .main) (by
    rw [assign_self]
    refine reapTask_run 100 (j := "job_a") ?_ hrecord
    show a.shared.redis.leases.rangeByScore 0 100 = _
    rw [hleases]
    decide +kernel)
  rw [List.append_assoc, List.append_assoc] at hreaped
  refine ⟨_, _, hreaped, fun L => ?_, ?_⟩
  · simp only [List.foldl_append, List.foldl_cons, List.foldl_nil]
    rw [foldl_main hmain]
    rfl
  · refine ⟨fun i => ?_, ?_, ?_, ⟨{ record with status := .queued }, ?_, rfl⟩, hpayload⟩
    · obtain ⟨⟨⟩, _ | _⟩ := i <;> rfl
    · show insert "job_a" a.shared.redis.pending = _
      rw [hpending]
      rfl
    · show a.shared.redis.leases.rem "job_a" = _
      rw [hleases]
      rfl
    · show Function.update a.shared.redis.jobs record.jobId _ "job_a" = _
      rw [hid, Function.update_self]

/-- It posts the job as often as it dies. -/
theorem posts_run (n : Nat) : ∃ ts a, Run (Fleet.Step False 3) emptyWorker ts a ∧ Waiting a ∧
    (ledger ts).posts "job_a" = n := by
  induction n with
  | zero => exact ⟨_, oneJob, .tail .refl (.enqueue rfl (by decide)), waiting_oneJob, rfl⟩
  | succ n ih =>
    obtain ⟨ts, a, hrun, hwaiting, hposts⟩ := ih
    obtain ⟨us, b, hposted, hone, -, hpending, hleases, hjob, hpayload⟩ := post_run hrun hwaiting
    obtain ⟨vs, c, hreclaimed, hsame, hwaiting'⟩ :=
      reclaim_run hposted hpending hleases hjob hpayload
    refine ⟨_, c, hreclaimed, hwaiting', ?_⟩
    rw [ledger, List.foldl_append, hsame, List.foldl_append, hone]
    exact congrArg (· + 1) hposts

/-- **Nothing bounds the posts of a job by the retry budget.** -/
theorem attempts_unbounded : ¬ ∃ bound : Nat, ∀ ts a,
    Run (Fleet.Step False 3) emptyWorker ts a → (ledger ts).posts "job_a" ≤ bound := by
  rintro ⟨bound, h⟩
  obtain ⟨ts, a, hrun, -, hposts⟩ := posts_run (bound + 1)
  have hle := h ts a hrun
  omega

theorem attempts_bounded_once : ∃ ts a, Run (Fleet.Step False 3) emptyWorker ts a ∧
    (ledger ts).posts "job_a" = 1 ∧ ((ledger ts).posts "job_a" : Int) ≤ 3 + 1 := by
  obtain ⟨us, b, hposted, hone, hsubmit, -⟩ :=
    post_run (.tail .refl (.enqueue rfl (by decide))) waiting_oneJob
  refine ⟨_, b, hposted, ?_, ?_⟩
  · rw [ledger, List.foldl_append, hone]
    rfl
  · refine attempts_bounded 3 (by decide) .empty _ b hposted (oneProcess_of_countP ?_) "job_a"
    rw [List.countP_append, hsubmit]
    exact Nat.le_refl 1

end Crashes

end PolyGate.Automation.Attempts
