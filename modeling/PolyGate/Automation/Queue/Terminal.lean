import PolyGate.Automation.Queue.Recovery

/-!
# `Automation/Queue/Terminal.lean` — whether a finished job stays finished

`complete_job`, `fail_job`, `requeue_job` and a claim all read a job's record, change a field
and write the whole record back. Nothing is checked in between: what another thread wrote
meanwhile is overwritten, and a record that was already finished when it was read is reopened.

So a program is described by what it has in hand. `Spares r p` says that `p`, until it next
reads a record or takes a job out of the pending set, writes no other status or result over
`r`; the programs of a worker are `Tidy`, that is, they have nothing in hand when they start,
after they have written, and when a read raised. `finished_kept` is for every run of any number
of workers in which no thread takes a finished job in hand, and none finishes a job that another
has in hand. `reap_reopens_completed` is one worker, reaping while it executes.
-/

namespace PolyGate.Automation.Terminal

open Lib

/-! ## Finished jobs -/

/-- The stored record `r` has a final status. -/
def Finished (s : Redis) (r : JobRecord) : Prop :=
  s.jobs r.jobId = some r ∧ r.status.Terminal

/-- The same job with the same status and result. -/
def SameEnd (r r' : JobRecord) : Prop :=
  r'.jobId = r.jobId ∧ r'.status = r.status ∧ r'.result = r.result

/-- What is finished in `s` is finished in `s'`, with the same status and result. -/
def Keeps (s s' : Redis) : Prop :=
  ∀ r, Finished s r → ∃ r', Finished s' r' ∧ SameEnd r r'

theorem Keeps.refl (s : Redis) : Keeps s s := fun r hr => ⟨r, hr, rfl, rfl, rfl⟩

theorem Keeps.trans {s s' s'' : Redis} (h : Keeps s s') (h' : Keeps s' s'') : Keeps s s'' := by
  intro r hr
  obtain ⟨r', hr', hsame⟩ := h r hr
  obtain ⟨r'', hr'', hsame'⟩ := h' r' hr'
  exact ⟨r'', hr'', hsame'.1.trans hsame.1, hsame'.2.1.trans hsame.2.1,
    hsame'.2.2.trans hsame.2.2⟩

theorem Keeps.of_jobs {s s' : Redis} (h : s'.jobs = s.jobs) : Keeps s s' :=
  fun r hr => ⟨r, ⟨h ▸ hr.1, hr.2⟩, rfl, rfl, rfl⟩

/-! ## What a thread has in hand -/

/-- The commands that hand a thread a job: reading its record, and taking it out of the pending
set. -/
def Takes : Cmd → Prop
  | .redis (.getJob _) | .redis (.sremPending _) => True
  | _ => False

/-- The record a command writes. -/
def written : Cmd → Option JobRecord
  | .redis (.setJob r) | .redis (.enqueuePipeline r _) => some r
  | _ => none

/-- The command writes another status or result over `r`. -/
def Overwrites (r : JobRecord) (c : Cmd) : Prop :=
  ∃ r', written c = some r' ∧ r'.jobId = r.jobId ∧ ¬ SameEnd r r'

/-- Before it next takes a job in hand, the program does not overwrite `r`. -/
def Spares {α : Type} (r : JobRecord) (p : Store α) : Prop :=
  p.Until Takes (¬ Overwrites r ·)

/-- The program has no job in hand. -/
def EmptyHanded {α : Type} (p : Store α) : Prop := p.Until Takes fun c => written c = none

theorem EmptyHanded.spares {α : Type} {p : Store α} (h : EmptyHanded p) (r : JobRecord) :
    Spares r p :=
  h.imp fun c hc ⟨r', hr', _⟩ => by
    rw [hc] at hr'
    cases hr'

theorem Takes.not_written {c : Cmd} (h : Takes c) : written c = none := by
  cases c with
  | redis c => cases c <;> first | rfl | exact h.elim
  | _ => rfl

/-- Every job in hand was taken by the last `GET` or `SREM` that was answered, and has not been
written since. -/
def Orderly {α : Type} : Store α → Prop
  | .ret _ | .raise _ => True
  | .cmd c k => (Takes c → ∀ e, EmptyHanded (k (.error e))) ∧
      (written c ≠ none → ∀ v, EmptyHanded (k v)) ∧ ∀ v, Orderly (k v)

/-- A program that starts with nothing in hand and is orderly from there. -/
structure Tidy {α : Type} (p : Store α) : Prop where
  empty : EmptyHanded p
  orderly : Orderly p

/-! ## The worker's programs are tidy -/

section
variable {α β : Type}

theorem Tidy.ret (a : α) : Tidy (.ret a) := ⟨trivial, trivial⟩

theorem Tidy.raise (e : PyExc) : Tidy (.raise e : Store α) := ⟨trivial, trivial⟩

/-- A command that hands the program nothing it is going to write. -/
theorem Tidy.cmd {c : Cmd} {k : Except PyExc c.Reply → Store α} (hc : written c = none)
    (hk : ∀ v, Tidy (k v)) : Tidy (.cmd c k) where
  empty := Or.inr ⟨hc, fun v => (hk v).empty⟩
  orderly := ⟨fun _ _ => (hk _).empty, fun hw => absurd hc hw, fun v => (hk v).orderly⟩

/-- A command that takes a job in hand, if it is answered. -/
theorem Tidy.take {c : Cmd} {k : c.Reply → Store α} (hc : Takes c)
    (hk : ∀ v, Orderly (k v)) : Tidy (.cmd c (Prog.onReply k)) where
  empty := Or.inl hc
  orderly := by
    refine ⟨fun _ _ => trivial, fun hw => absurd hc.not_written hw, fun v => ?_⟩
    cases v with
    | ok v => exact hk v
    | error e => trivial

theorem Tidy.onReply {ρ : Type} {f : ρ → Store α} (hf : ∀ x, Tidy (f x)) (v : Except PyExc ρ) :
    Tidy (Prog.onReply f v) := by
  cases v with
  | ok x => exact hf x
  | error e => exact .raise e

theorem Orderly.onReply {ρ : Type} {f : ρ → Store α} (hf : ∀ x, Orderly (f x))
    (v : Except PyExc ρ) : Orderly (Prog.onReply f v) := by
  cases v with
  | ok x => exact hf x
  | error e => trivial

/-- With a job in hand: a command that neither takes nor writes. -/
theorem Orderly.cmd {c : Cmd} {k : c.Reply → Store α} (ht : ¬ Takes c)
    (hw : written c = none) (hk : ∀ v, Orderly (k v)) : Orderly (.cmd c (Prog.onReply k)) :=
  ⟨fun h => absurd h ht, fun h => absurd hw h, Orderly.onReply hk⟩

/-- With a job in hand: it is written, and what follows has nothing in hand. -/
theorem Orderly.write {c : Cmd} {k : c.Reply → Store α} (ht : ¬ Takes c)
    (hk : ∀ v, Tidy (k v)) : Orderly (.cmd c (Prog.onReply k)) :=
  ⟨fun h => absurd h ht, fun _ v => (Tidy.onReply hk v).empty,
    Orderly.onReply fun v => (hk v).orderly⟩

theorem Orderly.bind {p : Store α} {f : α → Store β} (h : Orderly p) (hf : ∀ a, Tidy (f a)) :
    Orderly (p >>= f) := by
  induction p with
  | ret a => exact (hf a).orderly
  | raise e => trivial
  | cmd c k ih =>
    obtain ⟨htake, hwrite, hk⟩ := h
    exact ⟨fun hc e => (htake hc e).bind fun a => (hf a).empty,
      fun hc v => (hwrite hc v).bind fun a => (hf a).empty, fun v => ih v (hk v)⟩

theorem Tidy.bind {p : Store α} {f : α → Store β} (h : Tidy p) (hf : ∀ a, Tidy (f a)) :
    Tidy (p >>= f) :=
  ⟨h.empty.bind fun a => (hf a).empty, h.orderly.bind hf⟩

theorem Tidy.catch {p : Store α} {h : PyExc → Store α} (hp : Tidy p) (hh : ∀ e, Tidy (h e)) :
    Tidy (tryCatch p h) := by
  refine ⟨hp.empty.catch fun e => (hh e).empty, ?_⟩
  obtain ⟨-, hp⟩ := hp
  induction p with
  | ret a => trivial
  | raise e => exact (hh e).orderly
  | cmd c k ih =>
    obtain ⟨htake, hwrite, hk⟩ := hp
    exact ⟨fun hc e => (htake hc e).catch fun e => (hh e).empty,
      fun hc v => (hwrite hc v).catch fun e => (hh e).empty, fun v => ih v (hk v)⟩

theorem Tidy.perform {c : Cmd} (hc : written c = none) :
    Tidy (Prog.perform c : Store c.Reply) :=
  .cmd hc (Tidy.onReply fun x => .ret x)

end

theorem tidy_requeueJob (j : JobId) : Tidy (requeueJob j) := by
  simp only [requeueJob, getJob, saveJob, Prog.perform_bind]
  refine .take trivial fun record => ?_
  cases record with
  | none => trivial
  | some record =>
    refine .write id fun _ => ?_
    exact .cmd rfl (Tidy.onReply fun _ => .perform rfl)

theorem tidy_requeueAll (ids : List JobId) : Tidy (requeueAll ids) := by
  induction ids with
  | nil => exact .ret ()
  | cons j rest ih => exact (tidy_requeueJob j).bind fun _ => ih

theorem tidy_reapTask : Tidy reapTask := by
  refine Tidy.bind (.bind (.perform rfl) fun now => ?_) fun _ => ?_
  · exact .bind (.perform rfl) fun ids => (tidy_requeueAll ids).bind fun _ => .ret ids
  · exact .bind (.perform rfl) fun _ => .bind (.perform rfl) fun _ => .ret none

theorem tidy_finishJob (j : JobId) (finish : JobRecord → Time → JobRecord) :
    Tidy (finishJob j finish) := by
  simp only [finishJob, getJob, saveJob, clearExecutionPayload, Prog.perform_bind]
  refine .take trivial fun record => ?_
  cases record with
  | none => trivial
  | some record =>
    -- the clock is read with the job in hand
    refine .cmd id rfl fun completedAt => .write id fun _ => ?_
    exact .cmd rfl (Tidy.onReply fun _ => .perform rfl)

theorem tidy_attemptJob (j : JobId) : Tidy (attemptJob j) := by
  refine .bind (.perform rfl) fun payload => ?_
  cases payload with
  | none => exact .raise _
  | some payload =>
    refine .bind (.perform rfl) fun resp => .bind ?_ fun _ => .bind ?_ fun _ => ?_
    · unfold Response.raiseForStatus
      split
      · exact .ret ()
      · exact .raise _
    · unfold Response.parse
      split
      · exact .ret _
      · exact .raise _
    · exact tidy_finishJob j _

theorem tidy_handleFailure (maxRetries : Int) (j : JobId) (exc : PyExc) :
    Tidy (handleFailure maxRetries j exc) := by
  refine .bind (.perform rfl) fun retries => ?_
  split
  · exact .bind (.perform rfl) fun _ => tidy_requeueJob j
  · exact tidy_finishJob j _

theorem tidy_executeTask (maxRetries : Int) (job : JobRecord) :
    Tidy (executeTask maxRetries job) :=
  .bind (.catch (tidy_attemptJob _) (tidy_handleFailure maxRetries _)) fun _ => .ret none

theorem tidy_collectCandidates (policy : QueuePolicy) (now : Time) (ids : List JobId) :
    Tidy (collectCandidates policy now ids) := by
  induction ids with
  | nil => exact .ret []
  | cons j rest ih =>
    refine .bind (.perform rfl) fun record => ?_
    cases record with
    | none => exact .bind (.perform rfl) fun _ => ih
    | some record =>
      simp only
      split
      · exact .bind ih fun others => .ret _
      · exact .bind (.perform rfl) fun _ => ih

/-- Between the `SREM` of a claim and its record, nothing else is taken or written. -/
theorem orderly_startJob (leaseSeconds : Int) (chosen : Candidate) :
    Orderly (startJob leaseSeconds chosen) := by
  have hlease : Orderly (leaseJob leaseSeconds chosen) := by
    simp only [leaseJob, saveJob, Prog.perform_bind]
    refine .cmd id rfl fun startedAt => .write id fun _ => ?_
    exact .cmd rfl (Tidy.onReply fun now => .cmd rfl (Tidy.onReply fun _ => .ret _))
  simp only [startJob, Prog.perform_bind]
  split
  · exact .cmd id rfl fun _ => hlease
  · exact .cmd id rfl fun _ => hlease

theorem tidy_claimTask (leaseSeconds : Int) (queuePolicy : Option QueuePolicy) :
    Tidy (claimTask leaseSeconds queuePolicy) := by
  refine .bind (.perform rfl) fun ids => ?_
  split
  · exact .ret none
  refine .bind (.perform rfl) fun now => .bind (tidy_collectCandidates ..) fun candidates => ?_
  split
  · exact .ret none
  refine .bind (.perform rfl) fun streak => ?_
  split
  · exact .ret none
  · rename_i chosen _
    simp only [Prog.perform_bind]
    refine .take trivial fun removed => ?_
    split
    · exact (orderly_startJob leaseSeconds chosen).bind fun record => .ret _
    · trivial

/-! ## A fleet of workers -/

section Fleet

variable {ω : Type} [DecidableEq ω] {maxRetries : Int} {a b : Fleet ω}

/-- A step that takes no finished job in hand, and finishes none that another thread has in
hand: said of the program that is about to send the command, and of the state it finds. -/
def HandsOff (a : Fleet ω) (l : Label ω) : Prop :=
  ∀ i c k, l = .command i c → a.threads i = .cmd c k →
    (Takes c → ∀ v h, does True i.1 a.shared c (.ok v) h →
      ∀ r, Finished a.shared.redis r → Spares r (k (.ok v))) ∧
    ∀ r, written c = some r → r.status.Terminal → ∀ i', i' ≠ i → Spares r (a.threads i')

/-- Every thread is orderly, and none is about to overwrite a finished job. -/
structure Inv (a : Fleet ω) : Prop where
  orderly : ∀ i, Orderly (a.threads i)
  spares : ∀ r, Finished a.shared.redis r → ∀ i, Spares r (a.threads i)

theorem answers_jobs {s s' : Redis} {c : RedisCmd} {v : c.Reply} (h : s.Answers c v s') :
    s'.jobs = s.jobs ∨ ∃ r, written (.redis c) = some r ∧ s'.jobs = (s.setJob r).jobs := by
  cases c with
  | setJob r =>
    obtain rfl := h
    exact Or.inr ⟨r, rfl, rfl⟩
  | enqueuePipeline r payload =>
    obtain rfl := h
    exact Or.inr ⟨r, rfl, rfl⟩
  | setNxIdempotency key id =>
    left
    simp only [Redis.Answers] at h
    split at h
    · rw [h.2]
      rfl
    · rw [h.2]
  | setPreview | setIdempotency | delPayload | saddPending | incrStreak | setStreak | zaddLease
  | zremLease =>
    left
    obtain rfl := h
    rfl
  | _ =>
    left
    rw [h.2]

/-- Answered or not, a command writes the record it carries or none. -/
theorem does_jobs {w : ω} {h h' : Host ω} {c : Cmd} {v : Except PyExc c.Reply}
    (hx : does True w h c v h') :
    h'.redis.jobs = h.redis.jobs ∨
      ∃ r, written c = some r ∧ h'.redis.jobs = (h.redis.setJob r).jobs := by
  cases v with
  | ok v =>
    cases c with
    | redis c =>
      obtain ⟨s, hs, rfl⟩ := hx
      exact answers_jobs hs
    | getRetryCount j =>
      obtain ⟨-, rfl⟩ := hx
      exact Or.inl rfl
    | now | newJobId | post | setRetryCount =>
      obtain rfl := hx
      exact Or.inl rfl
  | error e =>
    cases c with
    | redis c =>
      obtain ⟨-, -, rfl | ⟨_, s, hs, rfl⟩⟩ := hx
      · exact Or.inl rfl
      · exact answers_jobs hs
    | post payload =>
      obtain ⟨-, rfl⟩ := hx
      exact Or.inl rfl
    | _ => exact hx.elim

/-- What is finished after a write was finished before, or is what was written. -/
theorem Finished.of_setJob {s : Redis} {r r' : JobRecord} (h : Finished (s.setJob r) r') :
    r' = r ∨ Finished s r' := by
  by_cases hid : r'.jobId = r.jobId
  · left
    have hjob := h.1
    rw [hid, Redis.setJob_self] at hjob
    exact (Option.some.inj hjob).symm
  · right
    exact ⟨by simpa [Redis.setJob_of_ne _ _ hid] using h.1, h.2⟩

theorem Finished.congr {s s' : Redis} {r : JobRecord} (hjobs : s'.jobs = s.jobs) :
    Finished s' r ↔ Finished s r := by
  rw [Finished, Finished, hjobs]

/-- A write that does not overwrite a finished record keeps them all. -/
theorem keeps_setJob {s : Redis} {r : JobRecord}
    (h : ∀ r', Finished s r' → r'.jobId = r.jobId → SameEnd r' r) : Keeps s (s.setJob r) := by
  intro r' hr'
  by_cases hid : r'.jobId = r.jobId
  · have hsame := h r' hr' hid
    exact ⟨r, ⟨s.setJob_self r, hsame.2.1 ▸ hr'.2⟩, hsame⟩
  · exact ⟨r', ⟨by rw [Redis.setJob_of_ne _ _ hid]; exact hr'.1, hr'.2⟩, rfl, rfl, rfl⟩

/-- **A command of a thread.** -/
theorem Inv.of_command {i : ω × Role} {c : Cmd} (hi : Inv a) (hok : HandsOff a (.command i c))
    (hst : Pool.Step (fun i : ω × Role => does True i.1) a (i, c) b) :
    Keeps a.shared.redis b.shared.redis ∧ Inv b := by
  cases hst with
  | @run _ _ k v h next does =>
  obtain ⟨htakes, hwrites⟩ := hok i c k rfl next
  have hown := hi.orderly i
  have hspares : ∀ r, Finished a.shared.redis r → Spares r (.cmd c k) :=
    fun r hr => next ▸ hi.spares r hr i
  rw [next] at hown
  obtain ⟨herror, hafter, hnext⟩ := hown
  -- what the thread has left spares whatever was finished before the command
  have hleft : ∀ r, Finished a.shared.redis r → Spares r (k v) := by
    intro r hr
    by_cases hc : Takes c
    · cases v with
      | ok v => exact htakes hc v h does r hr
      | error e => exact (herror hc e).spares r
    · exact (hspares r hr).step hc v
  have horderly : ∀ i', Orderly (Function.update a.threads i (k v) i') :=
    (Function.forall_update_iff _ fun _ p => Orderly p).mpr ⟨hnext v, fun i' _ => hi.orderly i'⟩
  have hold : ∀ r, Finished a.shared.redis r →
      ∀ i', Spares r (Function.update a.threads i (k v) i') := fun r hr =>
    (Function.forall_update_iff _ fun _ p => Spares r p).mpr
      ⟨hleft r hr, fun i' _ => hi.spares r hr i'⟩
  rcases does_jobs does with hjobs | ⟨r, hr, hjobs⟩
  · exact ⟨.of_jobs hjobs, horderly, fun r hfin => hold r ((Finished.congr hjobs).mp hfin)⟩
  · have hnt : ¬ Takes c := by
      intro hc
      rw [hc.not_written] at hr
      cases hr
    have hkeeps : Keeps a.shared.redis (a.shared.redis.setJob r) := by
      apply keeps_setJob
      intro r' hr' hid
      by_contra hne
      rcases hspares r' hr' with hc | ⟨hno, -⟩
      · exact hnt hc
      · exact hno ⟨r, hr, hid.symm, hne⟩
    refine ⟨hkeeps.trans (.of_jobs hjobs), horderly, fun r' hfin => ?_⟩
    rcases ((Finished.congr hjobs).mp hfin).of_setJob with rfl | hfin'
    · -- the record just written: the thread has nothing left in hand, the others had nothing
      apply (Function.forall_update_iff _ fun _ p => Spares r' p).mpr
      exact ⟨(hafter (by simp [hr]) v).spares r', hwrites r' hr hfin.2⟩
    · exact hold r' hfin'

theorem Inv.of_assign {i : ω × Role} {p : Task} (hi : Inv a) (hp : Tidy p) :
    Inv (a.assign i p) where
  orderly := (Function.forall_update_iff _ fun _ p => Orderly p).mpr
    ⟨hp.orderly, fun i' _ => hi.orderly i'⟩
  spares r hr := (Function.forall_update_iff _ fun _ p => Spares r p).mpr
    ⟨hp.empty.spares r, fun i' _ => hi.spares r hr i'⟩

theorem tidy_idle : Tidy idle := .ret none

/-- **One step of the fleet.** -/
theorem Inv.of_step {l : Label ω} (hi : Inv a) (hok : HandsOff a l)
    (hst : Fleet.Step True maxRetries a l b) :
    Keeps a.shared.redis b.shared.redis ∧ Inv b := by
  cases hst with
  | command runs => exact hi.of_command hok runs
  | reap main => exact ⟨.refl _, hi.of_assign tidy_reapTask⟩
  | claim main exec leaseSeconds queuePolicy =>
    exact ⟨.refl _, hi.of_assign (tidy_claimTask leaseSeconds queuePolicy)⟩
  | @submit w job main =>
    exact ⟨.refl _, (hi.of_assign tidy_idle).of_assign (tidy_executeTask maxRetries job)⟩
  | @restart w =>
    have h : Inv ((a.assign (w, .main) idle).assign (w, .exec) idle) :=
      (hi.of_assign tidy_idle).of_assign tidy_idle
    exact ⟨.refl _, h.orderly, h.spares⟩
  | @enqueue preview id n t nojob nopending =>
    refine ⟨keeps_setJob fun r hr hid => ?_, hi.orderly, fun r hfin => ?_⟩
    · have hjob := hr.1
      rw [hid] at hjob
      exact absurd (nojob.symm.trans hjob) (by simp)
    · rcases Finished.of_setJob (r := newRecord preview id n t) hfin with rfl | hfin'
      · exact absurd hfin.2 fun h => h
      · exact hi.spares r hfin'

/-- **A finished job stays finished, unless a thread takes it in hand or had it in hand.** Any
number of workers reap, claim and execute in any order, with leases expiring at any time, Redis
and the gateway failing at any command, and processes dying. If no command takes a finished job
in hand and no job is finished while another thread has it in hand, then what is finished at
some point of the run is finished at its end, with the same status and the same result. -/
theorem finished_kept {redis : Redis} {ts : List (Fleet ω × Label ω × Fleet ω)} {w : Fleet ω}
    (hrun : Run (Fleet.Step True maxRetries) (Fleet.start redis) ts w)
    (hok : ∀ t ∈ ts, HandsOff t.1 t.2.1) :
    ∀ t ∈ ts, Keeps t.1.shared.redis w.shared.redis := by
  have hstart : Inv (Fleet.start redis : Fleet ω) :=
    ⟨fun _ => tidy_idle.orderly, fun r _ _ => tidy_idle.empty.spares r⟩
  have h := (hrun.restrict hok).history
    (I := fun ts w => Inv w ∧ ∀ t ∈ ts, Keeps t.1.shared.redis w.shared.redis)
    ⟨hstart, fun _ ht => absurd ht (by simp)⟩
  refine (h ?_).2
  intro ts w₁ l w₂ ⟨hi, hkept⟩ ⟨hok₁, hst⟩
  obtain ⟨hkeeps, hi'⟩ := hi.of_step hok₁ hst
  refine ⟨hi', fun t ht => ?_⟩
  rcases List.mem_append.mp ht with ht | ht
  · exact (hkept t ht).trans hkeeps
  · rw [List.mem_singleton.mp ht]
    exact hkeeps

end Fleet

/-- A completed job, with its id still in the pending set. -/
def stalePending : Redis :=
  { Redis.empty.setJob
      { Recovery.oneRecord with status := .completed, result := some "answer" } with
    pending := {"job_a"} }

/-- A run of hands-off steps goes on with a command that leaves its thread nothing in hand. -/
theorem run_emptyHanded {a₀ a : Fleet Unit} {ts : List (Fleet Unit × Label Unit × Fleet Unit)}
    {i : Unit × Role} {c : Cmd} {k : Except PyExc c.Reply → Task} {v : Except PyExc c.Reply}
    {h : Host Unit}
    (hrun : Run (fun (a : Fleet Unit) l b => HandsOff a l ∧ Fleet.Step True 3 a l b) a₀ ts a)
    (next : a.threads i = .cmd c k) (hc : written c = none) (hx : does True i.1 a.shared c v h)
    (hk : ∀ x h, does True i.1 a.shared c (.ok x) h → EmptyHanded (k (.ok x))) :
    ∃ us, Run (fun (a : Fleet Unit) l b => HandsOff a l ∧ Fleet.Step True 3 a l b) a₀ us
      ⟨h, Function.update a.threads i (k v)⟩ := by
  refine ⟨_, hrun.tail ⟨?_, .command (.run next hx)⟩⟩
  intro i' c' k' hl hnext
  cases hl
  cases next.symm.trans hnext
  refine ⟨fun _ x h hx r _ => (hk x h hx).spares r, fun r hr => ?_⟩
  rw [hc] at hr
  cases hr

/-- A claim reads the completed job, drops it from the pending set and has no job to return. -/
theorem finished_kept_stale : ∃ ts w, Run (Fleet.Step True 3) (Fleet.start stalePending) ts w ∧
    w.threads ((), .main) = .ret none ∧ w.shared.redis.pending = ∅ ∧
    ∀ t ∈ ts, Keeps t.1.shared.redis w.shared.redis := by
  have hstart : Run (fun (a : Fleet Unit) l b => HandsOff a l ∧ Fleet.Step True 3 a l b)
      (Fleet.start stalePending) [] _ := .refl
  have hrun := hstart.tail (And.intro (fun _ _ _ hl => by cases hl)
    (.claim (w := ()) rfl ⟨.ok none, rfl⟩ 60 none))
  have hempty := (tidy_claimTask 60 none).empty
  obtain ⟨_, hrun⟩ := run_emptyHanded hrun (i := ((), Role.main)) (v := .ok ["job_a"]) rfl rfl
    ⟨_, ⟨⟨by decide, rfl⟩, rfl⟩, rfl⟩ fun _ _ _ => hempty.step id _
  have hempty := hempty.step id (.ok ["job_a"])
  obtain ⟨_, hrun⟩ := run_emptyHanded hrun (i := ((), Role.main)) (v := .ok 0) rfl rfl rfl
    fun _ _ _ => hempty.step id _
  -- the `GET` finds the job completed, the `SREM` drops it
  obtain ⟨_, hrun⟩ := run_emptyHanded hrun (i := ((), Role.main)) (v := .ok (some _)) rfl rfl
    ⟨_, ⟨rfl, rfl⟩, rfl⟩ (by rintro _ _ ⟨_, ⟨rfl, -⟩, -⟩; exact Or.inl trivial)
  obtain ⟨_, hrun⟩ := run_emptyHanded hrun (i := ((), Role.main)) (v := .ok true) rfl rfl
    ⟨_, ⟨rfl, rfl⟩, rfl⟩ fun _ _ _ => trivial
  exact ⟨_, _, hrun.mono fun _ _ _ h => h.2, rfl, rfl,
    finished_kept (hrun.mono fun _ _ _ h => h.2) fun t ht => (hrun.steps t ht).1⟩

/-! ## A lease that expires under its job -/

/-- An execution up to the record it writes at the end. -/
theorem executeTask_steps (faults : Prop) (maxRetries : Int) {h : Host Unit}
    (job : JobRecord) {record : JobRecord} {payload : GatewayRequest} (result : JsonText)
    (now : Time)
    (hpayload : h.redis.payloads job.jobId = some payload)
    (hjob : h.redis.jobs job.jobId = some record) :
    ∃ k, Prog.Steps (does faults ()) (executeTask maxRetries job) h
      (.cmd (.redis (.setJob
        { record with status := .completed, completedAt := some now, result := some result })) k)
      h := by
  simp only [executeTask, executeJob, attemptJob, getExecutionPayload, Prog.perform_bind,
    Prog.cmd_catch, Prog.cmd_bind]
  apply Exists.intro
  refine .cmd (v := .ok (some payload)) ⟨h.redis, ⟨hpayload.symm, rfl⟩, rfl⟩ ?_
  refine .cmd (v := .ok ⟨200, .ok result, ""⟩) rfl ?_
  refine .cmd (v := .ok (some record)) ⟨h.redis, ⟨hjob.symm, rfl⟩, rfl⟩ ?_
  exact .cmd (v := .ok now) rfl .refl

/-- A round of reaping that finds one expired lease, up to the record it writes. -/
theorem reapTask_steps (faults : Prop) {h : Host Unit} {j : JobId} {record : JobRecord}
    (now : Time) (hlease : h.redis.leases.rangeByScore 0 now = [j])
    (hjob : h.redis.jobs j = some record) :
    ∃ k, Prog.Steps (does faults ()) reapTask h
      (.cmd (.redis (.setJob { record with status := .queued })) k) h := by
  simp only [reapTask, reapExpiredLeases, Prog.perform_bind, Prog.cmd_bind]
  apply Exists.intro
  refine .cmd (v := .ok now) rfl ?_
  refine .cmd (v := .ok [j]) ⟨h.redis, ⟨hlease.symm, rfl⟩, rfl⟩ ?_
  exact .cmd (v := .ok (some record)) ⟨h.redis, ⟨hjob.symm, rfl⟩, rfl⟩ .refl

/-- **A completed job is reopened, and its result dropped.** One worker, and no command raises.
The lease of the job expires while it executes, and the round of reaping reads the record before
the execution writes it as completed and writes it back as queued after that. -/
theorem reap_reopens_completed : ∃ ts w,
    Run (Fleet.Step True 3) Recovery.emptyWorker ts w ∧
    (∃ t ∈ ts, t.1.shared.redis.statusOf "job_a" = some .completed ∧
      (t.1.shared.redis.jobs "job_a").bind (·.result) = some "answer" ∧
      ¬ Keeps t.1.shared.redis w.shared.redis) ∧
    w.shared.redis.statusOf "job_a" = some .queued ∧
    (w.shared.redis.jobs "job_a").bind (·.result) = none := by
  -- the worker claims the job and hands it over
  obtain ⟨h, hclaim, hjobs, hleases, hpayloads, -⟩ := Recovery.startJob_steps (w := ()) True 60 0
    (candidate defaultQueuePolicy 0 "job_a" Recovery.oneRecord) _
  obtain ⟨_, hrun, -⟩ := Fleet.run_on (Recovery.run_claimingJob True) ((), .main)
    ((Recovery.steps_claimingJob True).trans hclaim)
  have hrun := hrun.tail (.submit (w := ()) rfl)
  have hjob : h.redis.jobs "job_a" =
      some { Recovery.oneRecord with status := .running, startedAt := some 0 } := by
    rw [hjobs]
    exact Redis.setJob_self ..
  -- it executes up to its `SET`, and a round of reaping gets as far
  obtain ⟨k, hexec⟩ := executeTask_steps True 3 { Recovery.oneRecord with
    status := .running, startedAt := some 0 } "answer" 90 (by rw [hpayloads]; rfl) hjob
  obtain ⟨_, hrun, -⟩ := Fleet.run_on hrun ((), .exec) hexec
  have hrun := hrun.tail (.reap (w := ()) rfl)
  obtain ⟨k', hreap⟩ := reapTask_steps True 100 (j := "job_a")
    (by rw [hleases]; decide +kernel) hjob
  obtain ⟨_, hrun, -⟩ := Fleet.run_on hrun ((), .main) hreap
  -- the execution writes its record, then the reaping its own
  obtain ⟨_, hrun, -⟩ := Fleet.run_on hrun ((), .exec)
    (.cmd (v := .ok ()) ⟨_, rfl, rfl⟩ .refl)
  have hrun := hrun.tail (.command (i := ((), .main)) (.run (v := .ok ()) rfl ⟨_, rfl, rfl⟩))
  refine ⟨_, _, hrun, ⟨_, List.mem_append_right _ List.mem_cons_self, rfl, rfl, ?_⟩, rfl, rfl⟩
  intro hkeeps
  obtain ⟨r, ⟨hr, hterm⟩, hid, -⟩ := hkeeps _ ⟨Redis.setJob_self .., trivial⟩
  rw [hid] at hr
  obtain rfl := Option.some.inj (hr.symm.trans (Redis.setJob_self ..))
  exact hterm

end PolyGate.Automation.Terminal
