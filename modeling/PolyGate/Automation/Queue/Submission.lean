import PolyGate.Lib.RelyGuarantee
import PolyGate.Automation.RedisStore

/-!
# `Automation/Queue/Submission.lean` — concurrent submissions under one Idempotency-Key

Any number of `enqueue` calls with the same key, each Redis command one step, in any order.

`enqueue` reserves the key with `SET NX` and creates the job in a later pipeline. Between the
two, another call finds the pointer set and the job missing — which the recovery branch takes
for a crashed submission, so it points the key at a job of its own. `submission_splits` is that
schedule. The branch is the only way the calls can come apart: `submitted_once` shows that when
every lookup of the existing job finds it, the calls agree on one job, created once.

The argument is rely/guarantee. What a call may assume of the others, and grants them, is
`Moves`: the pointer is set once and stays, only the call that drew the id in the pointer
creates the job, and it creates it once.
-/

namespace PolyGate.Automation.Submission

open Lib

/-! ## The calls' world -/

/-- Redis, and two ghost records: which call drew a job id from `uuid4`, and the ids of the
records the pipelines have created, oldest first. -/
structure Host (ι : Type) where
  redis : Redis
  drawnBy : JobId → Option ι
  created : List JobId

variable {ι : Type}

/-- `uuid4` does not repeat: a new id was never drawn and occurs nowhere in the queue. -/
def Host.Fresh (h : Host ι) (id : JobId) : Prop :=
  h.drawnBy id = none ∧ h.redis.jobs id = none ∧ id ∉ h.redis.pending

/-- `uuid4` answers call `i` with `id`. -/
def Host.draw (h : Host ι) (i : ι) (id : JobId) : Host ι :=
  { h with drawnBy := Function.update h.drawnBy id (some i) }

def createdBy : RedisCmd → List JobId
  | .enqueuePipeline record _ => [record.jobId]
  | _ => []

/-- What a command of call `i` answers and leaves behind. -/
def answers (i : ι) (h : Host ι) : (c : Cmd) → c.Reply → Host ι → Prop
  | .redis c, v, h' => ∃ r', h.redis.Answers c v r' ∧
      h' = { h with redis := r', created := h.created ++ createdBy c }
  | .newJobId, (id : JobId), h' => h.Fresh id ∧ h' = h.draw i id
  | _, _, h' => h' = h

abbrev Calls (ι : Type) := Pool ι (Host ι) Cmd Cmd.Reply PyExc JobRecord

/-- One command of one call. -/
def step [DecidableEq ι] : Calls ι → ι × Cmd → Calls ι → Prop :=
  Pool.Step fun i => .ofAnswers (answers i)

/-- All calls about to start, on a store that does not know the key. -/
def start (redis : Redis) (key : String) (previews : ι → PreviewResponse) : Calls ι where
  shared := { redis := redis, drawnBy := fun _ => none, created := [] }
  threads i := enqueue (previews i) key

/-- The lookup of the job behind the pointer finds it, so the recovery branch is not taken. -/
def LookupFindsJob (w : Calls ι) (l : ι × Cmd) : Prop :=
  ∀ id, l.2 = .redis (.getJob id) → w.shared.redis.jobs id ≠ none

/-- Every call has returned `id`, and the pipelines have created that one record. -/
def SubmittedOnce (w : Calls ι) : Prop :=
  ∃ id, w.shared.created = [id] ∧ id ∈ w.shared.redis.pending ∧
    (∃ r, w.shared.redis.jobs id = some r) ∧
    ∀ i, ∃ r, w.threads i = .ret r ∧ r.jobId = id

/-! ## What the calls keep among themselves -/

/-- The state of the key: no pointer and nothing created; or a pointer to an id without a
record; or a pointer to the one record that was created. -/
structure Consistent (key : String) (h : Host ι) : Prop where
  none_created : h.redis.idempotency key = none → h.created = []
  reserved : ∀ id, h.redis.idempotency key = some id → h.created = [] → h.redis.jobs id = none
  made : ∀ id ∈ h.created, h.redis.idempotency key = some id ∧ h.created = [id] ∧
    id ∈ h.redis.pending ∧ ∃ r, h.redis.jobs id = some r

/-- A pointer whose job is there points to the one record that was created. -/
theorem Consistent.created_of_job {key : String} {h : Host ι} {id : JobId}
    (hc : Consistent key h) (hp : h.redis.idempotency key = some id)
    (hj : h.redis.jobs id ≠ none) : h.created = [id] := by
  have hne : h.created ≠ [] := fun he => hj (hc.reserved id hp he)
  obtain ⟨id', hid'⟩ := List.exists_mem_of_ne_nil _ hne
  obtain ⟨hp', hcr, -⟩ := hc.made id' hid'
  rw [hp] at hp'
  cases hp'
  exact hcr

/-- What call `i` does to the world in one step. -/
structure Moves (key : String) (i : ι) (h h' : Host ι) : Prop where
  consistent : Consistent key h → Consistent key h'
  pointer : ∀ id, h.redis.idempotency key = some id → h'.redis.idempotency key = some id
  drawn : ∀ id j, h.drawnBy id = some j → h'.drawnBy id = some j
  jobs : ∀ id, h.redis.jobs id = none → h'.redis.jobs id = none ∨ h.drawnBy id = some i
  created : h'.created = h.created ∨ h.created = [] ∧ ∃ id, h.drawnBy id = some i ∧
    h.redis.idempotency key = some id ∧ h'.created = [id]

/-- What call `i` relies on while others move. -/
structure Others (key : String) (i : ι) (h h' : Host ι) : Prop where
  consistent : Consistent key h → Consistent key h'
  pointer : ∀ id, h.redis.idempotency key = some id → h'.redis.idempotency key = some id
  drawn : ∀ id, h.drawnBy id = some i → h'.drawnBy id = some i
  mine : ∀ id, h.drawnBy id = some i → h.redis.jobs id = none → h'.redis.jobs id = none
  uncreated : ∀ id, h.drawnBy id = some i → h.redis.idempotency key = some id →
    h.created = [] → h'.created = []
  created : ∀ id, h.created = [id] → h'.created = [id]

theorem Others.refl (key : String) (i : ι) (h : Host ι) : Others key i h h :=
  ⟨id, fun _ => id, fun _ => id, fun _ _ => id, fun _ _ _ => id, fun _ => id⟩

theorem Others.trans (key : String) (i : ι) (a b c : Host ι) (hab : Others key i a b)
    (hbc : Others key i b c) : Others key i a c where
  consistent h := hbc.consistent (hab.consistent h)
  pointer id h := hbc.pointer id (hab.pointer id h)
  drawn id h := hbc.drawn id (hab.drawn id h)
  mine id hd hj := hbc.mine id (hab.drawn id hd) (hab.mine id hd hj)
  uncreated id hd hp hc :=
    hbc.uncreated id (hab.drawn id hd) (hab.pointer id hp) (hab.uncreated id hd hp hc)
  created id h := hbc.created id (hab.created id h)

/-- A step of one call is, for every other call, something it relies on. -/
theorem Moves.others {key : String} (i j : ι) (h h' : Host ι) (hij : i ≠ j)
    (hm : Moves key i h h') : Others key j h h' where
  consistent := hm.consistent
  pointer := hm.pointer
  drawn id hd := hm.drawn id j hd
  mine id hd hn := (hm.jobs id hn).resolve_right fun he => by
    rw [hd] at he
    exact hij (Option.some.inj he).symm
  uncreated id hd hp hc := by
    rcases hm.created with he | ⟨_, id', hd', hp', _⟩
    · exact he.trans hc
    · rw [hp] at hp'
      cases hp'
      rw [hd] at hd'
      exact absurd (Option.some.inj hd').symm hij
  created id hc := by
    rcases hm.created with he | ⟨he, _⟩
    · exact he.trans hc
    · rw [hc] at he
      cases he

/-- A step that leaves the queue as it is. -/
theorem Moves.of_eq {key : String} {i : ι} (h : Host ι) : Moves key i h h :=
  ⟨id, fun _ => id, fun _ _ => id, fun _ => Or.inl, Or.inl rfl⟩

theorem Moves.draw {key : String} {i : ι} {h : Host ι} {id : JobId} (hf : h.Fresh id) :
    Moves key i h (h.draw i id) where
  consistent hc := ⟨hc.none_created, hc.reserved, hc.made⟩
  pointer _ hp := hp
  drawn id' j hd := by
    have hne : id' ≠ id := fun he => by
      subst he
      rw [hf.1] at hd
      cases hd
    simpa [Host.draw, Function.update_of_ne hne] using hd
  jobs _ hn := Or.inl hn
  created := Or.inl rfl

/-! ## One call -/

section Call

variable {key : String} {i : ι}

/-- Redis as the calls see it under the condition that every lookup finds its job. -/
abbrev found (i : ι) : Exec Cmd Cmd.Reply PyExc (Host ι) :=
  .ofAnswers fun h c v h' =>
    (∀ id, c = .redis (.getJob id) → h.redis.jobs id ≠ none) ∧ answers i h c v h'

/-- What a call that has ended leaves: its own record is the one that was created. -/
def Returned (o : Except PyExc JobRecord) (h : Host ι) : Prop :=
  ∃ r, o = .ok r ∧ h.created = [r.jobId]

abbrev CallSafe (key : String) (i : ι) (p : Store JobRecord) (h : Host ι) : Prop :=
  p.Safe (found i) (Others key i) (fun a _ b _ => Moves key i a b) Returned h

/-- The call holds the key: the pointer is the id it drew, and no record is there yet. -/
structure Reserved (key : String) (i : ι) (id : JobId) (h : Host ι) : Prop where
  consistent : Consistent key h
  drawn : h.drawnBy id = some i
  pointer : h.redis.idempotency key = some id
  uncreated : h.created = []

theorem Reserved.others {id : JobId} {h h' : Host ι} (hr : Reserved key i id h)
    (ho : Others key i h h') : Reserved key i id h' where
  consistent := ho.consistent hr.consistent
  drawn := ho.drawn id hr.drawn
  pointer := ho.pointer id hr.pointer
  uncreated := ho.uncreated id hr.drawn hr.pointer hr.uncreated

/-- The pipeline of the call that holds the key creates the one record. -/
theorem Reserved.pipeline {record : JobRecord} {payload : GatewayRequest} {h : Host ι}
    (hr : Reserved key i record.jobId h) :
    Moves key i h { h with
      redis := h.redis.enqueuePipeline record payload
      created := h.created ++ [record.jobId] } where
  consistent _ :=
    { none_created := fun hn => by
        rw [Redis.enqueuePipeline_idempotency, hr.pointer] at hn
        cases hn
      reserved := fun _ _ he => by simp at he
      made := fun id hid => by
        rw [hr.uncreated, List.nil_append, List.mem_singleton] at hid
        subst hid
        refine ⟨hr.pointer, by rw [hr.uncreated]; rfl, ?_, record, ?_⟩
        · exact Finset.mem_insert_self _ _
        · exact h.redis.setJob_self record }
  pointer _ hp := hp
  drawn _ _ hd := hd
  jobs id hn := by
    by_cases he : id = record.jobId
    · exact Or.inr (he ▸ hr.drawn)
    · exact Or.inl (by simpa [Redis.setJob_of_ne _ _ he] using hn)
  created := Or.inr ⟨hr.uncreated, record.jobId, hr.drawn, hr.pointer, by simp [hr.uncreated]⟩

/-- A command that creates nothing and is answered out of an unchanged Redis. -/
theorem quiet {c : RedisCmd} (h : Host ι) (hc : createdBy c = []) :
    { h with redis := h.redis, created := h.created ++ createdBy c } = h := by
  rw [hc, List.append_nil]

theorem enqueueNew_safe {preview : PreviewResponse} {id : JobId} {h : Host ι}
    (hr : Reserved key i id h) : CallSafe key i (enqueueNew preview id) h := by
  unfold enqueueNew
  simp only [Prog.perform_bind, Prog.pure_eq]
  -- `SCARD` and the clock change nothing
  refine Prog.safe_onReply.mpr ?_
  rintro h₁ ho₁ n _ ⟨-, _, ⟨-, rfl⟩, rfl⟩
  rw [quiet h₁ rfl]
  refine ⟨.of_eq _, Prog.safe_onReply.mpr ?_⟩
  rintro h₂ ho₂ t _ ⟨-, rfl⟩
  refine ⟨.of_eq _, Prog.safe_onReply.mpr ?_⟩
  rintro h₃ ho₃ u _ ⟨-, _, rfl, rfl⟩
  have hr₃ : Reserved key i id h₃ := ((hr.others ho₁).others ho₂).others ho₃
  refine ⟨Reserved.pipeline hr₃, fun h₄ ho₄ => ⟨_, rfl, ho₄.created id ?_⟩⟩
  simp [createdBy, hr₃.uncreated, newRecord]

/-- `SET NX` on a free key reserves it for the call that sends it. -/
theorem Moves.reserve {id : JobId} {h : Host ι} (hp : h.redis.idempotency key = none)
    (hn : h.redis.jobs id = none) :
    Moves key i h { h with redis := h.redis.setIdempotency key id } where
  consistent hc :=
    { none_created := fun he => by simp at he
      reserved := fun id' he _ => by
        obtain rfl : id = id' := by simpa using he
        exact hn
      made := fun id' hid' => by
        rw [hc.none_created hp] at hid'
        exact absurd hid' (by simp) }
  pointer _ he := by
    rw [hp] at he
    cases he
  drawn _ _ hd := hd
  jobs _ hj := Or.inl hj
  created := Or.inl rfl

/-- A call that lost the key and finds the job returns it without a step of its own. -/
theorem enqueueExisting_safe {preview : PreviewResponse} {id : JobId} {h : Host ι}
    (hc : Consistent key h) (hp : h.redis.idempotency key = some id) :
    CallSafe key i (enqueueExisting preview key) h := by
  unfold enqueueExisting
  simp only [Prog.perform_bind]
  refine Prog.safe_onReply.mpr ?_
  rintro h₁ ho₁ _ _ ⟨-, _, ⟨rfl, rfl⟩, rfl⟩
  rw [quiet h₁ rfl, ho₁.pointer id hp]
  refine ⟨.of_eq _, ?_⟩
  simp only [getJob, Prog.perform_bind]
  refine Prog.safe_onReply.mpr ?_
  rintro h₂ ho₂ _ _ ⟨hfound, _, ⟨rfl, rfl⟩, rfl⟩
  rw [quiet h₂ rfl]
  refine ⟨.of_eq _, ?_⟩
  have hp₂ := ho₂.pointer id (ho₁.pointer id hp)
  have hcr₂ := (ho₂.consistent (ho₁.consistent hc)).created_of_job hp₂ (hfound id rfl)
  obtain ⟨r, hr⟩ := Option.ne_none_iff_exists'.mp (hfound id rfl)
  rw [hr]
  refine fun h₃ ho₃ => ⟨r, rfl, ho₃.created _ ?_⟩
  rw [h₂.redis.jobs_key id r hr]
  exact hcr₂

theorem enqueue_safe {preview : PreviewResponse} {h : Host ι} (hc : Consistent key h) :
    CallSafe key i (enqueue preview key) h := by
  unfold enqueue
  simp only [Prog.perform_bind]
  refine Prog.safe_onReply.mpr ?_
  rintro h₁ ho₁ id _ ⟨-, hf, rfl⟩
  have hdraw : Moves key i h₁ _ := .draw hf
  refine ⟨hdraw, Prog.safe_onReply.mpr ?_⟩
  rintro h₂ ho₂ created _ ⟨-, r', hans, rfl⟩
  have hc₂ := ho₂.consistent (hdraw.consistent (ho₁.consistent hc))
  have hd₁ : (h₁.draw i id).drawnBy id = some i := Function.update_self ..
  have hd₂ := ho₂.drawn id hd₁
  have hn₂ := ho₂.mine id hd₁ hf.2.1
  rw [show createdBy (.setNxIdempotency key id) = [] from rfl, List.append_nil]
  cases hp : h₂.redis.idempotency key with
  | none =>
    rw [Redis.Answers, hp] at hans
    obtain ⟨rfl, rfl⟩ := hans
    have hres : Moves key i h₂ _ := .reserve hp hn₂
    exact ⟨hres, enqueueNew_safe
      ⟨hres.consistent hc₂, hd₂, Function.update_self .., hc₂.none_created hp⟩⟩
  | some id' =>
    rw [Redis.Answers, hp] at hans
    obtain ⟨rfl, rfl⟩ := hans
    exact ⟨.of_eq _, enqueueExisting_safe hc₂ hp⟩

end Call

/-! ## Any number of calls -/

section Runs

variable {key : String} {w w' : Calls ι}

/-- Every call that is under way is safe, and the key is in one of its three states. -/
structure Inv (key : String) (w : Calls ι) : Prop where
  consistent : Consistent key w.shared
  safe : ∀ i, CallSafe key i (w.threads i) w.shared

theorem Inv.of_start {redis : Redis} {previews : ι → PreviewResponse}
    (hkey : redis.idempotency key = none) : Inv key (start redis key previews) := by
  have hc : Consistent key (start redis key previews).shared :=
    ⟨fun _ => rfl, fun _ he => absurd (hkey.symm.trans he) (by simp),
      fun _ hid => absurd hid (by simp [start])⟩
  exact ⟨hc, fun _ => enqueue_safe hc⟩

/-- A call that has ended returned the one record that was created. -/
theorem Inv.returned (hi : Inv key w) (i : ι) {o : Except PyExc JobRecord}
    (hend : w.threads i = .ofOutcome o) :
    ∃ r, o = .ok r ∧ w.shared.created = [r.jobId] := by
  have h := hi.safe i
  rw [hend] at h
  cases o with
  | ok r => exact h _ (Others.refl key i _)
  | error e => exact h _ (Others.refl key i _)

theorem Inv.created_le (hi : Inv key w) : w.shared.created.length ≤ 1 := by
  rcases List.eq_nil_or_concat w.shared.created with he | ⟨cs, id, he⟩
  · simp [he]
  · have hm : id ∈ w.shared.created := by simp [he]
    rw [(hi.consistent.made id hm).2.1]
    exact le_rfl

variable [DecidableEq ι]

/-- The steps whose lookup finds its job are the steps of the calls as the proofs above see
them. -/
theorem step_found {l : ι × Cmd} :
    Pool.Step (fun i => found i) w l w' ↔ LookupFindsJob w l ∧ step w l w' := by
  constructor
  · intro hst
    cases hst with
    | run next does =>
      obtain ⟨x, rfl, hok, hx⟩ := does
      exact ⟨hok, .run next ⟨x, rfl, hx⟩⟩
  · rintro ⟨hok, hst⟩
    cases hst with
    | run next does =>
      obtain ⟨x, rfl, hx⟩ := does
      exact .run next ⟨x, rfl, hok, hx⟩

/-- **One step.** -/
theorem Inv.of_step {l : ι × Cmd} (hi : Inv key w) (hok : LookupFindsJob w l)
    (hst : step w l w') : Inv key w' := by
  obtain ⟨hm, hsafe⟩ := Pool.safe_step hi.safe (step_found.mpr ⟨hok, hst⟩)
    (fun i => Others.refl key i) (fun i => Others.trans key i)
    (fun i j _ _ _ _ hij hm => hm.others i j _ _ hij)
  exact ⟨hm.consistent hi.consistent, hsafe⟩

theorem Inv.of_run {ts : List (Calls ι × (ι × Cmd) × Calls ι)} (hi : Inv key w)
    (hrun : Run step w ts w') (hok : ∀ t ∈ ts, LookupFindsJob t.1 t.2.1) : Inv key w' :=
  (hrun.restrict hok).invariant hi fun _ _ _ h hs => h.of_step hs.1 hs.2

/-- **Submissions under one key agree when every lookup of the existing job finds it.** On a
store that does not know the key, however the commands of the calls interleave: no call raises,
all that return, return the same job id, at most one job is ever created, and once every call
has returned, that one job is stored and pending. -/
theorem submitted_once {redis : Redis} {previews : ι → PreviewResponse}
    {ts : List (Calls ι × (ι × Cmd) × Calls ι)} (hkey : redis.idempotency key = none)
    (hrun : Run step (start redis key previews) ts w)
    (hok : ∀ t ∈ ts, LookupFindsJob t.1 t.2.1) :
    (∀ i e, w.threads i ≠ .raise e) ∧
    (∀ i j r r', w.threads i = .ret r → w.threads j = .ret r' → r.jobId = r'.jobId) ∧
    w.shared.created.length ≤ 1 ∧
    (Nonempty ι → (∀ i, ∃ o, w.threads i = .ofOutcome o) → SubmittedOnce w) := by
  have hi : Inv key w := (Inv.of_start hkey).of_run hrun hok
  refine ⟨fun i e he => ?_, fun i j r r' hr hr' => ?_, hi.created_le, fun ⟨i⟩ hall => ?_⟩
  · obtain ⟨r, h, -⟩ := hi.returned i (o := .error e) he
    cases h
  · obtain ⟨_, h, hc⟩ := hi.returned i (o := .ok r) hr
    obtain ⟨_, h', hc'⟩ := hi.returned j (o := .ok r') hr'
    cases h
    cases h'
    exact List.head_eq_of_cons_eq (hc.symm.trans hc')
  · have hret : ∀ j, ∃ r, w.threads j = .ret r ∧ w.shared.created = [r.jobId] := fun j => by
      obtain ⟨o, ho⟩ := hall j
      obtain ⟨r, rfl, hc⟩ := hi.returned j ho
      exact ⟨r, ho, hc⟩
    obtain ⟨r, -, hcr⟩ := hret i
    obtain ⟨-, -, hpend, hjob⟩ := hi.consistent.made r.jobId (by simp [hcr])
    refine ⟨r.jobId, hcr, hpend, hjob, fun j => ?_⟩
    obtain ⟨r', hr', hcr'⟩ := hret j
    exact ⟨r', hr', (List.head_eq_of_cons_eq (hcr.symm.trans hcr')).symm⟩

end Runs

/-! ## Two calls -/

section Alone

variable {key : String} {h : Host ι}

/-- What `enqueueNew` leaves when it runs alone at time `t`. -/
def Host.submit (h : Host ι) (preview : PreviewResponse) (id : JobId) (t : Time) : Host ι :=
  { h with
    redis := h.redis.enqueuePipeline (newRecord preview id h.redis.pending.card t)
      preview.gatewayRequest
    created := h.created ++ [id] }

theorem enqueueNew_steps (i : ι) (preview : PreviewResponse) (id : JobId) (t : Time)
    (h : Host ι) :
    Prog.Steps (found i) (enqueueNew preview id) h
      (.ret (newRecord preview id h.redis.pending.card t)) (h.submit preview id t) := by
  simp only [enqueueNew, Prog.perform_bind]
  refine .onReply ⟨by simp, _, ⟨rfl, rfl⟩, rfl⟩ ?_
  rw [quiet h rfl]
  exact .onReply ⟨by simp, rfl⟩ (.onReply (x := ()) ⟨by simp, _, rfl, rfl⟩ .refl)

/-- What a call leaves when its `SET NX` has set the key. -/
def Host.reserve (h : Host ι) (i : ι) (key : String) (id : JobId) : Host ι :=
  { h.draw i id with redis := h.redis.setIdempotency key id }

theorem enqueue_steps_reserve (i : ι) (preview : PreviewResponse) {id : JobId}
    (hkey : h.redis.idempotency key = none) (hf : h.Fresh id) :
    Prog.Steps (found i) (enqueue preview key) h (enqueueNew preview id)
      (h.reserve i key id) := by
  have hans : (h.draw i id).redis.Answers (.setNxIdempotency key id) true
      (h.redis.setIdempotency key id) := by
    simp [Redis.Answers, Host.draw, hkey]
  have hstate : { h.draw i id with
      redis := h.redis.setIdempotency key id
      created := (h.draw i id).created ++ createdBy (.setNxIdempotency key id) } =
        h.reserve i key id := by
    simp [createdBy, Host.reserve]
  simp only [enqueue, Prog.perform_bind]
  refine .onReply ⟨by simp, hf, rfl⟩ (.onReply (x := true) ⟨by simp, _, hans, rfl⟩ ?_)
  rw [hstate]
  exact .refl

theorem enqueue_steps_lose (i : ι) (preview : PreviewResponse) {id id' : JobId}
    (hkey : h.redis.idempotency key = some id') (hf : h.Fresh id) :
    Prog.Steps (found i) (enqueue preview key) h (enqueueExisting preview key)
      (h.draw i id) := by
  have hans : (h.draw i id).redis.Answers (.setNxIdempotency key id) false
      (h.draw i id).redis := by
    simp [Redis.Answers, Host.draw, hkey]
  simp only [enqueue, Prog.perform_bind]
  refine .onReply ⟨by simp, hf, rfl⟩ (.onReply (x := false) ⟨by simp, _, hans, rfl⟩ ?_)
  rw [quiet _ rfl]
  exact .refl

/-- A call on a key whose job is there. -/
theorem enqueueExisting_steps_found (i : ι) (preview : PreviewResponse) {id' : JobId}
    {r : JobRecord}
    (hkey : h.redis.idempotency key = some id') (hjob : h.redis.jobs id' = some r) :
    Prog.Steps (found i) (enqueueExisting preview key) h (.ret r) h := by
  simp only [enqueueExisting, Prog.perform_bind]
  refine .onReply (x := some id') ⟨by simp, _, ⟨hkey.symm, rfl⟩, rfl⟩ ?_
  rw [quiet h rfl]
  simp only [getJob, Prog.perform_bind]
  refine .onReply (x := some r) ⟨?_, _, ⟨hjob.symm, rfl⟩, rfl⟩ ?_
  · rintro _ ⟨⟩
    simp [hjob]
  · rw [quiet h rfl]
    exact .refl

/-- A call on a key whose job is not there yet points the key at a job of its own. -/
theorem enqueueExisting_steps_recover (i : ι) (preview : PreviewResponse) {id' id'' : JobId}
    (hkey : h.redis.idempotency key = some id') (hjob : h.redis.jobs id' = none)
    (hf : h.Fresh id'') :
    Prog.Steps (.ofAnswers (answers i)) (enqueueExisting preview key) h
      (enqueueNew preview id'') (h.reserve i key id'') := by
  simp only [enqueueExisting, Prog.perform_bind]
  refine .onReply (x := some id') ⟨_, ⟨hkey.symm, rfl⟩, rfl⟩ ?_
  rw [quiet h rfl]
  simp only [getJob, Prog.perform_bind]
  refine .onReply (x := none) ⟨_, ⟨hjob.symm, rfl⟩, rfl⟩ ?_
  rw [quiet h rfl]
  refine .onReply ⟨hf, rfl⟩ (.onReply (x := ()) ⟨_, rfl, rfl⟩ ?_)
  simp only [createdBy, List.append_nil]
  exact .refl

end Alone

def onePreview : PreviewResponse := makePreview "prev" .normal 50

/-- Two submissions of one preview under the key `"key"`, on an empty store. -/
def twoCalls : Calls Bool := start .empty "key" fun _ => onePreview

/-- The first call reserves the key for `"job_a"`. -/
def reservedState : Host Bool := twoCalls.shared.reserve true "key" "job_a"

theorem reserve_twoCalls : Prog.Steps (found true) (enqueue onePreview "key") twoCalls.shared
    (enqueueNew onePreview "job_a") reservedState :=
  enqueue_steps_reserve true onePreview rfl ⟨rfl, rfl, by decide⟩

theorem submitted_once_two_calls : ∃ ts w, Run step twoCalls ts w ∧ SubmittedOnce w := by
  have hnil : Run (Pool.Step fun i => found i) twoCalls [] twoCalls := .refl
  obtain ⟨ts, hts⟩ := Pool.run_on hnil true
    (reserve_twoCalls.trans (enqueueNew_steps true onePreview "job_a" 0 reservedState))
  have hagain := (enqueue_steps_lose false onePreview
    (show (reservedState.submit onePreview "job_a" 0).redis.idempotency "key" = some "job_a" from
      rfl)
    (show (reservedState.submit onePreview "job_a" 0).Fresh "job_b" from
      ⟨by decide, by decide, by decide⟩)).trans
        (enqueueExisting_steps_found false onePreview rfl rfl)
  obtain ⟨us, hus⟩ := Pool.run_on hts false hagain
  have hrun : Run step twoCalls us _ := hus.mono fun _ _ _ h => (step_found.mp h).2
  have hok : ∀ t ∈ us, LookupFindsJob t.1 t.2.1 := fun t ht => (step_found.mp (hus.steps t ht)).1
  refine ⟨us, _, hrun, (submitted_once rfl hrun hok).2.2.2 ⟨true⟩ ?_⟩
  rintro (_ | _)
  · exact ⟨.ok _, rfl⟩
  · exact ⟨.ok _, rfl⟩

/-- **Submissions under one key can split.** The first call reserves the key; before its
pipeline runs, the second finds the pointer without a job, takes the recovery branch and returns
a job of its own; then the first creates the job it had reserved. Two jobs are pending, and the
calls return different ids. -/
theorem submission_splits : ∃ ts w r r', Run step twoCalls ts w ∧
    w.threads true = .ret r ∧ r.jobId = "job_a" ∧
    w.threads false = .ret r' ∧ r'.jobId = "job_c" ∧
    w.shared.created = ["job_c", "job_a"] ∧
    w.shared.redis.pending = {"job_a", "job_c"} ∧ ¬ SubmittedOnce w := by
  have hany : ∀ i s c v s', found (ι := Bool) i s c v s' → Exec.ofAnswers (answers i) s c v s' :=
    fun _ _ _ _ _ ⟨x, hv, _, hx⟩ => ⟨x, hv, hx⟩
  have hnil : Run step twoCalls [] twoCalls := .refl
  obtain ⟨ts, hts⟩ := Pool.run_on hnil true (reserve_twoCalls.mono (hany true))
  have hlose := enqueue_steps_lose false onePreview
    (show reservedState.redis.idempotency "key" = some "job_a" from rfl)
    (show reservedState.Fresh "job_b" from ⟨by decide, by decide, by decide⟩)
  have hrecover := enqueueExisting_steps_recover false onePreview
    (show (reservedState.draw false "job_b").redis.idempotency "key" = some "job_a" from rfl) rfl
    (show (reservedState.draw false "job_b").Fresh "job_c" from
      ⟨by decide, by decide, by decide⟩)
  have hcreate := enqueueNew_steps false onePreview "job_c" 0
    ((reservedState.draw false "job_b").reserve false "key" "job_c")
  obtain ⟨us, hus⟩ := Pool.run_on hts false
    (((hlose.mono (hany false)).trans hrecover).trans (hcreate.mono (hany false)))
  obtain ⟨vs, hvs⟩ := Pool.run_on hus true
    ((enqueueNew_steps true onePreview "job_a" 0 _).mono (hany true))
  refine ⟨vs, _, _, _, hvs, rfl, rfl, rfl, rfl, rfl, by decide, ?_⟩
  rintro ⟨id, hid, -⟩
  cases hid

end PolyGate.Automation.Submission
