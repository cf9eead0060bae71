import PolyGate.Automation.Queue.Terminal

/-!
# `Automation/Queue/FirstCome.lean` — of two equal jobs the older one goes first

Whatever the clock says, a job that was created earlier has waited longer, so its bonus is no
smaller, it wins the tie, and it is starved if the other is. A claim therefore does not choose the
younger of two jobs that it has both read as queued (`safe_claimNextJob`). The record that it reads
is not the one that was submitted: it has been written back by claims, by requeueing and by whatever
else happened. But all of these write what they have read with other fields changed
(`safe_thread`), so a job keeps its age.

Times are exact. As a `float`, `waited` no longer tells two jobs a microsecond apart once it has
come to 2^33 seconds; they then tie.
-/

namespace PolyGate.Automation.FirstCome

open Lib

/-! ## The choice -/

section Choice
variable {policy : QueuePolicy}

/-- Who has waited longer gets no smaller bonus. -/
theorem waitingBonus_mono {a b : Time} (h : a ≤ b) :
    waitingBonus a policy ≤ waitingBonus b policy := by
  have hpos : (0 : Time) ≤ policy.waitingBonusIntervalSeconds := Nat.cast_nonneg _
  have hdiv : max 0 a / policy.waitingBonusIntervalSeconds ≤
      max 0 b / policy.waitingBonusIntervalSeconds :=
    div_le_div_of_nonneg_right (max_le_max_left 0 h) hpos
  apply min_le_min_left
  exact Nat.mul_le_mul_left _ (Int.toNat_le_toNat (Rat.floor_monotone hdiv))

/-- The first of two candidates is the older, with the same class and no less priority. -/
structure Before (c₁ c₂ : Candidate) : Prop where
  cls : c₁.priorityClass = c₂.priorityClass
  created : c₁.createdTs < c₂.createdTs
  waited : c₂.waited < c₁.waited
  priority : c₂.effectivePriority ≤ c₁.effectivePriority

/-- Of two jobs with one class and one score the older one stands before the other. -/
theorem before_candidate {r₁ r₂ : JobRecord} {j₁ j₂ : JobId} (now : Time)
    (hcls : r₁.priority.cls = r₂.priority.cls)
    (hscore : r₁.priority.initialScore = r₂.priority.initialScore)
    (holder : r₁.createdAt < r₂.createdAt) :
    Before (candidate policy now j₁ r₁) (candidate policy now j₂ r₂) where
  cls := hcls
  created := holder
  waited := sub_lt_sub_left holder now
  priority := by
    have hbonus : waitingBonus (now - r₂.createdAt) policy ≤
        waitingBonus (now - r₁.createdAt) policy :=
      waitingBonus_mono (sub_le_sub_left holder.le now)
    simp only [candidate, hscore]
    omega

/-- Neither rule chooses the younger one. -/
theorem choose_ne {streak : Nat} {cs : List Candidate} {c₁ c₂ : Candidate} (h₁ : c₁ ∈ cs)
    (hbefore : Before c₁ c₂) : choose policy streak cs ≠ some c₂ := by
  have hpick : pickByPriority cs ≠ some c₂ := by
    intro h
    have hle := List.le_of_mem_argmax h₁ h
    rcases Prod.Lex.toLex_le_toLex.mp hle with hlt | ⟨-, hcreated⟩
    · exact absurd hbefore.priority (not_le.mpr hlt)
    · exact absurd (neg_le_neg_iff.mp hcreated) (not_le.mpr hbefore.created)
  unfold choose
  split
  · split
    · rename_i c hc
      intro he
      obtain rfl := Option.some.inj he
      -- who is starved has an older one of its class starved beside it
      have hin := List.argmax_mem hc
      rw [starved, List.mem_filter, Bool.and_eq_true] at hin
      have hstarved : c₁ ∈ starved policy cs := by
        rw [starved, List.mem_filter, Bool.and_eq_true, hbefore.cls]
        exact ⟨h₁, hin.2.1, decide_eq_true ((of_decide_eq_true hin.2.2).trans hbefore.waited.le)⟩
      exact absurd (List.le_of_mem_argmax hstarved hc) (not_le.mpr hbefore.waited)
    · exact hpick
  · exact hpick

end Choice

/-! ## One call, among any others -/

/-- The same job, as far as its place in the queue goes. -/
structure SameAge (r r' : JobRecord) : Prop where
  createdAt : r'.createdAt = r.createdAt
  priority : r'.priority = r.priority

theorem SameAge.refl (r : JobRecord) : SameAge r r := ⟨rfl, rfl⟩

theorem SameAge.trans {r r' r'' : JobRecord} (h : SameAge r r') (h' : SameAge r' r'') :
    SameAge r r'' :=
  ⟨h'.createdAt.trans h.createdAt, h'.priority.trans h.priority⟩

/-- The job is there, queued, with the age of `r`. -/
def ReadsAs (r : JobRecord) (x : Option JobRecord) : Prop :=
  ∃ r', x = some r' ∧ r'.status = .queued ∧ SameAge r r'

/-- What a call is answered that finds both jobs queued in the pending set; all else is open. -/
def sees (j₁ j₂ : JobId) (r₁ r₂ : JobRecord) : Exec Cmd Cmd.Reply PyExc Unit := fun _ c v _ =>
  match c, v with
  | .redis .smembersPending, .ok (ids : List JobId) => j₁ ∈ ids
  | .redis (.getJob j), .ok (x : Option JobRecord) =>
    (∀ r, x = some r → r.jobId = j) ∧ (j = j₁ → ReadsAs r₁ x) ∧ (j = j₂ → ReadsAs r₂ x)
  | _, _ => True

/-- The program is not about to take `j` out of the pending set. -/
def Leaves {α : Type} (j : JobId) (p : Store α) : Prop :=
  ∀ k, p ≠ .cmd (.redis (.sremPending j)) k

section Call
variable {j₁ j₂ : JobId} {r₁ r₂ : JobRecord}

abbrev SafeCall {α : Type} (j₁ j₂ : JobId) (r₁ r₂ : JobRecord) (post : Except PyExc α → Prop)
    (p : Store α) : Prop :=
  p.Safe (sees j₁ j₂ r₁ r₂) Eq (fun _ p _ _ => Leaves j₂ p) (fun o _ => post o) ()

theorem safeCall_cmd {α : Type} {post : Except PyExc α → Prop} {c : Cmd}
    {k : Except PyExc c.Reply → Store α} (hc : c ≠ .redis (.sremPending j₂))
    (hk : ∀ v, sees j₁ j₂ r₁ r₂ () c v () → SafeCall j₁ j₂ r₁ r₂ post (k v)) :
    SafeCall j₁ j₂ r₁ r₂ post (.cmd c k) := by
  refine Prog.safe_cmd_alone.mpr fun v _ hv => ⟨fun k' he => ?_, hk v hv⟩
  cases he
  exact hc rfl

/-- A command whose failure is passed on. -/
theorem safeCall_onReply {α : Type} {post : Except PyExc α → Prop} {c : Cmd}
    {f : c.Reply → Store α} (hc : c ≠ .redis (.sremPending j₂)) (he : ∀ e, post (.error e))
    (hf : ∀ x, sees j₁ j₂ r₁ r₂ () c (.ok x) () → SafeCall j₁ j₂ r₁ r₂ post (f x)) :
    SafeCall j₁ j₂ r₁ r₂ post (.cmd c (Prog.onReply f)) := by
  refine safeCall_cmd hc fun v hv => ?_
  cases v with
  | ok x => exact hf x hv
  | error e => exact fun _ _ => he e

theorem SafeCall.bind {α β : Type} {mid : Except PyExc α → Prop} {post : Except PyExc β → Prop}
    {p : Store α} {f : α → Store β} (h : SafeCall j₁ j₂ r₁ r₂ mid p)
    (hf : ∀ a, mid (.ok a) → SafeCall j₁ j₂ r₁ r₂ post (f a)) (he : ∀ e, post (.error e)) :
    SafeCall j₁ j₂ r₁ r₂ post (p >>= f) := by
  refine Prog.Safe.bind (fun _ => rfl) (h.weakenGuar fun _ c k _ v hleaves k' heq => ?_)
    (fun a _ ha => hf a ha) fun e _ _ => he e
  cases heq
  exact hleaves _ rfl

/-- What the loop collects: what it read, with the older job among it if that is listed. -/
structure Collected (j₁ j₂ : JobId) (r₁ r₂ : JobRecord) (policy : QueuePolicy) (now : Time)
    (ids : List JobId) (cs : List Candidate) : Prop where
  read : ∀ c ∈ cs, ∃ r, c = candidate policy now r.jobId r ∧ (r.jobId = j₂ → SameAge r₂ r)
  listed : j₁ ∈ ids → ∃ r, candidate policy now j₁ r ∈ cs ∧ SameAge r₁ r

/-- The loop collects the older job, if it stays queued meanwhile. -/
theorem safe_collectCandidates (policy : QueuePolicy) (now : Time) (ids : List JobId) :
    SafeCall j₁ j₂ r₁ r₂ (fun o => ∀ cs, o = .ok cs → Collected j₁ j₂ r₁ r₂ policy now ids cs)
      (collectCandidates policy now ids) := by
  induction ids with
  | nil =>
    intro _ _ cs he
    obtain rfl := Except.ok.inj he
    exact ⟨fun c hc => absurd hc List.not_mem_nil, fun h => absurd h List.not_mem_nil⟩
  | cons j rest ih =>
    simp only [collectCandidates, getJob, Prog.perform_bind]
    refine safeCall_onReply (by simp) (fun e cs h => by cases h) fun x hx => ?_
    obtain ⟨hid, hfirst, hsecond⟩ := hx
    -- a member that is dropped is neither of the two
    have hdrop : ¬ (∃ r, x = some r ∧ r.status = .queued) → SafeCall j₁ j₂ r₁ r₂
        (fun o => ∀ cs, o = .ok cs → Collected j₁ j₂ r₁ r₂ policy now (j :: rest) cs)
        (.cmd (.redis (.sremPending j)) (Prog.onReply fun _ =>
          collectCandidates policy now rest)) := by
      intro hdirty
      have hne : ∀ {i : JobId} {r : JobRecord}, (j = i → ReadsAs r x) → j ≠ i := by
        intro i r h he
        obtain ⟨r', hr', hq, -⟩ := h he
        exact hdirty ⟨r', hr', hq⟩
      refine safeCall_onReply (fun h => ?_) (fun e cs h => by cases h) fun _ _ => ?_
      · cases h
        exact hne hsecond rfl
      · refine Prog.Safe.weaken ih fun o _ h cs ho => ⟨(h cs ho).read, fun hin => ?_⟩
        exact (h cs ho).listed ((List.mem_cons.mp hin).resolve_left (hne hfirst).symm)
    cases x with
    | none => exact hdrop fun h => by obtain ⟨_, h, -⟩ := h; cases h
    | some r =>
      simp only
      by_cases hq : r.status = .queued
      · rw [if_pos hq]
        refine SafeCall.bind ih (fun cs hcs => ?_) fun e cs h => by cases h
        intro _ _ cs' he
        obtain rfl := Except.ok.inj he
        obtain ⟨hread, hlisted⟩ := hcs cs rfl
        obtain rfl : r.jobId = j := hid r rfl
        refine ⟨?_, fun hin => ?_⟩
        · intro c hc
          rcases List.mem_cons.mp hc with rfl | hc
          · refine ⟨r, rfl, fun he => ?_⟩
            obtain ⟨r', hr', -, hage⟩ := hsecond he
            cases hr'
            exact hage
          · exact hread c hc
        · rcases List.mem_cons.mp hin with he | hin
          · obtain ⟨r', hr', -, hage⟩ := hfirst he.symm
            cases hr'
            exact ⟨r, he ▸ List.mem_cons_self, hage⟩
          · obtain ⟨r', hr', hage⟩ := hlisted hin
            exact ⟨r', List.mem_cons_of_mem _ hr', hage⟩
      · rw [if_neg hq]
        refine hdrop fun h => ?_
        obtain ⟨r', hr', hq'⟩ := h
        cases hr'
        exact hq hq'

/-- The job that is started is the one that was chosen. -/
theorem safe_startJob (leaseSeconds : Int) (chosen : Candidate) :
    SafeCall j₁ j₂ r₁ r₂ (fun o => ∀ r, o = .ok r → r.jobId = chosen.record.jobId)
      (startJob leaseSeconds chosen) := by
  have hlease : SafeCall j₁ j₂ r₁ r₂ (fun o => ∀ r, o = .ok r → r.jobId = chosen.record.jobId)
      (leaseJob leaseSeconds chosen) := by
    simp only [leaseJob, saveJob, Prog.perform_bind]
    refine safeCall_onReply (by simp) (fun e r h => by cases h) fun startedAt _ => ?_
    refine safeCall_onReply (by simp) (fun e r h => by cases h) fun _ _ => ?_
    refine safeCall_onReply (by simp) (fun e r h => by cases h) fun now _ => ?_
    refine safeCall_onReply (by simp) (fun e r h => by cases h) fun _ _ => ?_
    intro _ _ r he
    obtain rfl := Except.ok.inj he
    rfl
  simp only [startJob, Prog.perform_bind]
  split
  · exact safeCall_onReply (by simp) (fun e r h => by cases h) fun _ _ => hlease
  · exact safeCall_onReply (by simp) (fun e r h => by cases h) fun _ _ => hlease

/-- **One call.** It neither takes the younger job out of the pending set nor returns it. -/
theorem safe_claimNextJob (leaseSeconds : Int) (queuePolicy : Option QueuePolicy)
    (hcls : r₁.priority.cls = r₂.priority.cls)
    (hscore : r₁.priority.initialScore = r₂.priority.initialScore)
    (holder : r₁.createdAt < r₂.createdAt) :
    SafeCall j₁ j₂ r₁ r₂ (fun o => ∀ job, o = .ok (some job) → job.jobId ≠ j₂)
      (claimNextJob leaseSeconds queuePolicy) := by
  have hnone : SafeCall j₁ j₂ r₁ r₂
      (fun o => ∀ job : JobRecord, o = .ok (some job) → job.jobId ≠ j₂) (.ret none) :=
    fun _ _ job h => by cases h
  simp only [claimNextJob, Prog.perform_bind]
  refine safeCall_onReply (by simp) (fun e job h => by cases h) fun ids hids => ?_
  split
  · exact hnone
  refine safeCall_onReply (by simp) (fun e job h => by cases h) fun now _ => ?_
  refine SafeCall.bind (safe_collectCandidates _ now ids) (fun cs hcs => ?_)
    fun e job h => by cases h
  obtain ⟨hread, hlisted⟩ := hcs cs rfl
  split
  · exact hnone
  refine safeCall_onReply (by simp) (fun e job h => by cases h) fun streak _ => ?_
  split
  · exact hnone
  rename_i chosen hchosen
  obtain ⟨r, rfl, hage⟩ := hread chosen (choose_mem hchosen)
  obtain ⟨r', hin, hage'⟩ := hlisted hids
  -- chosen, it would be the younger of the two that were read
  have hne : r.jobId ≠ j₂ := by
    intro he
    refine choose_ne hin (before_candidate now ?_ ?_ ?_) hchosen
    · rw [hage'.priority, (hage he).priority, hcls]
    · rw [hage'.priority, (hage he).priority, hscore]
    · rw [hage'.createdAt, (hage he).createdAt]
      exact holder
  refine safeCall_onReply (fun h => ?_) (fun e job h => by cases h) fun removed _ => ?_
  · cases h
    exact hne rfl
  split
  · refine SafeCall.bind (safe_startJob leaseSeconds _) (fun record hrecord => ?_)
      fun e job h => by cases h
    intro _ _ job he
    obtain rfl := Option.some.inj (Except.ok.inj he)
    rw [hrecord record rfl]
    exact hne
  · exact hnone

end Call

/-! ## Jobs keep their age -/

/-- Every job that is stored stays stored, with the same age. -/
def Ages (s s' : Redis) : Prop :=
  ∀ j r, s.jobs j = some r → ∃ r', s'.jobs j = some r' ∧ SameAge r r'

theorem Ages.refl (s : Redis) : Ages s s := fun _ r h => ⟨r, h, .refl r⟩

theorem Ages.trans {s s' s'' : Redis} (h : Ages s s') (h' : Ages s' s'') : Ages s s'' := by
  intro j r hr
  obtain ⟨r', hr', hage⟩ := h j r hr
  obtain ⟨r'', hr'', hage'⟩ := h' j r' hr'
  exact ⟨r'', hr'', hage.trans hage'⟩

theorem Ages.of_jobs {s s' : Redis} (h : s'.jobs = s.jobs) : Ages s s' :=
  fun _ r hr => ⟨r, by rw [h]; exact hr, .refl r⟩

/-- The record is stored, but for fields that do not matter here. -/
def Stored (s : Redis) (r : JobRecord) : Prop := ∃ r', s.jobs r.jobId = some r' ∧ SameAge r' r

theorem Stored.mono {s s' : Redis} {r : JobRecord} (h : Stored s r) (hages : Ages s s') :
    Stored s' r := by
  obtain ⟨r', hr', hage⟩ := h
  obtain ⟨r'', hr'', hage'⟩ := hages _ r' hr'
  exact ⟨r'', hr'', ⟨hage.createdAt.trans hage'.createdAt.symm,
    hage.priority.trans hage'.priority.symm⟩⟩

/-- Writing back a record that was read. -/
theorem ages_setJob {s : Redis} {r : JobRecord} (h : Stored s r) : Ages s (s.setJob r) := by
  intro j r₀ hr₀
  obtain ⟨r', hr', hage⟩ := h
  by_cases hj : j = r.jobId
  · subst hj
    rw [hr'] at hr₀
    obtain rfl := Option.some.inj hr₀
    exact ⟨r, s.setJob_self r, hage⟩
  · exact ⟨r₀, (s.setJob_of_ne r hj).trans hr₀, .refl r₀⟩

section Threads
variable {ω : Type} [DecidableEq ω] {w : ω} {h h' : Host ω}

/-- A thread keeps every job's age, beside others that do. -/
abbrev SafeThread {α : Type} (w : ω) (post : Except PyExc α → Redis → Prop) (p : Store α)
    (h : Host ω) : Prop :=
  p.Safe (does True w) (fun h h' => Ages h.redis h'.redis) (fun h _ h' _ => Ages h.redis h'.redis)
    (fun o h => post o h.redis) h

/-- The program has no record in hand. -/
def Tidy {α : Type} (w : ω) (p : Store α) : Prop := ∀ h, SafeThread w (fun _ _ => True) p h

/-- A command that writes a record needs that record to have its age. -/
theorem safeThread_cmd {α : Type} {post : Except PyExc α → Redis → Prop} {c : Cmd}
    {k : Except PyExc c.Reply → Store α}
    (hc : ∀ r, Terminal.written c = some r → Stored h.redis r)
    (hk : ∀ h₁ v h₂, Ages h.redis h₁.redis → does True w h₁ c v h₂ → Ages h₁.redis h₂.redis →
      SafeThread w post (k v) h₂) : SafeThread w post (.cmd c k) h := by
  intro h₁ h₁' v h₂ hdoes
  have hages : Ages h₁.redis h₂.redis := by
    rcases Terminal.does_jobs hdoes with hjobs | ⟨r, hwritten, hjobs⟩
    · exact .of_jobs hjobs
    · exact (ages_setJob ((hc r hwritten).mono h₁')).trans (.of_jobs hjobs)
  exact ⟨hages, hk h₁ v h₂ h₁' hdoes hages⟩

theorem tidy_ret {α : Type} (a : α) : Tidy w (.ret a) := fun _ _ _ => trivial

theorem tidy_raise {α : Type} (e : PyExc) : Tidy w (.raise e : Store α) := fun _ _ _ => trivial

theorem tidy_cmd {α : Type} {c : Cmd} {k : Except PyExc c.Reply → Store α}
    (hc : Terminal.written c = none) (hk : ∀ v, Tidy w (k v)) : Tidy w (.cmd c k) :=
  fun _ => safeThread_cmd (fun r hr => by rw [hc] at hr; cases hr) fun _ v h₂ _ _ _ => hk v h₂

theorem tidy_onReply {ρ α : Type} {f : ρ → Store α} (hf : ∀ x, Tidy w (f x))
    (v : Except PyExc ρ) : Tidy w (Prog.onReply f v) := by
  cases v with
  | ok x => exact hf x
  | error e => exact tidy_raise e

theorem tidy_perform {c : Cmd} (hc : Terminal.written c = none) :
    Tidy w (Prog.perform c : Store c.Reply) :=
  tidy_cmd hc (tidy_onReply fun x => tidy_ret x)

theorem safeThread_bind {α β : Type} {mid : Except PyExc α → Redis → Prop} {p : Store α}
    {f : α → Store β} (hp : SafeThread w mid p h)
    (hf : ∀ a h, mid (.ok a) h.redis → SafeThread w (fun _ _ => True) (f a) h) :
    SafeThread w (fun _ _ => True) (p >>= f) h :=
  Prog.Safe.bind (fun _ => .refl _) hp hf fun _ _ _ => trivial

theorem Tidy.bind {α β : Type} {p : Store α} {f : α → Store β} (hp : Tidy w p)
    (hf : ∀ a, Tidy w (f a)) : Tidy w (p >>= f) :=
  fun h => safeThread_bind (hp h) fun a h _ => hf a h

theorem Tidy.catch {α : Type} {p : Store α} {f : PyExc → Store α} (hp : Tidy w p)
    (hf : ∀ e, Tidy w (f e)) : Tidy w (tryCatch p f) :=
  fun h => (hp h).catch (fun _ => .refl _) (fun e h _ => hf e h) fun _ _ _ => trivial

/-- A record that has just been read is in hand. -/
theorem tidy_getJob {α : Type} {j : JobId} {f : Option JobRecord → Store α}
    (hnone : Tidy w (f none))
    (hsome : ∀ r h, Stored h.redis r → SafeThread w (fun _ _ => True) (f (some r)) h) :
    Tidy w (.cmd (.redis (.getJob j)) (Prog.onReply f)) := by
  intro h
  refine safeThread_cmd (fun r hr => by cases hr) fun h₁ v h₂ _ hdoes _ => ?_
  cases v with
  | error e => exact tidy_raise e h₂
  | ok x =>
    obtain ⟨s, ⟨hx, rfl⟩, rfl⟩ := hdoes
    cases x with
    | none => exact hnone _
    | some r =>
      have hid : r.jobId = j := h₁.redis.jobs_key j r hx.symm
      exact hsome r _ ⟨r, by rw [hid]; exact hx.symm, .refl r⟩

/-- What is stored stays stored, whatever a thread does meanwhile. -/
theorem safeThread_and {α : Type} {post : Except PyExc α → Redis → Prop} {p : Store α}
    {r : JobRecord} (hr : Stored h.redis r) (hp : SafeThread w post p h) :
    SafeThread w (fun o s => Stored s r ∧ post o s) p h := by
  induction p generalizing h with
  | ret a => exact fun h' hages => ⟨hr.mono hages, hp h' hages⟩
  | raise e => exact fun h' hages => ⟨hr.mono hages, hp h' hages⟩
  | cmd c k ih =>
    intro h₁ hages v h₂ hdoes
    obtain ⟨hages', hk⟩ := hp h₁ hages v h₂ hdoes
    exact ⟨hages', ih v ((hr.mono hages).mono hages') hk⟩

/-- With a record in hand: a command that does not write, and raises if it fails. -/
theorem safeThread_onReply {α : Type} {c : Cmd} {f : c.Reply → Store α} {r : JobRecord}
    (hr : Stored h.redis r) (hc : Terminal.written c = none)
    (hf : ∀ x h₂, Stored h₂.redis r → SafeThread w (fun _ _ => True) (f x) h₂) :
    SafeThread w (fun _ _ => True) (.cmd c (Prog.onReply f)) h := by
  refine safeThread_cmd (fun r' hr' => ?_) fun h₁ v h₂ hages _ hages' => ?_
  · rw [hc] at hr'
    cases hr'
  · cases v with
    | ok x => exact hf x h₂ ((hr.mono hages).mono hages')
    | error e => exact tidy_raise e h₂

/-- With a record in hand: it is written back, and nothing is in hand any more. -/
theorem safeThread_write {α : Type} {r : JobRecord} {f : Unit → Store α} (hr : Stored h.redis r)
    (hf : Tidy w (f ())) :
    SafeThread w (fun _ _ => True) (.cmd (.redis (.setJob r)) (Prog.onReply f)) h := by
  refine safeThread_cmd (fun r' hr' => ?_) fun _ v h₂ _ _ _ => tidy_onReply (fun _ => hf) v h₂
  cases hr'
  exact hr

/-! ## The programs of a worker -/

/-- Requeueing rewrites the status only. -/
theorem tidy_requeueJob (j : JobId) : Tidy w (requeueJob j) := by
  simp only [requeueJob, getJob, saveJob, Prog.perform_bind]
  refine tidy_getJob (tidy_ret ()) fun r h hr => ?_
  -- requeueing writes the record with another status, and no new `created_at`
  obtain ⟨r', hr', hage⟩ := hr
  exact safeThread_write ⟨r', hr', hage.trans ⟨rfl, rfl⟩⟩
    (tidy_cmd rfl (tidy_onReply fun _ => tidy_perform rfl))

theorem tidy_requeueAll (ids : List JobId) : Tidy w (requeueAll ids) := by
  induction ids with
  | nil => exact tidy_ret ()
  | cons j rest ih => exact (tidy_requeueJob j).bind fun _ => ih

theorem tidy_reapTask : Tidy w reapTask := by
  refine Tidy.bind (.bind (tidy_perform rfl) fun now => ?_) fun _ => ?_
  · exact .bind (tidy_perform rfl) fun ids => (tidy_requeueAll ids).bind fun _ => tidy_ret ids
  · exact .bind (tidy_perform rfl) fun _ => .bind (tidy_perform rfl) fun _ => tidy_ret none

/-- Finishing sets the status, the end and the result. -/
theorem tidy_finishJob {finish : JobRecord → Time → JobRecord}
    (hid : ∀ r t, (finish r t).jobId = r.jobId) (hage : ∀ r t, SameAge r (finish r t)) (j : JobId) :
    Tidy w (finishJob j finish) := by
  simp only [finishJob, getJob, saveJob, clearExecutionPayload, Prog.perform_bind]
  refine tidy_getJob (tidy_ret ()) fun r h hr => ?_
  -- the clock is read with the record in hand
  refine safeThread_onReply hr rfl fun t h₂ hr => ?_
  refine safeThread_write ?_ (tidy_cmd rfl (tidy_onReply fun _ => tidy_perform rfl))
  obtain ⟨r', hr', hsame⟩ := hr
  exact ⟨r', by rw [hid]; exact hr', hsame.trans (hage r t)⟩

theorem tidy_completeJob (j : JobId) (result : JsonText) : Tidy w (completeJob j result) := by
  unfold completeJob
  refine tidy_finishJob ?_ ?_ j
  · exact fun _ _ => rfl
  · exact fun _ _ => ⟨rfl, rfl⟩

theorem tidy_failJob (j : JobId) (error : String) : Tidy w (failJob j error) := by
  unfold failJob
  refine tidy_finishJob ?_ ?_ j
  · exact fun _ _ => rfl
  · exact fun _ _ => ⟨rfl, rfl⟩

theorem tidy_attemptJob (j : JobId) : Tidy w (attemptJob j) := by
  refine .bind (tidy_perform rfl) fun payload => ?_
  cases payload with
  | none => exact tidy_raise _
  | some payload =>
    refine .bind (tidy_perform rfl) fun resp => .bind ?_ fun _ => .bind ?_ fun _ => ?_
    · unfold Response.raiseForStatus
      split
      · exact tidy_ret ()
      · exact tidy_raise _
    · unfold Response.parse
      split
      · exact tidy_ret _
      · exact tidy_raise _
    · exact tidy_completeJob j _

theorem tidy_handleFailure (maxRetries : Int) (j : JobId) (exc : PyExc) :
    Tidy w (handleFailure maxRetries j exc) := by
  refine .bind (tidy_perform rfl) fun retries => ?_
  split
  · exact .bind (tidy_perform rfl) fun _ => tidy_requeueJob j
  · exact tidy_failJob j _

theorem tidy_executeTask (maxRetries : Int) (job : JobRecord) :
    Tidy w (executeTask maxRetries job) :=
  .bind (.catch (tidy_attemptJob _) (tidy_handleFailure maxRetries _)) fun _ => tidy_ret none

/-- The candidates are jobs that are stored. -/
theorem safeThread_collect (policy : QueuePolicy) (now : Time) (ids : List JobId) (h : Host ω) :
    SafeThread w (fun o s => ∀ cs, o = .ok cs → ∀ c ∈ cs, Stored s c.record)
      (collectCandidates policy now ids) h := by
  induction ids generalizing h with
  | nil =>
    intro _ _ cs he c hc
    cases he
    exact absurd hc List.not_mem_nil
  | cons j rest ih =>
    simp only [collectCandidates, getJob, Prog.perform_bind]
    have hdrop : ∀ h, SafeThread w (fun o s => ∀ cs, o = .ok cs → ∀ c ∈ cs, Stored s c.record)
        (.cmd (.redis (.sremPending j)) (Prog.onReply fun _ =>
          collectCandidates policy now rest)) h := by
      intro h
      refine safeThread_cmd (fun r hr => by cases hr) fun _ v h₂ _ _ _ => ?_
      cases v with
      | ok x => exact ih h₂
      | error e => exact fun _ _ cs he => by cases he
    refine safeThread_cmd (fun r hr => by cases hr) fun h₁ v h₂ _ hdoes _ => ?_
    cases v with
    | error e => exact fun _ _ cs he => by cases he
    | ok x =>
    obtain ⟨s, ⟨hx, rfl⟩, rfl⟩ := hdoes
    cases x with
    | none => exact hdrop _
    | some r =>
    rw [Prog.onReply_ok]
    simp only
    split
    · have hr : Stored h₁.redis r := by
        have hid : r.jobId = j := h₁.redis.jobs_key j r hx.symm
        exact ⟨r, by rw [hid]; exact hx.symm, .refl r⟩
      -- the rely of the loop carries the record that was read first
      have hrest : SafeThread w (fun o s => Stored s r ∧
          ∀ cs, o = .ok cs → ∀ c ∈ cs, Stored s c.record) (collectCandidates policy now rest)
          { h₁ with redis := h₁.redis } :=
        safeThread_and hr (ih _)
      refine Prog.Safe.bind (fun _ => .refl _) hrest (fun cs h hcs => ?_) fun e _ _ cs he => by
        cases he
      intro h' hages cs' he c hc
      cases he
      rcases List.mem_cons.mp hc with rfl | hc
      · exact hcs.1.mono hages
      · exact (hcs.2 cs rfl c hc).mono hages
    · exact hdrop _

theorem safeThread_startJob (leaseSeconds : Int) {chosen : Candidate}
    (hr : Stored h.redis chosen.record) :
    SafeThread w (fun _ _ => True) (startJob leaseSeconds chosen) h := by
  have hlease : ∀ h, Stored h.redis chosen.record →
      SafeThread w (fun _ _ => True) (leaseJob leaseSeconds chosen) h := by
    intro h hr
    simp only [leaseJob, saveJob, Prog.perform_bind]
    refine safeThread_onReply hr rfl fun startedAt h₂ hr => ?_
    obtain ⟨r', hr', hage⟩ := hr
    refine safeThread_write ⟨r', hr', hage.trans ⟨rfl, rfl⟩⟩ ?_
    exact tidy_cmd rfl (tidy_onReply fun _ => tidy_cmd rfl (tidy_onReply fun _ => tidy_ret _))
  simp only [startJob, Prog.perform_bind]
  split
  · exact safeThread_onReply hr rfl fun _ => hlease
  · exact safeThread_onReply hr rfl fun _ => hlease

/-- A claim writes the record it has read. -/
theorem tidy_claimTask (leaseSeconds : Int) (queuePolicy : Option QueuePolicy) :
    Tidy w (claimTask leaseSeconds queuePolicy) := by
  refine .bind (tidy_perform rfl) fun ids => ?_
  split
  · exact tidy_ret none
  refine .bind (tidy_perform rfl) fun now h => ?_
  refine safeThread_bind (safeThread_collect _ now ids h) fun cs h hcs => ?_
  split
  · exact tidy_ret none h
  rw [Prog.perform_bind]
  refine safeThread_cmd (fun r hr => by cases hr) fun h₁ v h₂ hages _ hages' => ?_
  cases v with
  | error e => exact tidy_raise e h₂
  | ok streak =>
  rw [Prog.onReply_ok]
  split
  · exact tidy_ret none h₂
  rename_i chosen hchosen
  have hr := ((hcs cs rfl chosen (choose_mem hchosen)).mono hages).mono hages'
  simp only [Prog.perform_bind]
  refine safeThread_onReply hr rfl fun removed h hr => ?_
  split
  · exact safeThread_bind (safeThread_startJob leaseSeconds hr) fun record h _ => tidy_ret _ h
  · exact tidy_ret none h

end Threads

/-! ## Any number of workers -/

section Fleet
variable {ω : Type} [DecidableEq ω] {maxRetries : Int} {a b c : Fleet ω}

/-- Every thread keeps every job's age. -/
def Inv (a : Fleet ω) : Prop := ∀ i, SafeThread i.1 (fun _ _ => True) (a.threads i) a.shared

theorem inv_start (redis : Redis) : Inv (Fleet.start redis : Fleet ω) :=
  fun _ => tidy_ret none _

/-- A thread may be given any task that is tidy. -/
theorem Inv.assign {i : ω × Role} {p : Task} (hi : Inv a) (hp : Tidy i.1 p) :
    Inv (a.assign i p) := by
  intro i'
  unfold Fleet.assign
  rcases eq_or_ne i' i with rfl | hne
  · dsimp only
    rw [Function.update_self]
    exact hp _
  · dsimp only
    rw [Function.update_of_ne hne]
    exact hi i'

/-- A change from outside that keeps the ages. -/
theorem Inv.outside {shared : Host ω} (hi : Inv a) (hages : Ages a.shared.redis shared.redis) :
    Inv { a with shared := shared } :=
  fun i => (hi i).stable (fun _ _ _ => Ages.trans) hages

/-- One step of any worker. -/
theorem Inv.step {l : Label ω} (hi : Inv a) (hst : Fleet.Step True maxRetries a l b) :
    Inv b ∧ Ages a.shared.redis b.shared.redis := by
  cases hst with
  | command runs =>
    obtain ⟨hages, hi'⟩ := Pool.safe_step hi runs (fun _ _ => .refl _)
      (fun _ _ _ _ => Ages.trans) fun _ _ _ _ _ _ _ h => h
    exact ⟨hi', hages⟩
  | reap main => exact ⟨hi.assign tidy_reapTask, .refl _⟩
  | claim main exec leaseSeconds queuePolicy =>
    exact ⟨hi.assign (tidy_claimTask leaseSeconds queuePolicy), .refl _⟩
  | submit main =>
    exact ⟨(hi.assign (tidy_ret none)).assign (tidy_executeTask maxRetries _), .refl _⟩
  | @restart w =>
    have hidle := (hi.assign (i := (w, .main)) (tidy_ret none)).assign (i := (w, .exec))
      (tidy_ret none)
    exact ⟨hidle.outside (.refl _), .refl _⟩
  | @enqueue preview id n t nojob nopending =>
    have hages : Ages a.shared.redis
        (a.enqueued (newRecord preview id n t) preview.gatewayRequest).shared.redis := by
      intro j r hr
      refine ⟨r, (Redis.setJob_of_ne _ _ fun he => ?_).trans hr, .refl r⟩
      obtain rfl : j = id := he
      rw [nojob] at hr
      cases hr
    exact ⟨hi.outside hages, hages⟩

/-- Every run. -/
theorem Inv.run {ts : List (Fleet ω × Label ω × Fleet ω)} (hi : Inv a)
    (hrun : Run (Fleet.Step True maxRetries) a ts b) :
    Inv b ∧ Ages a.shared.redis b.shared.redis := by
  refine hrun.invariant (I := fun b => Inv b ∧ Ages a.shared.redis b.shared.redis)
    ⟨hi, .refl _⟩ ?_
  intro b₁ l b₂ hb hst
  obtain ⟨hi', hages⟩ := hb.1.step hst
  exact ⟨hi', hb.2.trans hages⟩

/-- The commands by which a call looks at the queue. -/
def Looks : Cmd → Prop
  | .redis .smembersPending | .redis (.getJob _) => True
  | _ => False

/-- The main thread of `w` goes on with what it is doing. -/
def GoesOn (w : ω) : Label ω → Prop
  | .reap w' | .claim w' | .submit w' | .restart w' => w' ≠ w
  | .command .. | .enqueue _ => True

/-- The job is queued in the pending set. -/
def QueuedIn (s : Redis) (j : JobId) : Prop := j ∈ s.pending ∧ s.statusOf j = some .queued

/-- Nothing else touches the program of a main thread. -/
theorem threads_of_goesOn {w : ω} {l : Label ω} (hst : Fleet.Step True maxRetries a l b)
    (hgoes : GoesOn w l) (hother : ∀ cmd, l ≠ .command (w, .main) cmd) :
    b.threads (w, .main) = a.threads (w, .main) := by
  have hne : ∀ {w' : ω} {role : Role}, w' ≠ w → ((w, .main) : ω × Role) ≠ (w', role) :=
    fun h he => h (congrArg Prod.fst he).symm
  cases hst with
  | @command i cmd _ runs => exact runs.frame fun he => hother cmd (by rw [he])
  | reap => exact Function.update_of_ne (hne hgoes) ..
  | claim => exact Function.update_of_ne (hne hgoes) ..
  | submit =>
    exact (Function.update_of_ne (hne hgoes) ..).trans (Function.update_of_ne (hne hgoes) ..)
  | restart =>
    exact (Function.update_of_ne (hne hgoes) ..).trans (Function.update_of_ne (hne hgoes) ..)
  | enqueue => rfl

section Claim
variable {w : ω} {j₁ j₂ : JobId} {r₁ r₂ : JobRecord}

/-- What a reader sees of a queued job has its age. -/
theorem readsAs_of_queued {s : Redis} {j : JobId} {r : JobRecord}
    (hstored : ∃ r', s.jobs j = some r' ∧ SameAge r r') (hq : QueuedIn s j) :
    ReadsAs r (s.jobs j) := by
  obtain ⟨r', hr', hage⟩ := hstored
  refine ⟨r', hr', ?_, hage⟩
  have hstatus := hq.2
  rw [Redis.statusOf, hr'] at hstatus
  exact Option.some.inj hstatus

/-- What a thread of a fleet is answered, while both jobs are queued and have kept their age. -/
theorem sees_of_does {h h' : Host ω} {cmd : Cmd} {v : Except PyExc cmd.Reply}
    (h₁ : ∃ r, h.redis.jobs j₁ = some r ∧ SameAge r₁ r)
    (h₂ : ∃ r, h.redis.jobs j₂ = some r ∧ SameAge r₂ r)
    (hqueued : Looks cmd → QueuedIn h.redis j₁ ∧ QueuedIn h.redis j₂)
    (hdoes : does True w h cmd v h') : sees j₁ j₂ r₁ r₂ () cmd v () := by
  cases v with
  | error e =>
    cases cmd with
    | redis cmd => cases cmd <;> trivial
    | _ => trivial
  | ok x =>
    cases cmd with
    | redis cmd =>
      obtain ⟨s, hanswers, rfl⟩ := hdoes
      cases cmd with
      | smembersPending =>
        obtain ⟨⟨-, hids⟩, -⟩ := hanswers
        show j₁ ∈ (x : List JobId)
        rw [← List.mem_toFinset, hids]
        exact (hqueued trivial).1.1
      | getJob j =>
        obtain ⟨hx, -⟩ := hanswers
        refine ⟨fun r hr => h.redis.jobs_key j r (hx ▸ hr), fun he => ?_, fun he => ?_⟩
        · subst he
          exact hx ▸ readsAs_of_queued h₁ (hqueued trivial).1
        · subst he
          exact hx ▸ readsAs_of_queued h₂ (hqueued trivial).2
      | _ => trivial
    | _ => trivial

/-- **First come, first served among equals.** Two jobs of one class and one initial score, one
created before the other; whatever happens to them and to any others (claims, failures,
requeueing, workers that die), a later call of `claim_next_job` that finds both queued in the
pending set whenever it looks, at whatever time, under whatever policy and with whatever streak,
does not take the younger one. -/
theorem younger_not_claimed {redis : Redis} {ts₀ ts us : List (Fleet ω × Label ω × Fleet ω)}
    {leaseSeconds : Int} {queuePolicy : Option QueuePolicy}
    (hreach : Run (Fleet.Step True maxRetries) (Fleet.start redis) ts₀ a)
    (h₁ : a.shared.redis.jobs j₁ = some r₁) (h₂ : a.shared.redis.jobs j₂ = some r₂)
    (hcls : r₁.priority.cls = r₂.priority.cls)
    (hscore : r₁.priority.initialScore = r₂.priority.initialScore)
    (holder : r₁.createdAt < r₂.createdAt)
    (hlater : Run (Fleet.Step True maxRetries) a ts b)
    (hcall : b.threads (w, .main) = claimTask leaseSeconds queuePolicy)
    (hrun : Run (Fleet.Step True maxRetries) b us c)
    (hgoes : ∀ t ∈ us, GoesOn w t.2.1)
    (hqueued : ∀ t ∈ us, ∀ cmd, t.2.1 = .command (w, .main) cmd → Looks cmd →
      QueuedIn t.1.shared.redis j₁ ∧ QueuedIn t.1.shared.redis j₂) :
    (∀ t ∈ us, t.2.1 ≠ .command (w, .main) (.redis (.sremPending j₂))) ∧
      ∀ job, c.threads (w, .main) = .ret (some job) → job.jobId ≠ j₂ := by
  have hb := ((inv_start redis).run hreach).1.run hlater
  have hres := hrun.restrict (P := fun x l => GoesOn w l ∧
    ∀ cmd, l = .command (w, .main) cmd → Looks cmd →
      QueuedIn x.shared.redis j₁ ∧ QueuedIn x.shared.redis j₂)
    fun t ht => ⟨hgoes t ht, hqueued t ht⟩
  -- over the steps of the call: the records keep their age, and the rest of the call is safe
  have heach := hres.each
    (I := fun x => (Inv x ∧ Ages a.shared.redis x.shared.redis) ∧ SafeCall j₁ j₂ r₁ r₂
      (fun o => ∀ job, o = .ok (some job) → job.jobId ≠ j₂) (x.threads (w, .main)))
    (P := fun _ l _ => l ≠ .command (w, .main) (.redis (.sremPending j₂))) ⟨hb, ?_⟩ ?_
  · refine ⟨heach.1, fun job hjob => ?_⟩
    have hsafe := heach.2.2
    rw [hjob] at hsafe
    exact hsafe () rfl job rfl
  · rw [hcall]
    exact safe_claimNextJob leaseSeconds queuePolicy hcls hscore holder
  · intro x l y hi hst
    obtain ⟨⟨hinv, hages⟩, hsafe⟩ := hi
    obtain ⟨⟨hgoes, hqueued⟩, hst⟩ := hst
    obtain ⟨hinv', hages'⟩ := hinv.step hst
    suffices hgoal : l ≠ .command (w, .main) (.redis (.sremPending j₂)) ∧
        SafeCall j₁ j₂ r₁ r₂ (fun o => ∀ job, o = .ok (some job) → job.jobId ≠ j₂)
          (y.threads (w, .main)) from ⟨hgoal.1, ⟨hinv', hages.trans hages'⟩, hgoal.2⟩
    -- a command of the call itself, or a step of somebody else
    by_cases hown : ∃ cmd, l = .command (w, .main) cmd
    · obtain ⟨cmd, rfl⟩ := hown
      cases hst with
      | command runs =>
      cases runs with
      | @run _ _ k v s next hdoes =>
      rw [next] at hsafe
      have hsees := sees_of_does (hages j₁ r₁ h₁) (hages j₂ r₂ h₂) (hqueued cmd rfl) hdoes
      obtain ⟨hleaves, hk⟩ := Prog.safe_cmd_alone.mp hsafe v () hsees
      refine ⟨fun he => ?_, ?_⟩
      · cases he
        exact hleaves k rfl
      · dsimp only
        rw [Function.update_self]
        exact hk
    · refine ⟨fun he => hown ⟨_, he⟩, ?_⟩
      rw [threads_of_goesOn hst hgoes fun cmd he => hown ⟨cmd, he⟩]
      exact hsafe

end Claim

end Fleet

/-! ## Two jobs -/

section Example

/-- A job queued a second after `Recovery.oneRecord`, of the same class and score. -/
def youngerRecord : JobRecord := newRecord (makePreview "prev" .normal 50) "job_b" 1 1

theorem choose_older : choose defaultQueuePolicy 0
    [candidate defaultQueuePolicy (-5) "job_b" youngerRecord,
      candidate defaultQueuePolicy (-5) "job_a" Recovery.oneRecord] =
    some (candidate defaultQueuePolicy (-5) "job_a" Recovery.oneRecord) := by decide +kernel

/-- The store with `job_a` queued, and then `job_b`. -/
def twoJobs : Redis :=
  ((Redis.empty.enqueuePipeline Recovery.oneRecord
    (makePreview "prev" .normal 50).gatewayRequest).enqueuePipeline youngerRecord
    (makePreview "prev" .normal 50).gatewayRequest)

/-- Both are queued if the command looks. -/
def BothQueued (h : Host Unit) (c : Cmd) : Prop :=
  Looks c → QueuedIn h.redis "job_a" ∧ QueuedIn h.redis "job_b"

/-- Two jobs that wait. -/
theorem queuedIn_twoJobs : QueuedIn twoJobs "job_a" ∧ QueuedIn twoJobs "job_b" :=
  ⟨⟨by decide, rfl⟩, by decide, rfl⟩

def claimedJob : JobRecord :=
  { Recovery.oneRecord with status := .running, startedAt := some (-5) }

def afterClaim : Redis :=
  { twoJobs.setJob claimedJob with
    pending := twoJobs.pending.erase "job_a"
    streak := some 0
    leases := twoJobs.leases.add "job_a" (-5 + (60 : Int)) }

/-- A claim of the older one, command by command. -/
theorem steps_twoJobs : Prog.Steps ((does True ()).within fun h c _ => BothQueued h c)
    (claimTask 60 none)
    (Fleet.start twoJobs : Fleet Unit).shared (.ret (some claimedJob))
    { (Fleet.start twoJobs : Fleet Unit).shared with redis := afterClaim } := by
  simp only [claimTask, claimNextJob, Prog.perform_bind]
  refine .cmd (v := .ok ["job_b", "job_a"]) ⟨fun _ => queuedIn_twoJobs, _,
    ⟨⟨by decide, rfl⟩, rfl⟩, rfl⟩ ?_
  refine .cmd (v := .ok (-5)) ⟨fun h => h.elim, rfl⟩ ?_
  simp only [Prog.onReply_ok, collectCandidates, getJob, Prog.perform_bind, Prog.cmd_bind]
  refine .cmd (v := .ok (some youngerRecord)) ⟨fun _ => queuedIn_twoJobs, _, ⟨rfl, rfl⟩, rfl⟩ ?_
  refine .cmd (v := .ok (some Recovery.oneRecord))
    ⟨fun _ => queuedIn_twoJobs, _, ⟨rfl, rfl⟩, rfl⟩ ?_
  refine .cmd (v := .ok none) ⟨fun h => h.elim, _, ⟨rfl, rfl⟩, rfl⟩ ?_
  rw [Prog.onReply_ok]
  simp only [Option.getD_none, choose_older]
  refine .cmd (v := .ok true) ⟨fun h => h.elim, _, ⟨by decide, rfl⟩, rfl⟩ ?_
  refine .cmd (v := .ok ()) ⟨fun h => h.elim, _, rfl, rfl⟩ ?_
  refine .cmd (v := .ok (-5)) ⟨fun h => h.elim, rfl⟩ ?_
  refine .cmd (v := .ok ()) ⟨fun h => h.elim, _, rfl, rfl⟩ ?_
  refine .cmd (v := .ok (-5)) ⟨fun h => h.elim, rfl⟩ ?_
  refine .cmd (v := .ok ()) ⟨fun h => h.elim, _, rfl, rfl⟩ ?_
  exact .refl

/-- A claim, with a clock behind both jobs and the younger one listed first, returns the older. -/
theorem younger_not_claimed_twoJobs : ∃ (us : List (Fleet Unit × Label Unit × Fleet Unit))
    (c : Fleet Unit), Run (Fleet.Step True 3)
      ((Fleet.start twoJobs).assign ((), .main) (claimTask 60 none)) us c ∧
    c.threads ((), .main) = .ret (some claimedJob) ∧
    (∀ t ∈ us, t.2.1 ≠ .command ((), .main) (.redis (.sremPending "job_b"))) ∧
    claimedJob.jobId ≠ "job_b" := by
  obtain ⟨vs, hvs, -⟩ := @Pool.schedule _ _ _ _ _ _ _
    (fun i : Unit × Role => (does True i.1).within fun h c _ => BothQueued h c) ((), .main) _ _ _ _
    (((Fleet.start twoJobs).assign ((), .main) (claimTask 60 none)).threads) rfl steps_twoJobs
  obtain ⟨hrun, hlooks⟩ := Pool.run_within hvs
  have hus : Run (Fleet.Step True 3) _ _ _ := Fleet.run_commands hrun
  have hclaim : Run (Fleet.Step True 3) (Fleet.start twoJobs : Fleet Unit) _ _ :=
    .tail .refl (.claim (w := ()) rfl ⟨.ok none, rfl⟩ 60 none)
  have hgoes : ∀ t ∈ vs.map fun t => (t.1, Label.command t.2.1.1 t.2.1.2, t.2.2),
      GoesOn () t.2.1 := by
    intro t ht
    obtain ⟨u, -, rfl⟩ := List.mem_map.mp ht
    trivial
  have hqueued : ∀ t ∈ vs.map fun t => (t.1, Label.command t.2.1.1 t.2.1.2, t.2.2), ∀ cmd,
      t.2.1 = .command ((), .main) cmd → Looks cmd →
      QueuedIn t.1.shared.redis "job_a" ∧ QueuedIn t.1.shared.redis "job_b" := by
    intro t ht cmd hcmd
    obtain ⟨u, hu, rfl⟩ := List.mem_map.mp ht
    obtain ⟨-, rfl⟩ := Label.command.inj hcmd
    exact hlooks u hu
  have hlaw := younger_not_claimed .refl
    (show (Fleet.start twoJobs : Fleet Unit).shared.redis.jobs "job_a" = some Recovery.oneRecord
      from rfl)
    (show (Fleet.start twoJobs : Fleet Unit).shared.redis.jobs "job_b" = some youngerRecord
      from rfl)
    rfl rfl (by decide +kernel) hclaim rfl hus hgoes hqueued
  have hreturned := Function.update_self (β := fun _ => Task) (((), .main) : Unit × Role)
    (.ret (some claimedJob)) ((Fleet.start twoJobs).assign ((), .main) (claimTask 60 none)).threads
  exact ⟨_, _, hus, hreturned, hlaw.1, hlaw.2 claimedJob hreturned⟩

end Example

end PolyGate.Automation.FirstCome
