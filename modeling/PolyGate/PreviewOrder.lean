import PolyGate.Lib.StableSort
import PolyGate.CaseIds
import PolyGate.Automation.CompilePreview
import PolyGate.Automation.Queue.Sequential

/-!
# `PreviewOrder.lean` — the order that a preview shows, and the one the queue has

The preview of a draft sorts its cases by the score under the draft, and the sort is stable. The
Worker takes, again and again, the highest priority and of equals the oldest job. As long as nobody
has waited for a bonus or been starved, a priority is a score, and the two orders are one
(`preview_order`).
-/

namespace PolyGate.PreviewOrder

open Lib
open Automation
open Automation.Sequential (Runs runs_redis runs_now runs_newJobId runs_bind runs_ret)
open CaseIds (content_of_emits map_afterScore nodup_caseId)
open PolicyPreview (previewPriority score sortedByScore)

/-! ## The jobs that wait -/

/-- The more important job first, of equals the older one. -/
def Before (a b : JobRecord) : Prop :=
  b.priority.initialScore < a.priority.initialScore ∨
    a.priority.initialScore = b.priority.initialScore ∧ a.createdAt < b.createdAt

theorem Before.asymm {a b : JobRecord} (h : Before a b) : ¬ Before b a := by
  rintro (h' | ⟨h', hage'⟩)
  · rcases h with h | ⟨h, -⟩
    · exact lt_asymm h h'
    · exact h'.ne h
  · rcases h with h | ⟨-, hage⟩
    · exact h.ne h'
    · exact lt_asymm hage hage'

/-- Just these jobs are pending, each as it was made. -/
structure Waiting (w : World) (jobs : List JobRecord) : Prop where
  nodup : (jobs.map (·.jobId)).Nodup
  pending : w.redis.pending = (jobs.map (·.jobId)).toFinset
  stored : ∀ job ∈ jobs, w.redis.jobs job.jobId = some job
  queued : ∀ job ∈ jobs, job.status = .queued

theorem waiting_nil {w : World} (h : w.redis.pending = ∅) : Waiting w [] :=
  ⟨.nil, h, fun _ hjob => absurd hjob List.not_mem_nil, fun _ hjob => absurd hjob List.not_mem_nil⟩

/-! ## Submitting -/

/-- `enqueue`, one preview after another, each with its idempotency key. -/
def enqueueAll : List (PreviewResponse × String) → Store (List JobRecord)
  | [] => return []
  | (preview, idempotencyKey) :: rest => do
    let record ← enqueue preview idempotencyKey
    let records ← enqueueAll rest
    return record :: records

/-- The world after a preview was enqueued at a time. -/
def enqueuedAt (w : World) (preview : PreviewResponse) (key : String) (id : JobId) (t : Time) :
    World :=
  ⟨(w.redis.setIdempotency key id).enqueuePipeline (newRecord preview id w.redis.pending.card t)
    preview.gatewayRequest, t⟩

section Submitting

variable {w w' : World} {jobs : List JobRecord} {preview : PreviewResponse} {key : String}
  {record : JobRecord}

/-- Under a new key there is a new job. -/
theorem submits_of_unused (hkey : w.redis.idempotency key = none)
    (h : Runs (enqueue preview key) w record w') :
    ∃ id t, Sequential.Submits preview key w record w' id t := by
  simp only [enqueue, Prog.perform_bind] at h
  obtain ⟨id, hid, h⟩ := runs_newJobId.mp h
  obtain ⟨created, r, hr, h⟩ := runs_redis.mp h
  simp only [Redis.Answers, hkey] at hr
  obtain ⟨rfl, rfl⟩ := hr
  rw [if_pos rfl] at h
  obtain ⟨t, ht, hrecord, rfl⟩ := Sequential.enqueueNew_runs h
  exact ⟨id, t, hid, ht, hrecord, rfl⟩

theorem Waiting.submitted (h : Waiting w jobs) {id : JobId} {t : Time}
    (hsubmits : Sequential.Submits preview key w record w' id t) :
    Waiting w' (jobs ++ [record]) ∧ record.priority = preview.priority := by
  obtain ⟨⟨hnojob, hnot⟩, -, rfl, rfl⟩ := hsubmits
  rw [h.pending, List.mem_toFinset] at hnot
  refine ⟨⟨?_, ?_, ?_, ?_⟩, rfl⟩
  · rw [List.map_append]
    exact List.nodup_append'.mpr ⟨h.nodup, List.nodup_singleton _,
      List.disjoint_singleton.mpr hnot⟩
  · rw [List.map_append, List.toFinset_append]
    show insert id w.redis.pending = _
    rw [h.pending, Finset.insert_eq, Finset.union_comm]
    rfl
  · intro job hjob
    rcases List.mem_append.mp hjob with hjob | hjob
    · have hne : job.jobId ≠ id := fun heq => hnot (heq ▸ List.mem_map_of_mem hjob)
      exact (Redis.setJob_of_ne _ _ hne).trans (h.stored job hjob)
    · rw [List.mem_singleton.mp hjob]
      exact Redis.setJob_self ..
  · intro job hjob
    rcases List.mem_append.mp hjob with hjob | hjob
    · exact h.queued job hjob
    · rw [List.mem_singleton.mp hjob]
      rfl

/-- Under a new key there can be a new job at any time. -/
theorem runs_enqueue_at {id : JobId} {t : Time} (hid : Sequential.Fresh w.redis id)
    (hkey : w.redis.idempotency key = none) (ht : w.clock ≤ t) :
    Runs (enqueue preview key) w (newRecord preview id w.redis.pending.card t)
      (enqueuedAt w preview key id t) := by
  simp only [enqueue, Prog.perform_bind]
  refine runs_newJobId.mpr ⟨id, hid, runs_redis.mpr ⟨true, w.redis.setIdempotency key id, ?_, ?_⟩⟩
  · simp only [Redis.Answers, hkey, and_self]
  · rw [if_pos rfl]
    simp only [enqueueNew, Prog.perform_bind]
    exact runs_redis.mpr ⟨w.redis.pending.card, _, ⟨rfl, rfl⟩, runs_now.mpr ⟨t, ht,
      runs_redis.mpr ⟨(), _, rfl, runs_ret.mpr ⟨rfl, rfl⟩⟩⟩⟩

theorem runs_enqueueAll_cons {rest : List (PreviewResponse × String)} {records : List JobRecord}
    {w₁ : World} (henqueue : Runs (enqueue preview key) w record w₁)
    (hrest : Runs (enqueueAll rest) w₁ records w') :
    Runs (enqueueAll ((preview, key) :: rest)) w (record :: records) w' :=
  runs_bind.mpr ⟨record, w₁, henqueue, runs_bind.mpr ⟨records, w', hrest, runs_ret.mpr ⟨rfl, rfl⟩⟩⟩

/-- All the previews are enqueued, in their order and with their priorities. -/
theorem Waiting.enqueueAll (h : Waiting w jobs) {submissions : List (PreviewResponse × String)}
    (hkeys : (submissions.map (·.2)).Nodup)
    (hunused : ∀ key ∈ submissions.map (·.2), w.redis.idempotency key = none)
    {records : List JobRecord} (hrun : Runs (enqueueAll submissions) w records w') :
    Waiting w' (jobs ++ records) ∧
      records.map (·.priority) = submissions.map (·.1.priority) := by
  induction submissions generalizing w jobs records with
  | nil =>
    obtain ⟨rfl, rfl⟩ := runs_ret.mp hrun
    rw [List.append_nil]
    exact ⟨h, rfl⟩
  | cons submission submissions ih =>
    obtain ⟨preview, key⟩ := submission
    obtain ⟨hfirst, hkeys⟩ := List.nodup_cons.mp hkeys
    obtain ⟨hkey, hunused⟩ := List.forall_mem_cons.mp hunused
    obtain ⟨record, w₁, henqueue, hrun⟩ := runs_bind.mp hrun
    obtain ⟨records, w₂, hrest, hrun⟩ := runs_bind.mp hrun
    obtain ⟨rfl, rfl⟩ := runs_ret.mp hrun
    obtain ⟨id, t, hsubmits⟩ := submits_of_unused hkey henqueue
    obtain ⟨hwaiting, hpriority⟩ := h.submitted hsubmits
    have hunused' : ∀ key' ∈ submissions.map (·.2), w₁.redis.idempotency key' = none := by
      intro key' hkey'
      have hne : key' ≠ key := fun heq => hfirst (heq ▸ hkey')
      rw [hsubmits.world_eq]
      show Function.update w.redis.idempotency key _ key' = none
      rw [Function.update_of_ne hne]
      exact hunused key' hkey'
    obtain ⟨hall, hpriorities⟩ := ih hwaiting hkeys hunused' hrest
    rw [List.append_cons]
    exact ⟨hall, congrArg₂ List.cons hpriority hpriorities⟩

end Submitting

/-! ## Claiming -/

/-- `claim_next_job` until there is no job, and each time before any of the jobs has waited for a
bonus or for being starved. -/
inductive Drains (policy : QueuePolicy) (leaseSeconds : Int) (jobs : List JobRecord) :
    World → List JobRecord → World → Prop
  | none {w w' : World} (claims : Runs (claimNextJob leaseSeconds (some policy)) w none w') :
      Drains policy leaseSeconds jobs w [] w'
  | some {w w₁ w' : World} {record : JobRecord} {records : List JobRecord}
      (claims : Runs (claimNextJob leaseSeconds (some policy)) w (some record) w₁)
      (early : ∀ job ∈ jobs, w₁.clock - job.createdAt < policy.waitingBonusIntervalSeconds ∧
        w₁.clock - job.createdAt < policy.starvationWaitSeconds)
      (rest : Drains policy leaseSeconds jobs w₁ records w') :
      Drains policy leaseSeconds jobs w (record :: records) w'

section Claiming

variable {policy : QueuePolicy} {leaseSeconds : Int} {jobs : List JobRecord} {w w' : World}

/-- No bonus for less than an interval. -/
theorem waitingBonus_eq_zero {waited : Time} (h : waited < policy.waitingBonusIntervalSeconds) :
    waitingBonus waited policy = 0 := by
  have hpos : (0 : ℚ) < policy.waitingBonusIntervalSeconds :=
    Nat.cast_pos.mpr policy.interval_bounds.1
  have hlt : max 0 waited / policy.waitingBonusIntervalSeconds < 1 :=
    (div_lt_one hpos).mpr (max_lt hpos h)
  have hnonneg : 0 ≤ max 0 waited / policy.waitingBonusIntervalSeconds :=
    div_nonneg (le_max_left _ _) hpos.le
  have hfloor : (max 0 waited / policy.waitingBonusIntervalSeconds).floor = 0 :=
    Int.floor_eq_zero_iff.mpr ⟨hnonneg, hlt⟩
  unfold waitingBonus
  rw [hfloor]
  simp

/-- Without starvation, the ordinary rule. -/
theorem choose_eq_pickByPriority {streak : Nat} {cs : List Candidate}
    (h : ∀ c ∈ cs, c.waited < policy.starvationWaitSeconds) :
    choose policy streak cs = pickByPriority cs := by
  have hstarved : starved policy cs = [] := by
    refine List.filter_eq_nil_iff.mpr fun c hc => ?_
    simp [h c hc]
  unfold choose
  rw [hstarved]
  split <;> rfl

/-- The candidates are the waiting jobs. -/
theorem Waiting.mem_candidates (h : Waiting w jobs) {ids : List JobId}
    (hids : ids.toFinset = w.redis.pending) (policy : QueuePolicy) (now : Time) {c : Candidate} :
    c ∈ Sequential.candidates policy now w.redis ids ↔
      ∃ job ∈ jobs, c = candidate policy now job.jobId job := by
  have hmem (id : JobId) : id ∈ ids ↔ ∃ job ∈ jobs, job.jobId = id := by
    rw [← List.mem_toFinset, hids, h.pending, List.mem_toFinset, List.mem_map]
  rw [Sequential.mem_candidates]
  constructor
  · rintro ⟨id, record, hid, hrecord, -, rfl⟩
    obtain ⟨job, hjob, rfl⟩ := (hmem id).mp hid
    obtain rfl := Option.some.inj ((h.stored job hjob).symm.trans hrecord)
    exact ⟨job, hjob, rfl⟩
  · rintro ⟨job, hjob, rfl⟩
    exact ⟨job.jobId, job, (hmem _).mpr ⟨job, hjob, rfl⟩, h.stored job hjob, h.queued job hjob, rfl⟩

theorem Waiting.nodup_jobs (h : Waiting w jobs) : jobs.Nodup := h.nodup.of_map

theorem Waiting.eq_of_jobId (h : Waiting w jobs) {a b : JobRecord} (ha : a ∈ jobs) (hb : b ∈ jobs)
    (heq : a.jobId = b.jobId) : a = b := List.inj_on_of_nodup_map h.nodup ha hb heq

/-- A claimed job leaves the others waiting. -/
theorem Waiting.erase (h : Waiting w jobs) {job : JobRecord} (hjob : job ∈ jobs)
    {now startedAt expires : Time} (hw' : w'.redis =
      Sequential.claimed w.redis (candidate policy now job.jobId job) startedAt expires) :
    Waiting w' (jobs.erase job) := by
  refine ⟨h.nodup.sublist (List.erase_sublist.map _), ?_, ?_, ?_⟩
  · rw [hw']
    show w.redis.pending.erase job.jobId = _
    rw [h.pending]
    ext id
    rw [Finset.mem_erase, List.mem_toFinset, List.mem_toFinset, List.mem_map, List.mem_map]
    constructor
    · rintro ⟨hne, other, hother, rfl⟩
      refine ⟨other, (h.nodup_jobs.mem_erase_iff).mpr ⟨?_, hother⟩, rfl⟩
      rintro rfl
      exact hne rfl
    · rintro ⟨other, hother, rfl⟩
      obtain ⟨hne, hother⟩ := h.nodup_jobs.mem_erase_iff.mp hother
      exact ⟨fun heq => hne (h.eq_of_jobId hother hjob heq), other, hother, rfl⟩
  · intro other hother
    obtain ⟨hne, hother⟩ := h.nodup_jobs.mem_erase_iff.mp hother
    rw [hw', Sequential.claimed_jobs_of_ne]
    · exact h.stored other hother
    · exact fun heq => hne (h.eq_of_jobId hother hjob heq)
  · exact fun other hother => h.queued other (List.mem_of_mem_erase hother)

/-- **One claim.** Nobody claims a job before one that goes before it. -/
theorem Waiting.claimed (h : Waiting w jobs) {record : JobRecord}
    (hrun : Runs (claimNextJob leaseSeconds (some policy)) w (some record) w')
    (hearly : ∀ job ∈ jobs, w'.clock - job.createdAt < policy.waitingBonusIntervalSeconds ∧
      w'.clock - job.createdAt < policy.starvationWaitSeconds)
    (hage : ∀ a ∈ jobs, ∀ b ∈ jobs, a.createdAt = b.createdAt → a = b) :
    ∃ job ∈ jobs, record.jobId = job.jobId ∧ (∀ other ∈ jobs, other ≠ job → Before job other) ∧
      Waiting w' (jobs.erase job) := by
  rcases Sequential.claimNextJob_runs hrun with
    ⟨_, _, hnone, -⟩ | ⟨record, ids, now, chosen, heq, hclaims⟩
  · cases hnone
  cases heq
  have hchosen := hclaims.chosen_eq
  -- nobody has waited long enough for a bonus or against starvation
  have hwaited (job : JobRecord) (hjob : job ∈ jobs) :
      now - job.createdAt < policy.waitingBonusIntervalSeconds ∧
        now - job.createdAt < policy.starvationWaitSeconds := by
    have hle := sub_le_sub_right hclaims.now_bounds.2 job.createdAt
    exact ⟨hle.trans_lt (hearly job hjob).1, hle.trans_lt (hearly job hjob).2⟩
  rw [choose_eq_pickByPriority fun c hc => ?_] at hchosen
  · obtain ⟨job, hjob, rfl⟩ :=
      (h.mem_candidates hclaims.ids_eq policy now).mp (pickByPriority_mem hchosen)
    obtain ⟨startedAt, leasedAt, rfl, hredis⟩ := hclaims.redis_eq
    refine ⟨job, hjob, rfl, fun other hother hne => ?_, ?_⟩
    · have hcandidate := (h.mem_candidates hclaims.ids_eq policy now).mpr
        ⟨other, hother, rfl⟩
      have hkey := List.le_of_mem_argmax hcandidate hchosen
      have hpriority (job : JobRecord) (hjob : job ∈ jobs) :
          (candidate policy now job.jobId job).effectivePriority = job.priority.initialScore := by
        show job.priority.initialScore +
          ((waitingBonus (now - job.createdAt) policy : Nat) : Int) = _
        rw [waitingBonus_eq_zero (hwaited job hjob).1, Nat.cast_zero, add_zero]
      -- the score decides, then the age
      rcases Prod.Lex.toLex_le_toLex.mp hkey with hlt | ⟨hsame, hcreated⟩
      · rw [hpriority other hother, hpriority job hjob] at hlt
        exact Or.inl hlt
      · rw [hpriority other hother, hpriority job hjob] at hsame
        refine Or.inr ⟨hsame.symm, lt_of_le_of_ne (neg_le_neg_iff.mp hcreated) fun heq => ?_⟩
        exact hne (hage other hother job hjob heq.symm)
    · have hqueued : ∀ id ∈ w.redis.pending, Sequential.Queued w.redis id := by
        intro id hid
        rw [h.pending, List.mem_toFinset] at hid
        obtain ⟨other, hother, rfl⟩ := List.mem_map.mp hid
        exact Sequential.queued_iff.mpr ⟨other, h.stored other hother, h.queued other hother⟩
      rw [Sequential.cleaned_of_queued ids hqueued] at hredis
      exact h.erase hjob hredis
  · obtain ⟨job, hjob, rfl⟩ := (h.mem_candidates hclaims.ids_eq policy now).mp hc
    exact (hwaited job hjob).2

/-- The jobs are claimed in their order. -/
theorem Drains.ordered {waiting claimed : List JobRecord}
    (hdrains : Drains policy leaseSeconds jobs w claimed w') (h : Waiting w waiting)
    (hsub : waiting ⊆ jobs) (hage : ∀ a ∈ jobs, ∀ b ∈ jobs, a.createdAt = b.createdAt → a = b) :
    ∃ ordered : List JobRecord, ordered.Perm waiting ∧ ordered.Pairwise Before ∧
      claimed.map (·.jobId) = ordered.map (·.jobId) := by
  induction hdrains generalizing waiting with
  | none claims =>
    rcases Sequential.claimNextJob_runs claims with ⟨_, _, -, -, -, hnone, -⟩ | ⟨_, _, _, _, heq, -⟩
    · refine ⟨[], ?_, .nil, rfl⟩
      cases waiting with
      | nil => exact .nil
      | cons job waiting =>
        refine absurd ?_ (hnone job.jobId ?_)
        · exact Sequential.queued_iff.mpr
            ⟨job, h.stored job List.mem_cons_self, h.queued job List.mem_cons_self⟩
        · rw [h.pending, List.mem_toFinset]
          exact List.mem_cons_self
    · cases heq
  | some claims early rest ih =>
    obtain ⟨job, hjob, hid, hbefore, hwaiting⟩ := h.claimed claims
      (fun job hjob => early job (hsub hjob)) fun a ha b hb => hage a (hsub ha) b (hsub hb)
    obtain ⟨ordered, hperm, hpairwise, hids⟩ :=
      ih hwaiting fun other hother => hsub (List.mem_of_mem_erase hother)
    refine ⟨job :: ordered, ?_, List.pairwise_cons.mpr ⟨fun other hother => ?_, hpairwise⟩, ?_⟩
    · exact (hperm.cons job).trans (List.perm_cons_erase hjob).symm
    · obtain ⟨hne, hother⟩ := h.nodup_jobs.mem_erase_iff.mp (hperm.mem_iff.mp hother)
      exact hbefore other hother hne
    · rw [List.map_cons, List.map_cons, hid, hids]

/-- Where jobs wait, one can be claimed at once. -/
theorem Waiting.runs_claim (h : Waiting w jobs) (hne : jobs ≠ []) :
    ∃ record w', Runs (claimNextJob leaseSeconds (some policy)) w (some record) w' ∧
      w'.clock = w.clock := by
  have hids : (jobs.map (·.jobId)).toFinset = w.redis.pending := h.pending.symm
  obtain ⟨job, hjob⟩ := List.exists_mem_of_ne_nil jobs hne
  have hcandidates : Sequential.candidates policy w.clock w.redis (jobs.map (·.jobId)) ≠ [] :=
    List.ne_nil_of_mem ((h.mem_candidates hids policy w.clock).mpr ⟨job, hjob, rfl⟩)
  obtain ⟨chosen, hchosen⟩ := Option.ne_none_iff_exists'.mp
    (@Sequential.choose_isSome policy (w.redis.streak.getD 0) _ hcandidates)
  exact ⟨_, _, Sequential.runs_claimNextJob policy leaseSeconds h.nodup hids hchosen, rfl⟩

/-- Jobs that are young can all be claimed at once. -/
theorem Waiting.drains {waiting : List JobRecord} (h : Waiting w waiting) (hsub : waiting ⊆ jobs)
    (hearly : ∀ job ∈ jobs, w.clock - job.createdAt < policy.waitingBonusIntervalSeconds ∧
      w.clock - job.createdAt < policy.starvationWaitSeconds)
    (hage : ∀ a ∈ jobs, ∀ b ∈ jobs, a.createdAt = b.createdAt → a = b) :
    ∃ claimed w', Drains policy leaseSeconds jobs w claimed w' := by
  generalize hn : waiting.length = n
  induction n generalizing w waiting with
  | zero =>
    obtain rfl := List.length_eq_zero_iff.mp hn
    exact ⟨[], w, .none (Sequential.runs_claimNextJob_empty policy leaseSeconds h.pending)⟩
  | succ n ih =>
    have hne : waiting ≠ [] := List.ne_nil_of_length_eq_add_one hn
    obtain ⟨record, w₁, hclaim, hclock⟩ := h.runs_claim hne
    rw [← hclock] at hearly
    obtain ⟨job, hjob, -, -, hwaiting⟩ := h.claimed hclaim (fun job hjob => hearly job (hsub hjob))
      fun a ha b hb => hage a (hsub ha) b (hsub hb)
    obtain ⟨claimed, w', hdrains⟩ := ih hwaiting
      (fun other hother => hsub (List.mem_of_mem_erase hother)) hearly
      (by rw [List.length_erase_of_mem hjob, hn]; rfl)
    exact ⟨record :: claimed, w', .some hclaim hearly hdrains⟩

end Claiming

/-! ## The preview -/

section Preview

variable (draft active : PolicyDraft) (intents : List AutomationIntent)

/-- `after_order` -/
def afterOrder : List String :=
  (sortedByScore (·.afterScore) (previewPriority draft intents active)).map (·.caseId)

end Preview

/-! ## The two orders -/

/-- An intent that is compiled and submitted. -/
structure Submission where
  intent : AutomationIntent
  previewId : String
  idempotencyKey : String

def Submission.compiled (version : PolicyVersion) (s : Submission) : PreviewResponse × String :=
  (compilePreview s.intent version s.previewId, s.idempotencyKey)

/-- Sorted by the score, the jobs come as they are claimed. -/
theorem sorted_eq {priority : List PolicyPreview.PrioritySimulation}
    {records ordered : List JobRecord}
    (hlength : priority.length = records.length)
    (hscore : records.map (·.priority.initialScore) = priority.map fun s => (s.afterScore : Int))
    (hincreasing : records.Pairwise fun a b => a.createdAt < b.createdAt)
    (hperm : ordered.Perm records) (hordered : ordered.Pairwise Before) :
    ∃ pairs : List (PolicyPreview.PrioritySimulation × JobRecord),
      pairs.Perm (priority.zip records) ∧ pairs.map (·.1) = sortedByScore (·.afterScore) priority ∧
      pairs.map (·.2) = ordered := by
  -- both lists, sorted together by the score
  let le (a b : PolicyPreview.PrioritySimulation × JobRecord) : Bool :=
    decide (b.1.afterScore ≤ a.1.afterScore)
  have hfst : (priority.zip records).map (·.1) = priority := List.map_fst_zip hlength.le
  have hsnd : (priority.zip records).map (·.2) = records := List.map_snd_zip hlength.ge
  have hscores : ∀ p ∈ priority.zip records,
      p.2.priority.initialScore = (p.1.afterScore : Int) := by
    intro p hp
    obtain ⟨i, hi, rfl⟩ := List.mem_iff_getElem.mp hp
    have hlt : i < records.length := by
      rw [List.length_zip] at hi
      exact hi.trans_le (min_le_right _ _)
    have hget := List.getElem_of_eq hscore (by rwa [List.length_map])
    simpa using hget
  have hperm' : ((priority.zip records).mergeSort le).Perm (priority.zip records) :=
    List.mergeSort_perm _ _
  refine ⟨(priority.zip records).mergeSort le, hperm', ?_, ?_⟩
  · rw [List.map_mergeSort (s := fun a b : PolicyPreview.PrioritySimulation =>
      decide (b.afterScore ≤ a.afterScore)) fun _ _ _ _ => rfl, hfst]
    rfl
  · have hsorted : ((priority.zip records).mergeSort le).Pairwise fun a b =>
        le a b = true ∧ (le b a = true → a.2.createdAt < b.2.createdAt) := by
      refine pairwise_mergeSort_stable (fun a b c hab hbc => ?_) (fun a b => ?_) ?_
      · exact decide_eq_true ((of_decide_eq_true hbc).trans (of_decide_eq_true hab))
      · simp [le, Nat.le_total]
      · rw [← hsnd] at hincreasing
        exact (List.pairwise_map (R := fun a b : JobRecord => a.createdAt < b.createdAt)).mp
          hincreasing
    have hpairwise : (((priority.zip records).mergeSort le).map (·.2)).Pairwise Before := by
      refine List.pairwise_map.mpr (hsorted.imp_of_mem fun {a b} ha hb hab => ?_)
      have hsa := hscores a (hperm'.mem_iff.mp ha)
      have hsb := hscores b (hperm'.mem_iff.mp hb)
      have hle : b.1.afterScore ≤ a.1.afterScore := of_decide_eq_true hab.1
      rw [Before, hsa, hsb, Nat.cast_lt, Nat.cast_inj]
      rcases Nat.lt_or_eq_of_le hle with hlt | heq
      · exact Or.inl hlt
      · exact Or.inr ⟨heq.symm, hab.2 (decide_eq_true heq.ge)⟩
    have hperm'' := hperm'.map (·.2)
    rw [hsnd] at hperm''
    refine (hperm''.trans hperm.symm).eq_of_pairwise (fun a b _ _ hab hba => ?_) hpairwise hordered
    exact absurd hba hab.asymm

/-- Where an entry and its job stand. -/
theorem position_eq {priority : List PolicyPreview.PrioritySimulation} {records : List JobRecord}
    (hcases : (priority.map (·.caseId)).Nodup) (hjobs : (records.map (·.jobId)).Nodup)
    {p : PolicyPreview.PrioritySimulation × JobRecord} (hp : p ∈ priority.zip records) :
    (records.map (·.jobId)).idxOf p.2.jobId = (priority.map (·.caseId)).idxOf p.1.caseId := by
  obtain ⟨i, hi, rfl⟩ := List.mem_iff_getElem.mp hp
  rw [List.length_zip, lt_min_iff] at hi
  have hjob : i < (records.map (·.jobId)).length := by rw [List.length_map]; exact hi.2
  have hcase : i < (priority.map (·.caseId)).length := by rw [List.length_map]; exact hi.1
  have hleft := hjobs.idxOf_getElem i hjob
  have hright := hcases.idxOf_getElem i hcase
  rw [List.getElem_map] at hleft hright
  rw [List.getElem_zip, hleft, hright]

/-- **The preview's order is the Worker's.** Each job has the score that was shown for its case, and
read as positions, the claimed jobs are the cases in `after_order`. -/
theorem preview_order (version : PolicyVersion) (active : PolicyDraft)
    (submissions : List Submission) (leaseSeconds : Int) {w w₁ w₂ : World}
    {records claimed : List JobRecord} (hempty : w.redis.pending = ∅)
    (hkeys : (submissions.map (·.idempotencyKey)).Nodup)
    (hunused : ∀ key ∈ submissions.map (·.idempotencyKey), w.redis.idempotency key = none)
    (henqueue : Runs (enqueueAll (submissions.map (·.compiled version))) w records w₁)
    (hincreasing : records.Pairwise fun a b => a.createdAt < b.createdAt)
    (hdrain : Drains version.policy.automation.queue leaseSeconds records w₁ claimed w₂) :
    let priority := previewPriority version.policy (submissions.map (·.intent)) active
    (∀ record ∈ records, w₁.redis.jobs record.jobId = some record) ∧
    records.map (·.priority.initialScore) = priority.map (fun s => (s.afterScore : Int)) ∧
    (records.map (·.jobId)).Nodup ∧ (priority.map (·.caseId)).Nodup ∧
    claimed.map (fun job => (records.map (·.jobId)).idxOf job.jobId) =
      (afterOrder version.policy active (submissions.map (·.intent))).map
        fun id => (priority.map (·.caseId)).idxOf id := by
  intro priority
  have hmap : (submissions.map (·.compiled version)).map (·.2) =
      submissions.map (·.idempotencyKey) := List.map_map
  rw [← hmap] at hkeys hunused
  obtain ⟨hwaiting, hpriorities⟩ := (waiting_nil hempty).enqueueAll hkeys hunused henqueue
  rw [List.nil_append] at hwaiting
  have hscore : records.map (·.priority.initialScore) =
      priority.map fun s => (s.afterScore : Int) := by
    have hleft := congrArg (List.map (·.initialScore)) hpriorities
    have hright := congrArg (List.map (fun n : Nat => (n : Int)))
      (map_afterScore version.policy active (submissions.map (·.intent)))
    rw [List.map_map, List.map_map, List.map_map] at hleft hright
    refine hleft.trans (Eq.trans ?_ hright.symm)
    refine List.map_congr_left fun s _ => ?_
    show (compilePreview s.intent version s.previewId).priority.initialScore = _
    rw [compilePreview_priority, prioritize_score]
    rfl
  have hcases : (priority.map (·.caseId)).Nodup := nodup_caseId ..
  have hlength : priority.length = records.length := by
    rw [← List.length_map (f := fun s : PolicyPreview.PrioritySimulation => (s.afterScore : Int)),
      ← hscore, List.length_map]
  have hage : ∀ a ∈ records, ∀ b ∈ records, a.createdAt = b.createdAt → a = b := fun a ha b hb =>
    List.inj_on_of_nodup_map ((List.pairwise_map.mpr hincreasing).imp ne_of_lt) ha hb
  obtain ⟨ordered, hperm, hordered, hids⟩ :=
    hdrain.ordered hwaiting (List.Subset.refl _) hage
  obtain ⟨pairs, hpairs, hfst, hsnd⟩ := sorted_eq hlength hscore hincreasing hperm hordered
  refine ⟨hwaiting.stored, hscore, hwaiting.nodup, hcases, ?_⟩
  -- both sides are the positions of the sorted pairs
  have hclaimed : claimed.map (fun job => (records.map (·.jobId)).idxOf job.jobId) =
      pairs.map fun p => (records.map (·.jobId)).idxOf p.2.jobId := by
    have hmap := congrArg (List.map fun id => (records.map (·.jobId)).idxOf id) hids
    rw [List.map_map, List.map_map, ← hsnd, List.map_map] at hmap
    exact hmap
  have hshown : (afterOrder version.policy active (submissions.map (·.intent))).map
      (fun id => (priority.map (·.caseId)).idxOf id) =
      pairs.map fun p => (priority.map (·.caseId)).idxOf p.1.caseId := by
    rw [afterOrder, ← hfst, List.map_map, List.map_map]
    rfl
  rw [hclaimed, hshown]
  exact List.map_congr_left fun p hp => position_eq hcases hwaiting.nodup (hpairs.mem_iff.mp hp)

/-- An intent that can wait. -/
def calm : Submission := ⟨(makePreview "preview_a" .normal 70).normalizedIntent, "preview_a", "a"⟩

/-- An intent that cannot. -/
def pressing : Submission :=
  ⟨(makePreview "preview_b" .critical 140).normalizedIntent, "preview_b", "b"⟩

def calmJob : JobRecord := newRecord (calm.compiled seedRecord).1 "job_a" 0 0

def pressingJob : JobRecord := newRecord (pressing.compiled seedRecord).1 "job_b" 1 1

theorem enqueueAll_two : ∃ w, Runs (enqueueAll ([calm, pressing].map (·.compiled seedRecord)))
    ⟨.empty, 0⟩ [calmJob, pressingJob] w ∧ w.clock = 1 := by
  have hfirst : Runs (enqueue (calm.compiled seedRecord).1 "a") ⟨.empty, 0⟩ calmJob
      (enqueuedAt ⟨.empty, 0⟩ (calm.compiled seedRecord).1 "a" "job_a" 0) :=
    runs_enqueue_at ⟨rfl, Finset.notMem_empty _⟩ rfl le_rfl
  have hne : "job_b" ≠ "job_a" := by decide
  have hkey : "b" ≠ "a" := by decide
  have hsecond : Runs (enqueue (pressing.compiled seedRecord).1 "b")
      (enqueuedAt ⟨.empty, 0⟩ (calm.compiled seedRecord).1 "a" "job_a" 0) pressingJob
      (enqueuedAt (enqueuedAt ⟨.empty, 0⟩ (calm.compiled seedRecord).1 "a" "job_a" 0)
        (pressing.compiled seedRecord).1 "b" "job_b" 1) := by
    refine runs_enqueue_at ⟨?_, ?_⟩ ?_ zero_le_one
    · exact Redis.setJob_of_ne Redis.empty calmJob hne
    · exact fun hmem => hne (Finset.mem_singleton.mp hmem)
    · exact Function.update_of_ne hkey (some "job_a") _
  exact ⟨_, runs_enqueueAll_cons hfirst (runs_enqueueAll_cons hsecond
    (runs_ret.mpr ⟨rfl, rfl⟩)), rfl⟩

/-- Neither job has waited for long when both are there, and the preview of the two. -/
theorem two_checked :
    (∀ job ∈ [calmJob, pressingJob],
      1 - job.createdAt < seedRecord.policy.automation.queue.waitingBonusIntervalSeconds ∧
        1 - job.createdAt < seedRecord.policy.automation.queue.starvationWaitSeconds) ∧
    previewPriority seedRecord.policy [calm.intent, pressing.intent] seedRecord.policy =
      [⟨"normal-production-incident", 70, 70⟩, ⟨"critical-production-incident", 140, 140⟩] := by
  decide +kernel

/-- Two cases: the pressing one comes second and is claimed first. -/
theorem preview_order_two : ∃ (w₁ w₂ : World) (claimed : List JobRecord),
    Runs (enqueueAll ([calm, pressing].map (·.compiled seedRecord))) ⟨.empty, 0⟩
      [calmJob, pressingJob] w₁ ∧
    Drains seedRecord.policy.automation.queue 30 [calmJob, pressingJob] w₁ claimed w₂ ∧
    claimed.map (fun job => ["job_a", "job_b"].idxOf job.jobId) = [1, 0] := by
  obtain ⟨w₁, henqueue, hclock⟩ := enqueueAll_two
  have hincreasing : [calmJob, pressingJob].Pairwise fun a b => a.createdAt < b.createdAt :=
    List.pairwise_pair.mpr zero_lt_one
  have hearly : ∀ job ∈ [calmJob, pressingJob],
      w₁.clock - job.createdAt < seedRecord.policy.automation.queue.waitingBonusIntervalSeconds ∧
        w₁.clock - job.createdAt < seedRecord.policy.automation.queue.starvationWaitSeconds := by
    rw [hclock]
    exact two_checked.1
  have hage : ∀ a ∈ [calmJob, pressingJob], ∀ b ∈ [calmJob, pressingJob],
      a.createdAt = b.createdAt → a = b := fun a ha b hb =>
    List.inj_on_of_nodup_map ((List.pairwise_map.mpr hincreasing).imp ne_of_lt) ha hb
  have hwaiting := ((waiting_nil rfl).enqueueAll (by decide) (fun _ _ => rfl) henqueue).1
  obtain ⟨claimed, w₂, hdrain⟩ := hwaiting.drains (List.Subset.refl _) hearly hage
  have horder := (preview_order seedRecord seedRecord.policy [calm, pressing] 30 rfl (by decide)
    (fun _ _ => rfl) henqueue hincreasing hdrain).2.2.2.2
  refine ⟨w₁, w₂, claimed, henqueue, hdrain, horder.trans ?_⟩
  rw [List.map_cons, List.map_cons, List.map_nil, afterOrder, two_checked.2, sortedByScore]
  simp [List.mergeSort, List.MergeSort.Internal.splitInTwo]

end PolyGate.PreviewOrder
