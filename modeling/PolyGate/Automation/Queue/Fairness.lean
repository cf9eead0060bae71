import Mathlib.Data.Fintype.EquivFin
import Mathlib.Tactic.Linarith
import PolyGate.Lib.Run
import PolyGate.Automation.Queue.Sequential

/-!
# `Automation/Queue/Fairness.lean` — how long a waiting job can be overtaken

The streak bounds how many critical and high jobs in a row go before a normal or low job that
has waited `starvation_wait_seconds`. Nothing bounds the rest: a critical or high job is never
picked by force, and a normal or low job that is claimed by rank sets the streak back to zero.
`low_job_starves` keeps a low job waiting with a stream of normal ones, so no bound on the
number of claims exists.

`claimed_in_time` is for the runs without such overtaking: at no claim does a job that arrived
later rank above the waiting one, except critical and high jobs above a normal or low one. Then
the waiting job is claimed within `(threshold + 1) * n` claims, with `n` jobs pending at the
start. The measure is `rank`: what is still pending of the jobs that were there first, each
weighed with a whole streak.
-/

namespace PolyGate.Automation.Fairness

open Lib PolyGate.Automation.Sequential

/-! ## Runs of the queue -/

inductive Label
  | wait
  | enqueue (record : JobRecord)
  | claim (result : Option JobRecord)

/-- Time passes, or a call of `enqueue` or `claim_next_job` runs from its start to its end. -/
inductive Step (policy : QueuePolicy) (w : World) : Label → World → Prop
  | wait {t : Time} (le : w.clock ≤ t) : Step policy w .wait { w with clock := t }
  | enqueue {preview : PreviewResponse} {key : String} {record : JobRecord} {w' : World}
      (runs : Runs (enqueue preview key) w record w') : Step policy w (.enqueue record) w'
  | claim {leaseSeconds : Int} {result : Option JobRecord} {w' : World}
      (runs : Runs (claimNextJob leaseSeconds (some policy)) w result w') :
      Step policy w (.claim result) w'

def Label.isClaim : Label → Bool
  | .claim _ => true
  | .wait | .enqueue _ => false

/-- The call returned the job to the worker. -/
def Label.Gives (j : JobId) (l : Label) : Prop := ∃ r, l = .claim (some r) ∧ r.jobId = j

/-- The number of claims among the transitions. -/
def claims (ts : List (World × Label × World)) : Nat := ts.countP fun t => t.2.1.isClaim

/-- The jobs a claim chooses among. -/
def waiting (s : Redis) : Finset JobId := s.pending.filter (Queued s)

theorem mem_waiting {s : Redis} {j : JobId} :
    j ∈ waiting s ↔ j ∈ s.pending ∧ ∃ r, s.jobs j = some r ∧ r.status = .queued := by
  rw [waiting, Finset.mem_filter, queued_iff]

/-- What `claim_next_job` ranks by: the effective priority, and the older first. -/
def rankKey (c : Candidate) : Int ×ₗ Time := toLex (c.effectivePriority, -c.createdTs)

/-- The job waits at the start, and has waited long enough to be picked by force. -/
structure Waited (policy : QueuePolicy) (w : World) (r : JobRecord) : Prop where
  pending : r.jobId ∈ w.redis.pending
  job : w.redis.jobs r.jobId = some r
  queued : r.status = .queued
  waited : (policy.starvationWaitSeconds : Time) ≤ w.clock - r.createdAt

/-- At no time of the call does a job that was not waiting at `w₀` rank above `r`; a critical or
high one may, if `r` is normal or low. -/
def NotOutranked (policy : QueuePolicy) (w₀ : World) (r : JobRecord) (w w' : World) : Prop :=
  ∀ now, w.clock ≤ now → now ≤ w'.clock → ∀ j r', w.redis.jobs j = some r' →
    j ∈ waiting w.redis → j ∉ waiting w₀.redis →
    (r.priority.cls.criticalHigh = true ∨ r'.priority.cls.criticalHigh = false) →
    ¬ rankKey (candidate policy now r.jobId r) < rankKey (candidate policy now j r')

/-! ## What a claim can choose -/

section
variable {policy : QueuePolicy} {w₀ w w' : World} {r : JobRecord}

/-- The job still waits; whoever else does was there first or is younger. -/
structure Inv (w₀ : World) (r : JobRecord) (w : World) : Prop where
  pending : r.jobId ∈ w.redis.pending
  job : w.redis.jobs r.jobId = some r
  queued : r.status = .queued
  clock : w₀.clock ≤ w.clock
  known : ∀ j ∈ waiting w₀.redis, w.redis.jobs j ≠ none
  later : ∀ j ∈ waiting w.redis, j ∉ waiting w₀.redis →
    ∀ r', w.redis.jobs j = some r' → w₀.clock ≤ r'.createdAt

/-- The other jobs that were there first and still wait. -/
def ahead (w₀ : World) (r : JobRecord) (w : World) : Finset JobId :=
  (waiting w₀.redis ∩ waiting w.redis).erase r.jobId

/-- How many claims can go by before the job is claimed. -/
def rank (policy : QueuePolicy) (w₀ : World) (r : JobRecord) (w : World) : Nat :=
  let streak := w.redis.streak.getD 0
  if r.priority.cls.criticalHigh then
    -- a forced pick needs a full streak of jobs that were there first
    2 * (ahead w₀ r w).card + if policy.starvationStreakThreshold ≤ streak then 1 else 0
  else
    (policy.starvationStreakThreshold + 1) * (ahead w₀ r w).card +
      (policy.starvationStreakThreshold - streak)

theorem mem_starved {streak : Nat} {cs : List Candidate} {c chosen : Candidate}
    (hchosen : choose policy streak cs = some chosen) (hc : c ∈ starved policy cs)
    (hstreak : policy.starvationStreakThreshold ≤ streak) :
    chosen ∈ starved policy cs ∧ c.waited ≤ chosen.waited := by
  unfold choose at hchosen
  rw [if_pos hstreak] at hchosen
  split at hchosen
  · rename_i c' hc'
    obtain rfl := Option.some.inj hchosen
    exact ⟨List.argmax_mem hc', List.le_of_mem_argmax hc hc'⟩
  · rename_i hnone
    rw [List.argmax_eq_none.mp hnone] at hc
    cases hc

/-- The job is chosen by rank, or by force out of the starved ones. -/
theorem choose_cases {streak : Nat} {cs : List Candidate} {chosen : Candidate}
    (hchosen : choose policy streak cs = some chosen) :
    (∀ c ∈ cs, rankKey c ≤ rankKey chosen) ∨
      policy.starvationStreakThreshold ≤ streak ∧ chosen.priorityClass.criticalHigh = false := by
  have hpick : ∀ {c}, pickByPriority cs = some c → ∀ c' ∈ cs, rankKey c' ≤ rankKey c :=
    fun hc c' hc' => List.le_of_mem_argmax hc' hc
  unfold choose at hchosen
  split at hchosen
  · rename_i hstreak
    split at hchosen
    · rename_i c' hc'
      obtain rfl := Option.some.inj hchosen
      have hmem := List.argmax_mem hc'
      simp only [starved, List.mem_filter, Bool.and_eq_true, Bool.not_eq_true'] at hmem
      exact Or.inr ⟨hstreak, hmem.2.1⟩
    · exact Or.inl (hpick hchosen)
  · exact Or.inl (hpick hchosen)

theorem Waited.inv (h : Waited policy w₀ r) : Inv w₀ r w₀ where
  pending := h.pending
  job := h.job
  queued := h.queued
  clock := le_rfl
  known j hj hn := by
    obtain ⟨-, r', hr', -⟩ := mem_waiting.mp hj
    rw [hn] at hr'
    cases hr'
  later _ hj hn := absurd hj hn

theorem Inv.mem_waiting (hi : Inv w₀ r w) : r.jobId ∈ waiting w.redis :=
  Fairness.mem_waiting.mpr ⟨hi.pending, r, hi.job, hi.queued⟩

/-- Whoever was not there first is strictly younger. -/
theorem Inv.younger (hi : Inv w₀ r w) (hw : Waited policy w₀ r) {j : JobId} {r' : JobRecord}
    (hj : j ∈ waiting w.redis) (hn : j ∉ waiting w₀.redis) (hr' : w.redis.jobs j = some r') :
    r.createdAt < r'.createdAt := by
  have hlater := hi.later j hj hn r' hr'
  have hwaited := hw.waited
  have hpos : (1 : Time) ≤ policy.starvationWaitSeconds := by exact_mod_cast policy.wait_bounds.1
  linarith

theorem rank_lt (hw : Waited policy w₀ r) : rank policy w₀ r w₀ <
    (policy.starvationStreakThreshold + 1) * w₀.redis.pending.card := by
  have hcard : (ahead w₀ r w₀).card + 1 ≤ w₀.redis.pending.card := by
    rw [ahead, Finset.inter_self, Finset.card_erase_add_one hw.inv.mem_waiting]
    exact Finset.card_filter_le ..
  obtain ⟨n, hn⟩ := Nat.exists_eq_add_of_le' hcard
  rw [hn, rank]
  have hthreshold := policy.threshold_bounds.1
  split
  · split <;> nlinarith
  · have hsub : policy.starvationStreakThreshold - w₀.redis.streak.getD 0 ≤
        policy.starvationStreakThreshold := Nat.sub_le ..
    nlinarith

/-! ## One call -/

/-- The chosen candidate is a job of the pending set as it is stored. -/
theorem chosen_eq {ids : List JobId} {now : Time} {chosen : Candidate} {streak : Nat}
    (hids : ids.toFinset = w.redis.pending)
    (hchosen : choose policy streak (candidates policy now w.redis ids) = some chosen) :
    ∃ j r', j ∈ waiting w.redis ∧ w.redis.jobs j = some r' ∧
      chosen = candidate policy now j r' := by
  obtain ⟨j, r', hj, hr', hq, rfl⟩ := mem_candidates.mp (choose_mem hchosen)
  exact ⟨j, r', Fairness.mem_waiting.mpr ⟨by simpa [← hids] using hj, r', hr', hq⟩, hr', rfl⟩

/-- A claim takes the chosen job, and no other, out of those that wait. -/
theorem waiting_claimed {ids : List JobId} {now startedAt expires : Time} {j : JobId}
    {r' : JobRecord} (hr' : w.redis.jobs j = some r') :
    waiting (claimed (cleaned w.redis ids) (candidate policy now j r') startedAt expires) =
      (waiting w.redis).erase j := by
  have hid : r'.jobId = j := w.redis.jobs_key j r' hr'
  ext i
  rw [waiting, Finset.mem_filter, Finset.mem_erase, waiting, Finset.mem_filter]
  by_cases hi : i = j
  · subst hi
    simp [claimed, candidate]
  · have hstatus : Queued (claimed (cleaned w.redis ids) (candidate policy now j r') startedAt
        expires) i ↔ Queued w.redis i := by
      have hne : i ≠ (started (candidate policy now j r') startedAt).jobId := hid ▸ hi
      exact Eq.congr_left (Redis.statusOf_setJob_of_ne (cleaned w.redis ids) _ hne)
    rw [hstatus]
    simp only [claimed, cleaned, candidate, Finset.mem_erase, Finset.mem_filter]
    tauto

/-- Overtaken by a job that arrived later: by force, from a full streak, or by a critical or high
job that makes the streak longer. -/
theorem Inv.overtaken (hi : Inv w₀ r w) (hw : Waited policy w₀ r)
    (hok : NotOutranked policy w₀ r w w') {ids : List JobId} {now : Time} {j : JobId}
    {r' : JobRecord} (hids : ids.toFinset = w.redis.pending)
    (hnow : w.clock ≤ now ∧ now ≤ w'.clock)
    (hchosen : choose policy (w.redis.streak.getD 0) (candidates policy now w.redis ids) =
      some (candidate policy now j r'))
    (hj : j ∈ waiting w.redis) (hr' : w.redis.jobs j = some r') (hn : j ∉ waiting w₀.redis) :
    if r.priority.cls.criticalHigh then
      policy.starvationStreakThreshold ≤ w.redis.streak.getD 0 ∧
        r'.priority.cls.criticalHigh = false
    else
      w.redis.streak.getD 0 < policy.starvationStreakThreshold ∧
        r'.priority.cls.criticalHigh = true := by
  have hyounger := hi.younger hw hj hn hr'
  have hmem : candidate policy now r.jobId r ∈ candidates policy now w.redis ids :=
    mem_candidates.mpr ⟨_, r, by simpa [← hids] using hi.pending, hi.job, hi.queued, rfl⟩
  -- picked by rank, it would have outranked the job
  have hrank : (∀ c ∈ candidates policy now w.redis ids,
      rankKey c ≤ rankKey (candidate policy now j r')) →
      r.priority.cls.criticalHigh = false ∧ r'.priority.cls.criticalHigh = true := by
    intro htop
    have hlt : rankKey (candidate policy now r.jobId r) < rankKey (candidate policy now j r') := by
      refine lt_of_le_of_ne (htop _ hmem) fun heq => hyounger.ne ?_
      have hsnd := congrArg (fun k => (ofLex k).2) heq
      simpa [rankKey, candidate] using hsnd
    by_contra hcls
    refine hok now hnow.1 hnow.2 j r' hr' hj hn ?_ hlt
    cases hr : r.priority.cls.criticalHigh with
    | true => exact Or.inl rfl
    | false =>
      right
      cases hr'' : r'.priority.cls.criticalHigh with
      | false => rfl
      | true => exact absurd ⟨hr, hr''⟩ hcls
  split
  · rename_i hcls
    rcases choose_cases hchosen with htop | hforced
    · exact absurd (hrank htop).1 (by simp [hcls])
    · exact hforced
  · rename_i hcls
    have hcls : r.priority.cls.criticalHigh = false := by simpa using hcls
    -- the job itself can be picked by force, and has waited longer
    have hforce : w.redis.streak.getD 0 < policy.starvationStreakThreshold := by
      by_contra hstreak
      have hstarved : candidate policy now r.jobId r ∈
          starved policy (candidates policy now w.redis ids) := by
        have hwaited := hw.waited
        have hclock := hi.clock
        rw [starved, List.mem_filter]
        refine ⟨hmem, ?_⟩
        simp only [candidate, hcls, Bool.not_false, Bool.true_and]
        exact decide_eq_true (by linarith [hnow.1])
      have hlonger := (mem_starved hchosen hstarved (not_lt.mp hstreak)).2
      simp only [candidate] at hlonger
      linarith
    rcases choose_cases hchosen with htop | hforced
    · exact ⟨hforce, (hrank htop).2⟩
    · exact absurd hforced.1 (not_le.mpr hforce)

/-- **A claim of another job.** The job goes on waiting, and is one claim closer. -/
theorem Inv.of_claim (hi : Inv w₀ r w) (hw : Waited policy w₀ r)
    (hok : NotOutranked policy w₀ r w w') {leaseSeconds : Int} {record : JobRecord}
    {ids : List JobId} {now : Time} {chosen : Candidate}
    (hc : Claims policy leaseSeconds w record w' ids now chosen) (hne : record.jobId ≠ r.jobId) :
    Inv w₀ r w' ∧ rank policy w₀ r w' < rank policy w₀ r w := by
  obtain ⟨j, r', hj, hr', rfl⟩ := chosen_eq hc.ids_eq hc.chosen_eq
  obtain ⟨startedAt, leasedAt, rfl, hredis⟩ := hc.redis_eq
  have hid : r'.jobId = j := w.redis.jobs_key j r' hr'
  have hne : r.jobId ≠ j := fun he => hne (hid.trans he.symm)
  have hwaiting : waiting w'.redis = (waiting w.redis).erase j := by
    rw [hredis, waiting_claimed hr']
  have hjobs : ∀ i, i ≠ j → w'.redis.jobs i = w.redis.jobs i := by
    intro i hi
    rw [hredis]
    exact claimed_jobs_of_ne _ _ _ (by rwa [candidate, hid])
  have hstreak : w'.redis.streak =
      some (if r'.priority.cls.criticalHigh then w.redis.streak.getD 0 + 1 else 0) := by
    rw [hredis]
    rfl
  -- the claimed job is no longer ahead, if it ever was
  have hahead : ahead w₀ r w' = (ahead w₀ r w).erase j := by
    rw [ahead, ahead, hwaiting, Finset.inter_erase, Finset.erase_right_comm]
  refine ⟨⟨?_, ?_, hi.queued, hi.clock.trans (hc.now_bounds.1.trans hc.now_bounds.2), ?_, ?_⟩, ?_⟩
  · have hmem : r.jobId ∈ waiting w'.redis := by
      rw [hwaiting]
      exact Finset.mem_erase.mpr ⟨hne, hi.mem_waiting⟩
    exact (Fairness.mem_waiting.mp hmem).1
  · rw [hjobs _ hne]
    exact hi.job
  · intro i hmem
    by_cases hij : i = j
    · subst hij
      have hself := claimed_jobs_self (cleaned w.redis ids) (candidate policy now i r') startedAt
        (leasedAt + leaseSeconds)
      rw [← hredis, candidate, hid] at hself
      simp [hself]
    · rw [hjobs i hij]
      exact hi.known i hmem
  · intro i hmem hn r'' hr''
    rw [hwaiting, Finset.mem_erase] at hmem
    rw [hjobs i hmem.1] at hr''
    exact hi.later i hmem.2 hn r'' hr''
  · simp only [rank, hahead, hstreak, Option.getD_some]
    by_cases hold : j ∈ waiting w₀.redis
    · -- one of the jobs that were there first
      have hcard : ((ahead w₀ r w).erase j).card + 1 = (ahead w₀ r w).card :=
        Finset.card_erase_add_one
          (Finset.mem_erase.mpr ⟨hne.symm, Finset.mem_inter.mpr ⟨hold, hj⟩⟩)
      rw [← hcard]
      split
      · split <;> split <;> omega
      · rw [Nat.mul_add]
        split <;> omega
    -- a newer job, which may overtake only as long as the streak lasts
    · have herase : (ahead w₀ r w).erase j = ahead w₀ r w :=
        Finset.erase_eq_of_notMem fun h =>
          hold (Finset.mem_inter.mp (Finset.mem_of_mem_erase h)).1
      have hover := hi.overtaken hw hok hc.ids_eq hc.now_bounds hc.chosen_eq hj hr' hold
      rw [herase]
      have hthreshold := policy.threshold_bounds.1
      split
      · rename_i hcls
        rw [if_pos hcls] at hover
        rw [if_pos hover.1, hover.2]
        simp only [Bool.false_eq_true, if_false]
        rw [if_neg (by omega)]
        omega
      · rename_i hcls
        rw [if_neg hcls] at hover
        rw [hover.2]
        simp only [if_true]
        omega

/-- **A submission.** A new job arrives, or nothing changes. -/
theorem Inv.of_enqueue (hi : Inv w₀ r w) {preview : PreviewResponse} {key : String}
    {record : JobRecord} (h : Runs (enqueue preview key) w record w') :
    Inv w₀ r w' ∧ rank policy w₀ r w' = rank policy w₀ r w := by
  rcases enqueue_runs h with ⟨rfl, -⟩ | ⟨id, t, hnew⟩
  · exact ⟨hi, rfl⟩
  obtain ⟨hfresh, ht, hrecord, rfl⟩ := hnew
  have hid : record.jobId = id := by
    rw [hrecord]
    rfl
  -- a new id, so it is none of those that waited first
  have hold : id ∉ waiting w₀.redis := fun h => hi.known id h hfresh.1
  have hne : r.jobId ≠ id := fun he => hfresh.2 (he ▸ hi.pending)
  have hjobs : ∀ i, i ≠ id → ((w.redis.setIdempotency key id).enqueuePipeline record
      preview.gatewayRequest).jobs i = w.redis.jobs i := by
    intro i hi
    exact Redis.setJob_of_ne (w.redis.setIdempotency key id) record (hid ▸ hi)
  have hself : ((w.redis.setIdempotency key id).enqueuePipeline record
      preview.gatewayRequest).jobs id = some record := by
    have h := Redis.setJob_self (w.redis.setIdempotency key id) record
    rwa [hid] at h
  have hwaiting : waiting ((w.redis.setIdempotency key id).enqueuePipeline record
      preview.gatewayRequest) = insert id (waiting w.redis) := by
    ext i
    rw [Finset.mem_insert, Fairness.mem_waiting, Fairness.mem_waiting]
    by_cases hi : i = id
    · subst hi
      simp only [hself, true_or, iff_true]
      refine ⟨?_, record, rfl, by rw [hrecord]; rfl⟩
      exact Finset.mem_insert.mpr (Or.inl hid.symm)
    · rw [hjobs i hi]
      simp [hid, hi]
  refine ⟨⟨?_, ?_, hi.queued, hi.clock.trans ht, ?_, ?_⟩, ?_⟩
  · exact Finset.mem_insert_of_mem hi.pending
  · exact (hjobs _ hne).trans hi.job
  · intro i hmem
    by_cases hii : i = id
    · exact absurd (hii ▸ hmem) hold
    · simpa only [hjobs i hii] using hi.known i hmem
  · intro i hmem hn r' hr'
    simp only [hwaiting, Finset.mem_insert] at hmem
    by_cases hii : i = id
    · subst hii
      simp only [hself] at hr'
      obtain rfl := Option.some.inj hr'
      rw [hrecord]
      exact hi.clock.trans ht
    · simp only [hjobs i hii] at hr'
      exact hi.later i (hmem.resolve_left hii) hn r' hr'
  -- nobody new comes ahead
  · have hahead : ahead w₀ r ⟨(w.redis.setIdempotency key id).enqueuePipeline record
        preview.gatewayRequest, t⟩ = ahead w₀ r w := by
      rw [ahead, ahead, hwaiting, Finset.inter_insert_of_notMem hold]
    simp only [rank, hahead]
    rfl

/-! ## Runs -/

/-- The job was given to a worker, or it waits and every claim so far was counted. -/
def Progress (policy : QueuePolicy) (w₀ : World) (r : JobRecord)
    (ts : List (World × Label × World)) (w : World) : Prop :=
  (∃ t ∈ ts, t.2.1.Gives r.jobId) ∨
    Inv w₀ r w ∧ claims ts + rank policy w₀ r w ≤ rank policy w₀ r w₀

theorem Progress.step {ts : List (World × Label × World)} {l : Label}
    (h : Progress policy w₀ r ts w) (hw : Waited policy w₀ r) (hst : Step policy w l w')
    (hok : r.jobId ∈ w.redis.pending → l.isClaim → NotOutranked policy w₀ r w w') :
    Progress policy w₀ r (ts ++ [(w, l, w')]) w' := by
  rcases h with ⟨t, ht, hgives⟩ | ⟨hi, hclaims⟩
  · exact Or.inl ⟨t, List.mem_append_left _ ht, hgives⟩
  · have hcount : claims (ts ++ [(w, l, w')]) = claims ts + if l.isClaim then 1 else 0 := by
      simp [claims, List.countP_append, List.countP_cons]
    cases hst with
    | wait le =>
      refine Or.inr ⟨⟨hi.pending, hi.job, hi.queued, hi.clock.trans le, hi.known, hi.later⟩, ?_⟩
      show _ + rank policy w₀ r w ≤ _
      simpa [hcount, Label.isClaim] using hclaims
    | enqueue runs =>
      obtain ⟨hi', hrank⟩ : Inv w₀ r w' ∧ rank policy w₀ r w' = rank policy w₀ r w :=
        hi.of_enqueue runs
      exact Or.inr ⟨hi', by simpa [hcount, hrank, Label.isClaim] using hclaims⟩
    | @claim leaseSeconds result _ runs =>
      rcases claimNextJob_runs runs with
        ⟨_, _, -, -, -, hnone, -⟩ | ⟨record, ids, now, chosen, rfl, hc⟩
      · exact absurd (queued_iff.mpr ⟨r, hi.job, hi.queued⟩) (hnone _ hi.pending)
      · by_cases hgives : record.jobId = r.jobId
        · exact Or.inl ⟨_, List.mem_append_right _ List.mem_cons_self, record, rfl, hgives⟩
        · obtain ⟨hi', hrank⟩ := hi.of_claim hw (hok hi.pending rfl) hc hgives
          refine Or.inr ⟨hi', ?_⟩
          rw [hcount, Label.isClaim, if_pos rfl]
          omega

/-- **Bounded overtaking, of a job that no later one outranks.** A job that is pending and has
waited `starvation_wait_seconds` is claimed within `(threshold + 1) * n` further claims, `n` jobs
being pending at that moment, however many jobs arrive later: provided that at no claim made
while it waits a job that arrived later ranks above it. If it is normal or low, critical and high
jobs may. -/
theorem claimed_in_time {ts : List (World × Label × World)} (hw : Waited policy w₀ r)
    (hrun : Run (Step policy) w₀ ts w)
    (hok : ∀ t ∈ ts, r.jobId ∈ t.1.redis.pending → t.2.1.isClaim →
      NotOutranked policy w₀ r t.1 t.2.2)
    (hn : (policy.starvationStreakThreshold + 1) * w₀.redis.pending.card ≤ claims ts) :
    ∃ t ∈ ts, t.2.1.Gives r.jobId := by
  have hprogress : Progress policy w₀ r ts w := by
    have hres := hrun.restrictStep (P := fun w l w' =>
      r.jobId ∈ w.redis.pending → l.isClaim → NotOutranked policy w₀ r w w') hok
    refine hres.history (I := Progress policy w₀ r) (Or.inr ⟨hw.inv, by simp [claims]⟩) ?_
    intro ts w₁ l w₂ h hst
    exact h.step hw hst.2 hst.1
  rcases hprogress with h | ⟨-, hclaims⟩
  · exact h
  · have hrank := rank_lt hw
    omega

end

/-! ## A low job that is never claimed -/

/-- A low job submitted at time 0, seen at time 100: five times the starvation wait. -/
def lowJob : JobRecord := newRecord (makePreview "prev" .low 5) "job_low" 0 0

def afterLowJob : World :=
  ⟨(Redis.empty.setIdempotency "key_low" "job_low").enqueuePipeline lowJob
    (makePreview "prev" .low 5).gatewayRequest, 0⟩

theorem run_lowJob (policy : QueuePolicy) : Run (Step policy) ⟨.empty, 0⟩
    [(⟨.empty, 0⟩, .enqueue lowJob, afterLowJob),
      (afterLowJob, .wait, { afterLowJob with clock := 100 })]
    { afterLowJob with clock := 100 } :=
  .tail (.tail .refl (.enqueue (runs_enqueue (makePreview "prev" .low 5) ⟨rfl, by decide⟩ rfl)))
    (.wait (show (0 : Time) ≤ 100 by decide +kernel))

theorem waited_lowJob : Waited defaultQueuePolicy { afterLowJob with clock := 100 } lowJob where
  pending := by decide
  job := rfl
  queued := rfl
  waited := by decide +kernel

/-- Left alone, the low job is given to the first claim, and the other claims find nothing. -/
theorem claimed_in_time_alone : ∃ ts w,
    Run (Step defaultQueuePolicy) { afterLowJob with clock := 100 } ts w ∧ claims ts = 4 ∧
      ∃ t ∈ ts, t.2.1.Gives "job_low" := by
  have hqueued : ∀ j ∈ afterLowJob.redis.pending, Queued afterLowJob.redis j := by
    intro j hj
    obtain rfl : j = "job_low" := by
      simpa [afterLowJob, Redis.empty, lowJob, newRecord] using hj
    rfl
  have hchoose : choose defaultQueuePolicy (afterLowJob.redis.streak.getD 0)
      (candidates defaultQueuePolicy 100 afterLowJob.redis ["job_low"]) =
      some (candidate defaultQueuePolicy 100 "job_low" lowJob) :=
    choose_singleton ..
  have hclaim := runs_claimNextJob defaultQueuePolicy 60 (w := { afterLowJob with clock := 100 })
    (List.nodup_singleton "job_low") rfl hchoose
  rw [cleaned_of_queued _ hqueued] at hclaim
  have hempty := runs_claimNextJob_empty defaultQueuePolicy 60
    (w := ⟨claimed afterLowJob.redis (candidate defaultQueuePolicy 100 "job_low" lowJob) 100
      (100 + (60 : Int)), 100⟩) (by decide)
  have hrun : Run (Step defaultQueuePolicy) { afterLowJob with clock := 100 } _ _ :=
    .tail (.tail (.tail (.tail .refl (.claim hclaim)) (.claim hempty)) (.claim hempty))
      (.claim hempty)
  refine ⟨_, _, hrun, rfl, claimed_in_time waited_lowJob hrun ?_ (by decide)⟩
  intro t ht hpending _
  simp only [List.nil_append, List.cons_append, List.mem_cons, List.not_mem_nil, or_false] at ht
  rcases ht with rfl | rfl | rfl | rfl
  · -- nobody has arrived
    exact fun _ _ _ _ _ _ hj hn => absurd hj hn
  · exact absurd hpending (by decide)
  · exact absurd hpending (by decide)
  · exact absurd hpending (by decide)

/-- The low job waits alone, with the streak at zero. -/
structure Starving (w : World) : Prop where
  pending : w.redis.pending = {"job_low"}
  job : w.redis.jobs "job_low" = some lowJob
  streak : w.redis.streak.getD 0 = 0
  known : ∃ ids : Finset String,
    ∀ id, id ∉ ids → w.redis.jobs id = none ∧ w.redis.idempotency id = none

/-- Aging adds at most its cap, so a normal job with 60 points ranks above the low one. -/
theorem choose_normal (now : Time) {r : JobRecord} (id : JobId)
    (hr : r.priority.initialScore = 60) :
    choose defaultQueuePolicy 0
      [candidate defaultQueuePolicy now "job_low" lowJob, candidate defaultQueuePolicy now id r] =
      some (candidate defaultQueuePolicy now id r) := by
  have hcap : waitingBonus (now - lowJob.createdAt) defaultQueuePolicy ≤ 30 := min_le_left ..
  have hlt : rankKey (candidate defaultQueuePolicy now "job_low" lowJob) <
      rankKey (candidate defaultQueuePolicy now id r) := by
    refine Prod.Lex.toLex_lt_toLex.mpr (Or.inl ?_)
    simp only [candidate, hr]
    have hscore : lowJob.priority.initialScore = 5 := rfl
    omega
  rw [choose, if_neg (by decide)]
  show List.argmax rankKey _ = _
  rw [List.argmax_cons, List.argmax_singleton]
  exact if_pos hlt

/-- A normal job arrives and is claimed before the low one, which resets the streak. -/
theorem Starving.round {w : World} (h : Starving w) : ∃ ts w',
    Run (Step defaultQueuePolicy) w ts w' ∧ claims ts = 1 ∧
      (∀ t ∈ ts, ¬ t.2.1.Gives "job_low") ∧ Starving w' := by
  obtain ⟨ids, hids⟩ := h.known
  obtain ⟨id, hid⟩ := Infinite.exists_notMem_finset (insert "job_low" ids)
  rw [Finset.mem_insert, not_or] at hid
  obtain ⟨hjobs, hkey⟩ := hids id hid.2
  have hfresh : Fresh w.redis id := ⟨hjobs, by simp [h.pending, hid.1]⟩
  -- the submission
  have henqueue := runs_enqueue (makePreview "prev" .normal 60) hfresh hkey
  set r := newRecord (makePreview "prev" .normal 60) id w.redis.pending.card w.clock with hr
  set s := (w.redis.setIdempotency id id).enqueuePipeline r
    (makePreview "prev" .normal 60).gatewayRequest with hs
  have hrid : r.jobId = id := rfl
  have hlow : s.jobs "job_low" = some lowJob :=
    (Redis.setJob_of_ne _ r (Ne.symm hid.1)).trans h.job
  have hself : s.jobs id = some r := Redis.setJob_self (w.redis.setIdempotency id id) r
  have hpending : s.pending = {id, "job_low"} := by
    show insert id w.redis.pending = _
    rw [h.pending]
  have hqueued : ∀ j ∈ s.pending, Queued s j := by
    intro j hj
    rw [hpending, Finset.mem_insert, Finset.mem_singleton] at hj
    rcases hj with rfl | rfl
    · exact queued_iff.mpr ⟨r, hself, rfl⟩
    · exact queued_iff.mpr ⟨lowJob, hlow, rfl⟩
  -- the claim
  have hcandidates : candidates defaultQueuePolicy w.clock s ["job_low", id] =
      [candidate defaultQueuePolicy w.clock "job_low" lowJob,
        candidate defaultQueuePolicy w.clock id r] := by
    rw [candidates_cons_queued hlow rfl, candidates_cons_queued hself rfl]
    rfl
  have hchoose : choose defaultQueuePolicy (s.streak.getD 0)
      (candidates defaultQueuePolicy w.clock s ["job_low", id]) =
      some (candidate defaultQueuePolicy w.clock id r) := by
    rw [hcandidates, show s.streak.getD 0 = 0 from h.streak]
    exact choose_normal w.clock id rfl
  have hclaim := runs_claimNextJob defaultQueuePolicy 60 (w := ⟨s, w.clock⟩)
    (show ["job_low", id].Nodup by simp [Ne.symm hid.1])
    (by rw [hpending]; ext; simp [or_comm]) hchoose
  rw [cleaned_of_queued _ hqueued] at hclaim
  refine ⟨_, _, .tail (.tail .refl (.enqueue henqueue)) (.claim hclaim), rfl, ?_, ?_⟩
  · intro t ht
    simp only [List.nil_append, List.cons_append, List.mem_cons, List.not_mem_nil, or_false] at ht
    rcases ht with rfl | rfl
    · rintro ⟨_, hl, -⟩
      cases hl
    · rintro ⟨_, hl, hgive⟩
      cases hl
      exact hid.1 hgive
  · refine ⟨?_, ?_, rfl, insert id ids, fun id' hid' => ?_⟩
    · show s.pending.erase id = _
      rw [hpending, Finset.erase_insert (by simpa using hid.1)]
    · exact (claimed_jobs_of_ne s w.clock _ (Ne.symm hid.1)).trans hlow
    · rw [Finset.mem_insert, not_or] at hid'
      have hjob : s.jobs id' = none := (Redis.setJob_of_ne _ r hid'.1).trans (hids id' hid'.2).1
      exact ⟨(claimed_jobs_of_ne s w.clock _ hid'.1).trans hjob,
        (Function.update_of_ne hid'.1 ..).trans (hids id' hid'.2).2⟩

/-- **Normal jobs starve a low one.** No number of claims, whatever it is computed from, is
enough: as long as a normal job arrives before each claim, the low job is not chosen. -/
theorem low_job_starves : ¬ ∃ bound : Nat → Nat → Nat,
    ∀ (policy : QueuePolicy) (w₀ w : World) (r : JobRecord) (ts₀ ts : List (World × Label × World)),
      Run (Step policy) ⟨.empty, 0⟩ ts₀ w₀ → Waited policy w₀ r → Run (Step policy) w₀ ts w →
      bound policy.starvationStreakThreshold w₀.redis.pending.card ≤ claims ts →
      ∃ t ∈ ts, t.2.1.Gives r.jobId := by
  rintro ⟨bound, hbound⟩
  have hrounds : ∀ k, ∃ ts w, Run (Step defaultQueuePolicy) { afterLowJob with clock := 100 } ts w ∧
      claims ts = k ∧ (∀ t ∈ ts, ¬ t.2.1.Gives "job_low") ∧ Starving w := by
    intro k
    induction k with
    | zero =>
      refine ⟨[], _, .refl, rfl, fun _ ht => absurd ht (by simp), rfl, rfl, rfl, ?_⟩
      refine ⟨{"job_low", "key_low"}, fun id hid => ?_⟩
      simp only [Finset.mem_insert, Finset.mem_singleton, not_or] at hid
      exact ⟨Redis.setJob_of_ne _ _ hid.1, Function.update_of_ne hid.2 ..⟩
    | succ k ih =>
      obtain ⟨ts, w, hrun, hcount, hgives, hstarving⟩ := ih
      obtain ⟨us, w', hrun', hcount', hgives', hstarving'⟩ := hstarving.round
      refine ⟨ts ++ us, w', hrun.append hrun', ?_, fun t ht => ?_, hstarving'⟩
      · rw [claims, List.countP_append]
        exact congrArg₂ (· + ·) hcount hcount'
      · exact (List.mem_append.mp ht).elim (hgives t) (hgives' t)
  obtain ⟨ts, w, hrun, hcount, hgives, -⟩ := hrounds
    (bound defaultQueuePolicy.starvationStreakThreshold 1)
  obtain ⟨t, ht, hgive⟩ := hbound defaultQueuePolicy _ w lowJob _ ts (run_lowJob _) waited_lowJob
    hrun hcount.ge
  exact hgives t ht hgive

end PolyGate.Automation.Fairness
