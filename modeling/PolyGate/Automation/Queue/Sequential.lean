import PolyGate.Automation.RedisStore

/-!
# `Automation/Queue/Sequential.lean` — the queue, one call after another

What each method of `RedisAutomationStore` comes to when nothing else touches Redis while it
runs and no command raises: one `_runs` lemma a method, from its program to the Redis it
leaves. `World` adds the wall clock, which is read several times in a call and does not go
back.
-/

namespace PolyGate.Automation

open Lib

/-- Redis and the wall clock. -/
structure World where
  redis : Redis
  clock : Time

namespace Sequential

/-- `uuid4` does not repeat: the id occurs nowhere in the queue. -/
def Fresh (s : Redis) (id : JobId) : Prop := s.jobs id = none ∧ id ∉ s.pending

/-- What a command answers and leaves behind. -/
def answers (w : World) : (c : Cmd) → c.Reply → World → Prop
  | .redis c, v, w' => ∃ r, w.redis.Answers c v r ∧ w' = { w with redis := r }
  | .now, (t : Time), w' => w.clock ≤ t ∧ w' = { w with clock := t }
  | .newJobId, (id : JobId), w' => Fresh w.redis id ∧ w' = w
  | _, _, w' => w' = w

/-- A call that runs alone, to its end. -/
abbrev Runs {α : Type} (p : Store α) (w : World) (a : α) (w' : World) : Prop :=
  p.Runs (.ofAnswers answers) w (.ok a) w'

section
variable {α β : Type} {w w' : World} {a : α}

/-- A command to Redis, and the rest of the program with its answer. -/
theorem runs_redis {c : RedisCmd} {f : c.Reply → Store α} :
    Runs (.cmd (.redis c) (Prog.onReply f)) w a w' ↔
      ∃ x r, w.redis.Answers c x r ∧ Runs (f x) { w with redis := r } a w' := by
  rw [Runs, Prog.runs_onReply]
  constructor
  · rintro ⟨x, _, ⟨r, hr, rfl⟩, h⟩
    exact ⟨x, r, hr, h⟩
  · rintro ⟨x, r, hr, h⟩
    exact ⟨x, _, ⟨r, hr, rfl⟩, h⟩

theorem runs_now {f : Time → Store α} :
    Runs (.cmd .now (Prog.onReply f)) w a w' ↔
      ∃ t, w.clock ≤ t ∧ Runs (f t) { w with clock := t } a w' := by
  rw [Runs, Prog.runs_onReply]
  constructor
  · rintro ⟨t, _, ⟨ht, rfl⟩, h⟩
    exact ⟨t, ht, h⟩
  · rintro ⟨t, ht, h⟩
    exact ⟨t, _, ⟨ht, rfl⟩, h⟩

theorem runs_newJobId {f : JobId → Store α} :
    Runs (.cmd .newJobId (Prog.onReply f)) w a w' ↔
      ∃ id, Fresh w.redis id ∧ Runs (f id) w a w' := by
  rw [Runs, Prog.runs_onReply]
  constructor
  · rintro ⟨id, _, ⟨hid, rfl⟩, h⟩
    exact ⟨id, hid, h⟩
  · rintro ⟨id, hid, h⟩
    exact ⟨id, _, ⟨hid, rfl⟩, h⟩

/-- In sequence: nothing raises here, so the first part returned. -/
theorem runs_bind {p : Store α} {f : α → Store β} {b : β} :
    Runs (p >>= f) w b w' ↔ ∃ a w₁, Runs p w a w₁ ∧ Runs (f a) w₁ b w' := by
  rw [Runs, Prog.runs_bind]
  constructor
  · rintro (⟨a, w₁, hp, hf⟩ | ⟨e, -, he⟩)
    · exact ⟨a, w₁, hp, hf⟩
    · cases he
  · rintro ⟨a, w₁, hp, hf⟩
    exact Or.inl ⟨a, w₁, hp, hf⟩

theorem runs_ret {a' : α} : Runs (.ret a') w a w' ↔ a = a' ∧ w' = w := by
  rw [Runs, Prog.runs_ret, Except.ok.injEq]

end

/-! ## Claiming -/

/-- The job is stored as queued. -/
def Queued (s : Redis) (j : JobId) : Prop := s.statusOf j = some .queued

instance (s : Redis) (j : JobId) : Decidable (Queued s j) := inferInstanceAs (Decidable (_ = _))

/-- The pending set once `claim_next_job` has dropped what is not queued of `ids`. -/
def cleaned (s : Redis) (ids : List JobId) : Redis :=
  { s with pending := s.pending.filter fun j => j ∈ ids → Queued s j }

/-- `candidates`, as the loop over `ids` builds it. -/
def candidates (policy : QueuePolicy) (now : Time) (s : Redis) (ids : List JobId) :
    List Candidate :=
  ids.filterMap fun j => match s.jobs j with
    | some r => if r.status = .queued then some (candidate policy now j r) else none
    | none => none

/-- The candidates are the queued ones among the ids that were read. -/
theorem mem_candidates {policy : QueuePolicy} {now : Time} {s : Redis} {ids : List JobId}
    {c : Candidate} : c ∈ candidates policy now s ids ↔
      ∃ j r, j ∈ ids ∧ s.jobs j = some r ∧ r.status = .queued ∧ c = candidate policy now j r := by
  simp only [candidates, List.mem_filterMap]
  constructor
  · rintro ⟨j, hj, hc⟩
    split at hc
    · rename_i r hr
      split at hc
      · rename_i hq
        exact ⟨j, r, hj, hr, hq, (Option.some.inj hc).symm⟩
      · cases hc
    · cases hc
  · rintro ⟨j, r, hj, hr, hq, rfl⟩
    exact ⟨j, hj, by simp [hr, hq]⟩

theorem queued_iff {s : Redis} {j : JobId} :
    Queued s j ↔ ∃ r, s.jobs j = some r ∧ r.status = .queued := by
  simp [Queued, Redis.statusOf]

theorem candidates_cons_queued {policy : QueuePolicy} {now : Time} {s : Redis} {j : JobId}
    {rest : List JobId} {r : JobRecord} (hj : s.jobs j = some r) (hr : r.status = .queued) :
    candidates policy now s (j :: rest) =
      candidate policy now j r :: candidates policy now s rest := by
  simp [candidates, hj, hr]

theorem candidates_cons_dirty {policy : QueuePolicy} {now : Time} {s : Redis} {j : JobId}
    {rest : List JobId} (h : ¬ Queued s j) :
    candidates policy now s (j :: rest) = candidates policy now s rest := by
  simp only [candidates]
  apply List.filterMap_cons_none
  split
  · rename_i r hr
    exact if_neg fun hq => h (queued_iff.mpr ⟨r, hr, hq⟩)
  · rfl

theorem cleaned_nil (s : Redis) : cleaned s [] = s := by simp [cleaned]

theorem cleaned_cons_queued {s : Redis} {j : JobId} {rest : List JobId} (h : Queued s j) :
    cleaned s (j :: rest) = cleaned s rest := by
  have hset : (s.pending.filter fun i => i ∈ j :: rest → Queued s i) =
      s.pending.filter fun i => i ∈ rest → Queued s i := by
    ext i
    simp only [Finset.mem_filter, List.mem_cons]
    constructor
    · exact fun hi => ⟨hi.1, fun hr => hi.2 (Or.inr hr)⟩
    · refine fun hi => ⟨hi.1, fun hr => ?_⟩
      rcases hr with rfl | hr
      · exact h
      · exact hi.2 hr
  simp only [cleaned, hset]

theorem cleaned_cons_dirty {s : Redis} {j : JobId} {rest : List JobId} (h : ¬ Queued s j) :
    cleaned s (j :: rest) = cleaned { s with pending := s.pending.erase j } rest := by
  have hset : (s.pending.filter fun i => i ∈ j :: rest → Queued s i) =
      (s.pending.erase j).filter fun i => i ∈ rest → Queued s i := by
    ext i
    simp only [Finset.mem_filter, Finset.mem_erase, List.mem_cons]
    constructor
    · refine fun hi => ⟨⟨fun he => ?_, hi.1⟩, fun hr => hi.2 (Or.inr hr)⟩
      exact h (he ▸ hi.2 (Or.inl he))
    · exact fun hi => ⟨hi.1.2, fun hr => hi.2 (hr.resolve_left hi.1.1)⟩
  show { s with pending := _ } = { s with pending := _ }
  simp only [hset]
  rfl

/-- Nobody else between the commands, so the loop is a filter, and a removal of dirty data. -/
theorem collectCandidates_runs {policy : QueuePolicy} {now : Time} {ids : List JobId}
    {w w' : World} {cs : List Candidate} (h : Runs (collectCandidates policy now ids) w cs w') :
    cs = candidates policy now w.redis ids ∧ w' = { w with redis := cleaned w.redis ids } := by
  induction ids generalizing w cs w' with
  | nil =>
    obtain ⟨rfl, rfl⟩ := runs_ret.mp h
    exact ⟨rfl, by rw [cleaned_nil]⟩
  | cons j rest ih =>
    simp only [collectCandidates, getJob, Prog.perform_bind] at h
    obtain ⟨record, _, ⟨rfl, rfl⟩, h⟩ := runs_redis.mp h
    cases hj : w.redis.jobs j with
    | none =>
      have hq : ¬ Queued w.redis j := by simp [queued_iff, hj]
      simp only [hj] at h
      obtain ⟨_, _, ⟨-, rfl⟩, h⟩ := runs_redis.mp h
      obtain ⟨rfl, rfl⟩ := ih h
      rw [candidates_cons_dirty hq, cleaned_cons_dirty hq]
      exact ⟨rfl, rfl⟩
    | some r =>
      simp only [hj] at h
      by_cases hr : r.status = .queued
      · rw [if_pos hr] at h
        obtain ⟨others, w₁, hrest, h⟩ := runs_bind.mp h
        obtain ⟨rfl, rfl⟩ := ih hrest
        obtain ⟨rfl, rfl⟩ := runs_ret.mp h
        have hq := queued_iff.mpr ⟨r, hj, hr⟩
        rw [candidates_cons_queued hj hr, cleaned_cons_queued hq]
        exact ⟨rfl, rfl⟩
      · have hq : ¬ Queued w.redis j := by simp [queued_iff, hj, hr]
        simp only [if_neg hr] at h
        obtain ⟨_, _, ⟨-, rfl⟩, h⟩ := runs_redis.mp h
        obtain ⟨rfl, rfl⟩ := ih h
        rw [candidates_cons_dirty hq, cleaned_cons_dirty hq]
        exact ⟨rfl, rfl⟩

/-- The loop always gets to its end. -/
theorem runs_collectCandidates (policy : QueuePolicy) (now : Time) (ids : List JobId) (w : World) :
    Runs (collectCandidates policy now ids) w (candidates policy now w.redis ids)
      { w with redis := cleaned w.redis ids } := by
  induction ids generalizing w with
  | nil => exact runs_ret.mpr ⟨rfl, by rw [cleaned_nil]⟩
  | cons j rest ih =>
    simp only [collectCandidates, getJob, Prog.perform_bind]
    refine runs_redis.mpr ⟨w.redis.jobs j, w.redis, ⟨rfl, rfl⟩, ?_⟩
    cases hj : w.redis.jobs j with
    | none =>
      have hq : ¬ Queued w.redis j := by simp [queued_iff, hj]
      rw [candidates_cons_dirty hq, cleaned_cons_dirty hq]
      exact runs_redis.mpr ⟨_, _, ⟨rfl, rfl⟩, ih _⟩
    | some r =>
      by_cases hr : r.status = .queued
      · have hq := queued_iff.mpr ⟨r, hj, hr⟩
        rw [candidates_cons_queued hj hr, cleaned_cons_queued hq]
        simp only [if_pos hr]
        exact runs_bind.mpr ⟨_, _, ih w, runs_ret.mpr ⟨rfl, rfl⟩⟩
      · have hq : ¬ Queued w.redis j := by simp [queued_iff, hj, hr]
        rw [candidates_cons_dirty hq, cleaned_cons_dirty hq]
        simp only [if_neg hr]
        exact runs_redis.mpr ⟨_, _, ⟨rfl, rfl⟩, ih _⟩

/-- Without dirty data nothing is removed. -/
theorem cleaned_of_queued {s : Redis} (ids : List JobId) (h : ∀ j ∈ s.pending, Queued s j) :
    cleaned s ids = s := by
  have hset : (s.pending.filter fun j => j ∈ ids → Queued s j) = s.pending :=
    Finset.filter_true_of_mem fun j hj _ => h j hj
  simp only [cleaned, hset]

/-- The chosen job as it is stored by the claim. -/
def started (chosen : Candidate) (startedAt : Time) : JobRecord :=
  { chosen.record with status := .running, startedAt := some startedAt }

/-- Redis after a claim: the chosen job is out of the pending set, stored as running and leased,
and the streak goes on or starts again. -/
def claimed (s : Redis) (chosen : Candidate) (startedAt expires : Time) : Redis :=
  { s.setJob (started chosen startedAt) with
    pending := s.pending.erase chosen.jobId
    streak := some (if chosen.priorityClass.criticalHigh then s.streak.getD 0 + 1 else 0)
    leases := s.leases.add chosen.jobId expires }

theorem claimed_jobs_self (s : Redis) (chosen : Candidate) (startedAt expires : Time) :
    (claimed s chosen startedAt expires).jobs chosen.record.jobId =
      some (started chosen startedAt) :=
  s.setJob_self (started chosen startedAt)

theorem claimed_jobs_of_ne (s : Redis) {chosen : Candidate} (startedAt expires : Time)
    {i : JobId} (hi : i ≠ chosen.record.jobId) :
    (claimed s chosen startedAt expires).jobs i = s.jobs i :=
  s.setJob_of_ne (started chosen startedAt) hi

/-- What a claim that finds a candidate does, with `ids` as read from the pending set and `now`
the time the candidates are ranked at. -/
structure Claims (policy : QueuePolicy) (leaseSeconds : Int) (w : World) (record : JobRecord)
    (w' : World) (ids : List JobId) (now : Time) (chosen : Candidate) : Prop where
  nodup : ids.Nodup
  ids_eq : ids.toFinset = w.redis.pending
  now_bounds : w.clock ≤ now ∧ now ≤ w'.clock
  chosen_eq :
    choose policy (w.redis.streak.getD 0) (candidates policy now w.redis ids) = some chosen
  redis_eq : ∃ startedAt leasedAt, record = started chosen startedAt ∧
    w'.redis = claimed (cleaned w.redis ids) chosen startedAt (leasedAt + leaseSeconds)

/-- What a claim writes: the record, the streak and the lease, whose times are read one after the
other. -/
theorem startJob_runs {leaseSeconds : Int} {chosen : Candidate} {w w' : World}
    {record : JobRecord} (h : Runs (startJob leaseSeconds chosen) w record w') :
    ∃ startedAt leasedAt, record = started chosen startedAt ∧ w.clock ≤ w'.clock ∧
      w'.redis = { w.redis.setJob (started chosen startedAt) with
        streak := some (if chosen.priorityClass.criticalHigh then w.redis.streak.getD 0 + 1 else 0)
        leases := w.redis.leases.add chosen.jobId (leasedAt + leaseSeconds) } := by
  simp only [startJob, leaseJob, saveJob, Prog.perform_bind] at h
  split at h <;> rename_i hc
  · obtain ⟨_, _, rfl, h⟩ := runs_redis.mp h
    obtain ⟨startedAt, ht, h⟩ := runs_now.mp h
    obtain ⟨_, _, rfl, h⟩ := runs_redis.mp h
    obtain ⟨leasedAt, ht', h⟩ := runs_now.mp h
    obtain ⟨_, _, rfl, h⟩ := runs_redis.mp h
    obtain ⟨rfl, rfl⟩ := runs_ret.mp h
    refine ⟨startedAt, leasedAt, rfl, le_trans ht ht', ?_⟩
    simp only [hc, if_true]
    rfl
  · obtain ⟨_, _, rfl, h⟩ := runs_redis.mp h
    obtain ⟨startedAt, ht, h⟩ := runs_now.mp h
    obtain ⟨_, _, rfl, h⟩ := runs_redis.mp h
    obtain ⟨leasedAt, ht', h⟩ := runs_now.mp h
    obtain ⟨_, _, rfl, h⟩ := runs_redis.mp h
    obtain ⟨rfl, rfl⟩ := runs_ret.mp h
    refine ⟨startedAt, leasedAt, rfl, le_trans ht ht', ?_⟩
    simp only [hc]
    rfl

/-- Among candidates one is always chosen. -/
theorem choose_isSome {policy : QueuePolicy} {streak : Nat} {cs : List Candidate}
    (h : cs ≠ []) : choose policy streak cs ≠ none := by
  have hpick : pickByPriority cs ≠ none := by
    rw [pickByPriority, Ne, List.argmax_eq_none]
    exact h
  unfold choose
  split
  · split
    · simp
    · exact hpick
  · exact hpick

/-- **A claim that runs alone.** It returns no job only if none is queued in the pending set. -/
theorem claimNextJob_runs {policy : QueuePolicy} {leaseSeconds : Int} {w w' : World}
    {o : Option JobRecord} (h : Runs (claimNextJob leaseSeconds (some policy)) w o w') :
    (∃ ids now, o = none ∧ ids.toFinset = w.redis.pending ∧ w.clock ≤ now ∧
      (∀ j ∈ w.redis.pending, ¬ Queued w.redis j) ∧
      w' = ⟨cleaned w.redis ids, now⟩) ∨
    ∃ record ids now chosen, o = some record ∧
      Claims policy leaseSeconds w record w' ids now chosen := by
  simp only [claimNextJob, Prog.perform_bind, Option.getD_some] at h
  obtain ⟨ids, _, ⟨⟨hnodup, hids⟩, rfl⟩, h⟩ := runs_redis.mp h
  -- without pending jobs the clock is not read
  by_cases hempty : ids.isEmpty
  · rw [if_pos hempty] at h
    obtain ⟨rfl, rfl⟩ := runs_ret.mp h
    obtain rfl := List.isEmpty_iff.mp hempty
    refine Or.inl ⟨[], w.clock, rfl, hids, le_rfl, ?_, by rw [cleaned_nil]⟩
    simp [← hids]
  rw [if_neg hempty] at h
  obtain ⟨now, hnow, h⟩ := runs_now.mp h
  obtain ⟨cs, _, hcs, h⟩ := runs_bind.mp h
  obtain ⟨rfl, rfl⟩ := collectCandidates_runs hcs
  by_cases hnone : (candidates policy now w.redis ids).isEmpty
  · rw [if_pos hnone] at h
    obtain ⟨rfl, rfl⟩ := runs_ret.mp h
    refine Or.inl ⟨ids, now, rfl, hids, hnow, fun j hj hq => ?_, rfl⟩
    obtain ⟨r, hr, hs⟩ := queued_iff.mp hq
    have hmem : candidate policy now j r ∈ candidates policy now w.redis ids :=
      mem_candidates.mpr ⟨j, r, by simpa [← hids] using hj, hr, hs, rfl⟩
    rw [List.isEmpty_iff.mp hnone] at hmem
    cases hmem
  rw [if_neg hnone] at h
  obtain ⟨streak, _, ⟨rfl, rfl⟩, h⟩ := runs_redis.mp h
  split at h
  · rename_i hchoose
    exact absurd hchoose (choose_isSome fun he => hnone (List.isEmpty_iff.mpr he))
  · rename_i chosen hchoose
    obtain ⟨j, r, hj, hr, hq, rfl⟩ := mem_candidates.mp (choose_mem hchoose)
    simp only at h
    obtain ⟨removed, _, ⟨hremoved, rfl⟩, h⟩ := runs_redis.mp h
    -- nobody else can have taken the chosen job, so `SREM` answers that it was there
    have hmem : j ∈ (cleaned w.redis ids).pending := by
      have hqj := queued_iff.mpr ⟨r, hr, hq⟩
      simpa [cleaned, hqj, ← hids] using hj
    rw [if_pos (by simpa [candidate] using hremoved.trans (decide_eq_true hmem))] at h
    obtain ⟨record, w₁, hstart, h⟩ := runs_bind.mp h
    obtain ⟨rfl, rfl⟩ := runs_ret.mp h
    obtain ⟨startedAt, leasedAt, rfl, hclock, hredis⟩ := startJob_runs hstart
    exact Or.inr ⟨_, ids, now, _, rfl, hnodup, hids, ⟨hnow, hclock⟩, hchoose, startedAt, leasedAt,
      rfl, hredis⟩

/-- A claim can choose whatever the rules choose. -/
theorem runs_claimNextJob (policy : QueuePolicy) (leaseSeconds : Int) {w : World}
    {ids : List JobId} {chosen : Candidate} (hnodup : ids.Nodup)
    (hids : ids.toFinset = w.redis.pending)
    (hchosen : choose policy (w.redis.streak.getD 0) (candidates policy w.clock w.redis ids) =
      some chosen) :
    Runs (claimNextJob leaseSeconds (some policy)) w (some (started chosen w.clock))
      { w with
        redis := claimed (cleaned w.redis ids) chosen w.clock (w.clock + leaseSeconds) } := by
  obtain ⟨j, r, hj, hr, hq, rfl⟩ := mem_candidates.mp (choose_mem hchosen)
  have hmem : candidate policy w.clock j r ∈ candidates policy w.clock w.redis ids :=
    mem_candidates.mpr ⟨j, r, hj, hr, hq, rfl⟩
  have hpending : j ∈ (cleaned w.redis ids).pending := by
    have hqj := queued_iff.mpr ⟨r, hr, hq⟩
    simpa [cleaned, hqj, ← hids] using hj
  simp only [claimNextJob, Prog.perform_bind, Option.getD_some]
  refine runs_redis.mpr ⟨ids, w.redis, ⟨⟨hnodup, hids⟩, rfl⟩, ?_⟩
  rw [if_neg fun h => by rw [List.isEmpty_iff.mp h] at hj; cases hj]
  refine runs_now.mpr ⟨w.clock, le_rfl, runs_bind.mpr ⟨_, _, runs_collectCandidates .., ?_⟩⟩
  rw [if_neg fun h => by rw [List.isEmpty_iff.mp h] at hmem; cases hmem]
  refine runs_redis.mpr ⟨w.redis.streak, _, ⟨rfl, rfl⟩, ?_⟩
  rw [hchosen]
  simp only
  refine runs_redis.mpr ⟨true, _, ⟨(decide_eq_true hpending).symm, rfl⟩, ?_⟩
  rw [if_pos rfl]
  refine runs_bind.mpr ⟨_, _, ?_, runs_ret.mpr ⟨rfl, rfl⟩⟩
  simp only [startJob, leaseJob, saveJob, Prog.perform_bind, claimed]
  split <;> rename_i hc
  · exact runs_redis.mpr ⟨(), _, rfl, runs_now.mpr ⟨w.clock, le_rfl, runs_redis.mpr ⟨(), _, rfl,
      runs_now.mpr ⟨w.clock, le_rfl, runs_redis.mpr ⟨(), _, rfl, runs_ret.mpr ⟨rfl, rfl⟩⟩⟩⟩⟩⟩
  · exact runs_redis.mpr ⟨(), _, rfl, runs_now.mpr ⟨w.clock, le_rfl, runs_redis.mpr ⟨(), _, rfl,
      runs_now.mpr ⟨w.clock, le_rfl, runs_redis.mpr ⟨(), _, rfl, runs_ret.mpr ⟨rfl, rfl⟩⟩⟩⟩⟩⟩

/-- A claim of an empty queue. -/
theorem runs_claimNextJob_empty (policy : QueuePolicy) (leaseSeconds : Int) {w : World}
    (hpending : w.redis.pending = ∅) :
    Runs (claimNextJob leaseSeconds (some policy)) w none w := by
  simp only [claimNextJob, Prog.perform_bind]
  refine runs_redis.mpr ⟨[], w.redis, ⟨⟨.nil, by rw [hpending]; rfl⟩, rfl⟩, ?_⟩
  exact runs_ret.mpr ⟨rfl, rfl⟩

/-! ## Finishing and putting back -/

/-- Redis after `complete_job` or `fail_job`: the record is the final one, the lease and the payload
are gone. A place in the pending set stays. -/
def finished (s : Redis) (j : JobId) (record : JobRecord) : Redis :=
  { s.setJob record with
    leases := s.leases.rem j
    payloads := Function.update s.payloads j none }

/-- A job that is gone is left alone. -/
theorem finishJob_runs {j : JobId} {finish : JobRecord → Time → JobRecord} {w w' : World}
    {u : Unit} :
    Runs (finishJob j finish) w u w' ↔
      w.redis.jobs j = none ∧ w' = w ∨
      ∃ r t, w.redis.jobs j = some r ∧ w.clock ≤ t ∧ w' = ⟨finished w.redis j (finish r t), t⟩ := by
  simp only [finishJob, getJob, saveJob, clearExecutionPayload, Prog.perform_bind]
  constructor
  · intro h
    obtain ⟨_, _, ⟨rfl, rfl⟩, h⟩ := runs_redis.mp h
    cases hj : w.redis.jobs j with
    | none =>
      rw [hj] at h
      exact Or.inl ⟨rfl, (runs_ret.mp h).2⟩
    | some r =>
      rw [hj] at h
      obtain ⟨t, ht, h⟩ := runs_now.mp h
      obtain ⟨_, _, rfl, h⟩ := runs_redis.mp h
      obtain ⟨_, _, rfl, h⟩ := runs_redis.mp h
      obtain ⟨_, _, rfl, h⟩ := runs_redis.mp h
      exact Or.inr ⟨r, t, rfl, ht, (runs_ret.mp h).2⟩
  · rintro (⟨hj, rfl⟩ | ⟨r, t, hj, ht, rfl⟩)
    · refine runs_redis.mpr ⟨none, w'.redis, ⟨hj.symm, rfl⟩, ?_⟩
      exact runs_ret.mpr ⟨rfl, rfl⟩
    · refine runs_redis.mpr ⟨some r, w.redis, ⟨hj.symm, rfl⟩, runs_now.mpr ⟨t, ht, ?_⟩⟩
      exact runs_redis.mpr ⟨(), _, rfl, runs_redis.mpr ⟨(), _, rfl, runs_redis.mpr ⟨(), _, rfl,
        runs_ret.mpr ⟨rfl, rfl⟩⟩⟩⟩

/-- Redis after `requeue_job`. -/
def requeued (s : Redis) (j : JobId) : Redis :=
  match s.jobs j with
  | none => s
  | some r =>
    { s.setJob { r with status := .queued } with
      leases := s.leases.rem j
      pending := insert j s.pending }

theorem requeued_of_some {s : Redis} {j : JobId} {r : JobRecord} (h : s.jobs j = some r) :
    requeued s j =
      { s.setJob { r with status := .queued } with
        leases := s.leases.rem j
        pending := insert j s.pending } := by
  rw [requeued, h]

/-- A job that is gone is left alone. Any other is queued again, whatever its status. -/
theorem requeueJob_runs {j : JobId} {w w' : World} {u : Unit} :
    Runs (requeueJob j) w u w' ↔ w' = { w with redis := requeued w.redis j } := by
  simp only [requeueJob, getJob, saveJob, Prog.perform_bind]
  cases hj : w.redis.jobs j with
  | none =>
    rw [requeued, hj]
    constructor
    · intro h
      obtain ⟨_, _, ⟨rfl, rfl⟩, h⟩ := runs_redis.mp h
      rw [hj] at h
      exact (runs_ret.mp h).2
    · rintro rfl
      exact runs_redis.mpr ⟨none, w.redis, ⟨hj.symm, rfl⟩, runs_ret.mpr ⟨rfl, rfl⟩⟩
  | some r =>
    rw [requeued_of_some hj]
    constructor
    · intro h
      obtain ⟨_, _, ⟨rfl, rfl⟩, h⟩ := runs_redis.mp h
      rw [hj] at h
      obtain ⟨_, _, rfl, h⟩ := runs_redis.mp h
      obtain ⟨_, _, rfl, h⟩ := runs_redis.mp h
      obtain ⟨_, _, rfl, h⟩ := runs_redis.mp h
      exact (runs_ret.mp h).2
    · rintro rfl
      refine runs_redis.mpr ⟨some r, w.redis, ⟨hj.symm, rfl⟩, ?_⟩
      exact runs_redis.mpr ⟨(), _, rfl, runs_redis.mpr ⟨(), _, rfl, runs_redis.mpr ⟨(), _, rfl,
        runs_ret.mpr ⟨rfl, rfl⟩⟩⟩⟩

/-- So are several, one after another. -/
theorem requeueAll_runs {ids : List JobId} {w w' : World} {u : Unit} :
    Runs (requeueAll ids) w u w' ↔ w' = { w with redis := ids.foldl requeued w.redis } := by
  induction ids generalizing w with
  | nil => simp [requeueAll]
  | cons j rest ih =>
    simp only [requeueAll, runs_bind, requeueJob_runs, ih, List.foldl_cons]
    constructor
    · rintro ⟨-, _, rfl, rfl⟩
      rfl
    · rintro rfl
      exact ⟨(), _, rfl, rfl⟩

/-- The leases that have expired by the time that is read. -/
theorem reapExpiredLeases_runs {ids : List JobId} {w w' : World} :
    Runs reapExpiredLeases w ids w' ↔ ∃ t, w.clock ≤ t ∧
      ids = w.redis.leases.rangeByScore 0 t ∧ w' = ⟨ids.foldl requeued w.redis, t⟩ := by
  simp only [reapExpiredLeases, Prog.perform_bind]
  constructor
  · intro h
    obtain ⟨t, ht, h⟩ := runs_now.mp h
    obtain ⟨_, _, ⟨rfl, rfl⟩, h⟩ := runs_redis.mp h
    obtain ⟨_, _, hall, h⟩ := runs_bind.mp h
    obtain rfl := requeueAll_runs.mp hall
    obtain ⟨rfl, rfl⟩ := runs_ret.mp h
    exact ⟨t, ht, rfl, rfl⟩
  · rintro ⟨t, ht, rfl, rfl⟩
    refine runs_now.mpr ⟨t, ht, runs_redis.mpr ⟨_, w.redis, ⟨rfl, rfl⟩, ?_⟩⟩
    exact runs_bind.mpr ⟨(), _, requeueAll_runs.mpr rfl, runs_ret.mpr ⟨rfl, rfl⟩⟩

/-! ## Submitting -/

/-- A new job, at the place that the pending set has by then. -/
theorem enqueueNew_runs {preview : PreviewResponse} {id : JobId} {w w' : World}
    {record : JobRecord} (h : Runs (enqueueNew preview id) w record w') :
    ∃ t, w.clock ≤ t ∧ record = newRecord preview id w.redis.pending.card t ∧
      w' = ⟨w.redis.enqueuePipeline record preview.gatewayRequest, t⟩ := by
  simp only [enqueueNew, Prog.perform_bind] at h
  obtain ⟨_, _, ⟨rfl, rfl⟩, h⟩ := runs_redis.mp h
  obtain ⟨t, ht, h⟩ := runs_now.mp h
  obtain ⟨_, _, rfl, h⟩ := runs_redis.mp h
  obtain ⟨rfl, rfl⟩ := runs_ret.mp h
  exact ⟨t, ht, rfl, rfl⟩

/-- What a submission that finds no job behind its key does. -/
structure Submits (preview : PreviewResponse) (key : String) (w : World) (record : JobRecord)
    (w' : World) (id : JobId) (t : Time) : Prop where
  fresh : Fresh w.redis id
  clock : w.clock ≤ t
  record_eq : record = newRecord preview id w.redis.pending.card t
  world_eq : w' =
    ⟨(w.redis.setIdempotency key id).enqueuePipeline record preview.gatewayRequest, t⟩

/-- **A submission that runs alone** returns the job behind its key, or makes a new one. -/
theorem enqueue_runs {preview : PreviewResponse} {key : String} {w w' : World}
    {record : JobRecord} (h : Runs (enqueue preview key) w record w') :
    w' = w ∧ (∃ id, w.redis.jobs id = some record) ∨
      ∃ id t, Submits preview key w record w' id t := by
  simp only [enqueue, Prog.perform_bind] at h
  obtain ⟨id, hid, h⟩ := runs_newJobId.mp h
  obtain ⟨created, r, hr, h⟩ := runs_redis.mp h
  cases hkey : w.redis.idempotency key with
  | none =>
    simp only [Redis.Answers, hkey] at hr
    obtain ⟨rfl, rfl⟩ := hr
    rw [if_pos rfl] at h
    obtain ⟨t, ht, hrecord, rfl⟩ := enqueueNew_runs h
    exact Or.inr ⟨id, t, hid, ht, hrecord, rfl⟩
  | some id' =>
    simp only [Redis.Answers, hkey] at hr
    obtain ⟨rfl, rfl⟩ := hr
    simp only [Bool.false_eq_true, if_false, enqueueExisting, Prog.perform_bind] at h
    obtain ⟨_, _, ⟨rfl, rfl⟩, h⟩ := runs_redis.mp h
    simp only [hkey, getJob, Prog.perform_bind] at h
    obtain ⟨_, _, ⟨rfl, rfl⟩, h⟩ := runs_redis.mp h
    cases hjob : w.redis.jobs id' with
    | some record' =>
      simp only [hjob] at h
      obtain ⟨rfl, rfl⟩ := runs_ret.mp h
      exact Or.inl ⟨rfl, id', hjob⟩
    | none =>
      simp only [hjob] at h
      obtain ⟨id₂, hid₂, h⟩ := runs_newJobId.mp h
      obtain ⟨_, _, rfl, h⟩ := runs_redis.mp h
      obtain ⟨t, ht, hrecord, rfl⟩ := enqueueNew_runs h
      exact Or.inr ⟨id₂, t, hid₂, ht, hrecord, rfl⟩

/-- A submission under a new key makes a job. -/
theorem runs_enqueue (preview : PreviewResponse) {key : String} {w : World} {id : JobId}
    (hid : Fresh w.redis id) (hkey : w.redis.idempotency key = none) :
    Runs (enqueue preview key) w (newRecord preview id w.redis.pending.card w.clock)
      ⟨(w.redis.setIdempotency key id).enqueuePipeline
        (newRecord preview id w.redis.pending.card w.clock) preview.gatewayRequest, w.clock⟩ := by
  simp only [enqueue, Prog.perform_bind]
  refine runs_newJobId.mpr ⟨id, hid, runs_redis.mpr ⟨true, w.redis.setIdempotency key id, ?_, ?_⟩⟩
  · simp only [Redis.Answers, hkey, and_self]
  · rw [if_pos rfl]
    simp only [enqueueNew, Prog.perform_bind]
    exact runs_redis.mpr ⟨w.redis.pending.card, _, ⟨rfl, rfl⟩, runs_now.mpr ⟨w.clock, le_rfl,
      runs_redis.mpr ⟨(), _, rfl, runs_ret.mpr ⟨rfl, rfl⟩⟩⟩⟩

end Sequential

end PolyGate.Automation
