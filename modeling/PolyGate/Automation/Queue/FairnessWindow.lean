import Mathlib.Data.List.DropRight
import PolyGate.Automation.Queue.Fairness

/-!
# `Automation/Queue/FairnessWindow.lean` — what the streak counts, and what it is worth

The counter is read before a claim chooses and written after it has chosen, and a claim by rank
may itself take a normal job. Still it counts the critical and high claims since the last other
one; so, while some normal or low job has waited long enough at every claim, the claims cannot go
past the threshold, and the one that may not go on takes the job that has waited longest.

The clock may be set to anything between two calls.
-/

namespace PolyGate.Automation.FairnessWindow

open Lib PolyGate.Automation.Sequential

/-! ## Runs of the store -/

inductive Op
  /-- the wall clock goes on, or is put back -/
  | clock
  | enqueue
  | claim (result : Option JobRecord)
  | complete
  | fail
  | requeue

inductive Step (policy : QueuePolicy) (w : World) : Op → World → Prop
  | clock {t : Time} : Step policy w .clock { w with clock := t }
  | enqueue {preview : PreviewResponse} {key : String} {record : JobRecord} {w' : World}
      (runs : Runs (enqueue preview key) w record w') : Step policy w .enqueue w'
  | claim {leaseSeconds : Int} {result : Option JobRecord} {w' : World}
      (runs : Runs (claimNextJob leaseSeconds (some policy)) w result w') :
      Step policy w (.claim result) w'
  | complete {j : JobId} {result : JsonText} {w' : World}
      (runs : Runs (completeJob j result) w () w') : Step policy w .complete w'
  | fail {j : JobId} {error : String} {w' : World} (runs : Runs (failJob j error) w () w') :
      Step policy w .fail w'
  | requeue {j : JobId} {w' : World} (runs : Runs (requeueJob j) w () w') :
      Step policy w .requeue w'

/-- Whether the job that was claimed is critical or high. -/
def Op.criticalHigh : Op → Option Bool
  | .claim (some r) => some r.priority.cls.criticalHigh
  | _ => none

/-- The claims of a run, in order. -/
def classes (ts : List (World × Op × World)) : List Bool := ts.filterMap (·.2.1.criticalHigh)

/-- The length of the trailing run of critical and high claims. -/
def trailing (cs : List Bool) : Nat := (cs.rtakeWhile id).length

def streak (w : World) : Nat := w.redis.streak.getD 0

/-- The job is pending, and normal or low. -/
structure Ordinary (w : World) (r : JobRecord) : Prop where
  pending : r.jobId ∈ w.redis.pending
  job : w.redis.jobs r.jobId = some r
  queued : r.status = .queued
  ordinary : r.priority.cls.criticalHigh = false

/-- Some pending normal or low job has waited `starvation_wait_seconds`. -/
def Starving (policy : QueuePolicy) (w : World) : Prop :=
  ∃ r, Ordinary w r ∧ (policy.starvationWaitSeconds : Time) ≤ w.clock - r.createdAt

/-! ## Counting claims -/

section Counting
variable {cs : List Bool}

theorem trailing_true : trailing (cs ++ [true]) = trailing cs + 1 := by simp [trailing]

theorem trailing_false : trailing (cs ++ [false]) = 0 := by simp [trailing]

theorem le_trailing {n : Nat} (h : List.replicate n true <:+ cs) : n ≤ trailing cs := by
  obtain ⟨pre, rfl⟩ := h
  induction n with
  | zero => exact Nat.zero_le _
  | succ n ih =>
    rw [List.replicate_succ', ← List.append_assoc, trailing_true]
    exact Nat.succ_le_succ ih

/-- A longer block of critical and high claims ends with the last claim, or was there before. -/
theorem block_concat {n : Nat} {c : Bool}
    (h : List.replicate (n + 1) true <:+: cs ++ [c]) :
    (c = true ∧ n ≤ trailing cs) ∨ List.replicate (n + 1) true <:+: cs := by
  rcases List.infix_concat_iff.mp h with hsuffix | hinfix
  · left
    rw [List.replicate_succ'] at hsuffix
    obtain ⟨pre, hpre⟩ := hsuffix
    rw [← List.append_assoc] at hpre
    obtain ⟨rfl, hc⟩ := List.append_inj' hpre rfl
    exact ⟨(List.singleton_inj.mp hc).symm, le_trailing (List.suffix_append ..)⟩
  · exact Or.inr hinfix

end Counting

/-! ## One operation -/

section Steps
variable {policy : QueuePolicy} {w w' : World} {op : Op}

/-- The streak after a claim. -/
def counted (n : Nat) : Option Bool → Nat
  | none => n
  | some true => n + 1
  | some false => 0

theorem streak_finishJob {j : JobId} {finish : JobRecord → Time → JobRecord}
    (h : Runs (finishJob j finish) w () w') : streak w' = streak w := by
  rcases finishJob_runs.mp h with ⟨-, rfl⟩ | ⟨r, t, -, -, rfl⟩
  · rfl
  · rfl

/-- Only claims move the counter. -/
theorem Step.streak (h : Step policy w op w') :
    FairnessWindow.streak w' = counted (FairnessWindow.streak w) op.criticalHigh := by
  cases h with
  | clock => rfl
  | enqueue runs =>
    rcases enqueue_runs runs with ⟨rfl, -⟩ | ⟨id, t, hsubmits⟩
    · rfl
    · obtain ⟨-, -, -, rfl⟩ := hsubmits
      rfl
  | @claim leaseSeconds result _ runs =>
    rcases claimNextJob_runs runs with
      ⟨ids, now, rfl, -, -, -, rfl⟩ | ⟨record, ids, now, chosen, rfl, hclaims⟩
    · rfl
    · obtain ⟨startedAt, leasedAt, rfl, hredis⟩ := hclaims.redis_eq
      obtain ⟨j, r, -, -, -, rfl⟩ := mem_candidates.mp (choose_mem hclaims.chosen_eq)
      unfold FairnessWindow.streak
      rw [hredis]
      show Option.getD (some _) 0 = counted _ (some r.priority.cls.criticalHigh)
      cases hcls : r.priority.cls.criticalHigh with
      | true => simp [candidate, hcls, counted, cleaned]
      | false => simp [candidate, hcls, counted]
  | complete runs => exact streak_finishJob runs
  | fail runs => exact streak_finishJob runs
  | requeue runs =>
    obtain rfl := requeueJob_runs.mp runs
    unfold FairnessWindow.streak requeued
    dsimp only
    split
    · rfl
    · rfl

/-- **A claim that the streak decides.** It takes a normal or low job, and none of those has
waited longer. -/
theorem forced {leaseSeconds : Int} {result : Option JobRecord}
    (runs : Runs (claimNextJob leaseSeconds (some policy)) w result w')
    (hstreak : policy.starvationStreakThreshold ≤ streak w) (hstarving : Starving policy w) :
    ∃ r, result = some r ∧ r.priority.cls.criticalHigh = false ∧
      ∀ r', Ordinary w r' → r.createdAt ≤ r'.createdAt := by
  obtain ⟨r₀, hordinary, hwaited⟩ := hstarving
  rcases claimNextJob_runs runs with
    ⟨ids, now, -, -, -, hnone, -⟩ | ⟨record, ids, now, chosen, rfl, hclaims⟩
  · exact absurd (queued_iff.mpr ⟨r₀, hordinary.job, hordinary.queued⟩) (hnone _ hordinary.pending)
  obtain ⟨startedAt, leasedAt, rfl, -⟩ := hclaims.redis_eq
  have hchosen := hclaims.chosen_eq
  have hmem : ∀ r', Ordinary w r' →
      candidate policy now r'.jobId r' ∈ candidates policy now w.redis ids := by
    intro r' h
    refine mem_candidates.mpr ⟨r'.jobId, r', ?_, h.job, h.queued, rfl⟩
    rw [← List.mem_toFinset, hclaims.ids_eq]
    exact h.pending
  have hstarved : ∀ r', Ordinary w r' → (policy.starvationWaitSeconds : Time) ≤ now - r'.createdAt →
      candidate policy now r'.jobId r' ∈ starved policy (candidates policy now w.redis ids) := by
    intro r' h hlong
    rw [starved, List.mem_filter]
    refine ⟨hmem r' h, ?_⟩
    simp only [candidate, h.ordinary, Bool.not_false, Bool.true_and]
    exact decide_eq_true hlong
  have hnow := hclaims.now_bounds.1
  -- the streak is over, and somebody starves, so one of the starved is chosen
  obtain ⟨hin, hlongest⟩ := Fairness.mem_starved hchosen
    (hstarved r₀ hordinary (by linarith)) hstreak
  obtain ⟨j, r, -, -, -, rfl⟩ := mem_candidates.mp (choose_mem hchosen)
  rw [starved, List.mem_filter, Bool.and_eq_true, Bool.not_eq_true'] at hin
  refine ⟨_, rfl, hin.2.1, fun r' h => ?_⟩
  show r.createdAt ≤ r'.createdAt
  by_cases hlong : (policy.starvationWaitSeconds : Time) ≤ now - r'.createdAt
  · have hle := (Fairness.mem_starved hchosen (hstarved r' h hlong) hstreak).2
    simp only [candidate] at hle
    linarith
  · -- who has not waited long enough has waited less than the job that is taken
    have hwait : (policy.starvationWaitSeconds : Time) ≤ now - r.createdAt :=
      of_decide_eq_true hin.2.2
    linarith [not_le.mp hlong]

end Steps

/-! ## Runs -/

section Law
variable {policy : QueuePolicy} {w₀ w : World} {ts us : List (World × Op × World)}

/-- What the counter should be: the trailing run, and what was there before it if nothing ended
it. -/
def expected (initial : Nat) (cs : List Bool) : Nat :=
  trailing cs + if false ∈ cs then 0 else initial

theorem expected_concat (n : Nat) (cs : List Bool) (c : Bool) :
    expected n (cs ++ [c]) = counted (expected n cs) (some c) := by
  unfold expected
  cases c with
  | true =>
    rw [trailing_true]
    simp only [List.mem_append, List.mem_singleton, Bool.false_eq_true, or_false, counted]
    omega
  | false =>
    rw [trailing_false]
    simp [counted]

theorem classes_concat (ts : List (World × Op × World)) (t : World × Op × World) :
    classes (ts ++ [t]) = classes ts ++ t.2.1.criticalHigh.toList := by
  unfold classes
  rw [List.filterMap_append]
  cases h : t.2.1.criticalHigh with
  | none => simp [h]
  | some c => simp [h]

theorem streak_eq (hrun : Run (Step policy) w₀ ts w) :
    streak w = expected (streak w₀) (classes ts) := by
  refine hrun.history (I := fun ts w => streak w = expected (streak w₀) (classes ts)) ?_ ?_
  · simp [expected, classes, trailing]
  · intro ts w₁ op w₂ hlaw hst
    rw [hst.streak, hlaw, classes_concat]
    cases hc : op.criticalHigh with
    | none => simp [counted]
    | some c => exact (expected_concat _ _ c).symm

theorem trailing_le_streak (hrun : Run (Step policy) w₀ ts w) :
    trailing (classes ts) ≤ streak w := by
  rw [streak_eq hrun]
  exact Nat.le_add_right _ _

/-- With somebody starving at each claim, the claims of a run never go past the threshold. -/
theorem no_block (hrun : Run (Step policy) w₀ ts w)
    (hstarving : ∀ t ∈ ts, ∀ r, t.2.1 = .claim (some r) → Starving policy t.1) :
    ¬ List.replicate (policy.starvationStreakThreshold + 1) true <:+: classes ts := by
  have hres := hrun.restrict
    (P := fun w op => ∀ r, op = .claim (some r) → Starving policy w) hstarving
  have hinv : Run (Step policy) w₀ ts w ∧
      ¬ List.replicate (policy.starvationStreakThreshold + 1) true <:+: classes ts := by
    refine hres.history (I := fun ts w => Run (Step policy) w₀ ts w ∧
      ¬ List.replicate (policy.starvationStreakThreshold + 1) true <:+: classes ts) ?_ ?_
    · refine ⟨.refl, fun h => ?_⟩
      have hlen := h.length_le
      simp [classes] at hlen
    · intro ts w₁ op w₂ hlaw hst
      refine ⟨hlaw.1.tail hst.2, fun hblock => ?_⟩
      rw [classes_concat] at hblock
      cases hc : op.criticalHigh with
      | none =>
        rw [hc, Option.toList_none, List.append_nil] at hblock
        exact hlaw.2 hblock
      | some c =>
        rw [hc, Option.toList_some] at hblock
        -- a block that is new ends with this claim, which the streak decides
        obtain ⟨rfl, hfull⟩ := (block_concat hblock).resolve_right hlaw.2
        have hstreak := hfull.trans (trailing_le_streak hlaw.1)
        obtain ⟨hstarving, hst⟩ := hst
        cases hst with
        | @claim _ result _ runs =>
          cases result with
          | none => cases hc
          | some r =>
            obtain ⟨r', hr', hordinary, -⟩ := forced runs hstreak (hstarving r rfl)
            obtain rfl := Option.some.inj hr'
            rw [Op.criticalHigh, hordinary] at hc
            cases hc
        | clock | enqueue | complete | fail | requeue => cases hc
  exact hinv.2

/-- **The fairness window.** In every run the counter is the trailing run of critical and high
claims. In every stretch of it in which a normal or low job is starving at each claim, no more
claims than the threshold are critical or high in a row; and a claim made with a full streak while
one is starving takes the normal or low job that has waited longest. -/
theorem fairness_window (hrun : Run (Step policy) w₀ ts w) :
    streak w = expected (streak w₀) (classes ts) ∧
    (∀ us, us <:+: ts → (∀ t ∈ us, ∀ r, t.2.1 = .claim (some r) → Starving policy t.1) →
      ¬ List.replicate (policy.starvationStreakThreshold + 1) true <:+: classes us) ∧
    ∀ t ∈ ts, ∀ result, t.2.1 = .claim result →
      policy.starvationStreakThreshold ≤ streak t.1 → Starving policy t.1 →
      ∃ r, result = some r ∧ r.priority.cls.criticalHigh = false ∧
        ∀ r', Ordinary t.1 r' → r.createdAt ≤ r'.createdAt := by
  refine ⟨streak_eq hrun, ?_, ?_⟩
  · intro us hus hstarving
    obtain ⟨w₁, w₂, hstretch⟩ := hrun.stretch hus
    exact no_block hstretch hstarving
  · intro t ht result hresult hstreak hstarving
    have hst := hrun.steps t ht
    rw [hresult] at hst
    cases hst with
    | claim runs => exact forced runs hstreak hstarving

end Law

/-! ## A full streak -/

/-- After three critical claims, the low job that has waited is taken, and the streak begins
again. -/
theorem fairness_window_full : ∃ ts w,
    Run (Step defaultQueuePolicy)
      ⟨{ Fairness.afterLowJob.redis with streak := some 3 }, 100⟩ ts w ∧
    classes ts = [false] ∧ streak w = 0 := by
  have hclaim := runs_claimNextJob defaultQueuePolicy 60
    (w := ⟨{ Fairness.afterLowJob.redis with streak := some 3 }, 100⟩)
    (List.nodup_singleton "job_low") rfl (choose_singleton defaultQueuePolicy 3
      (candidate defaultQueuePolicy 100 "job_low" Fairness.lowJob))
  have hrun : Run (Step defaultQueuePolicy)
      ⟨{ Fairness.afterLowJob.redis with streak := some 3 }, 100⟩ _ _ :=
    .tail .refl (.claim hclaim)
  exact ⟨_, _, hrun, rfl, (fairness_window hrun).1⟩

end PolyGate.Automation.FairnessWindow
