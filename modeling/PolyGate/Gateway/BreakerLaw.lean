import Mathlib.Data.List.DropRight
import PolyGate.Gateway.CircuitBreaker

/-!
# `Gateway/BreakerLaw.lean` — when a breaker trips, and what its fields say at rest

The breaker forgets: it prunes the failures it remembers at every failure, and forgets all of them
at a success. What it promises is about the failures that happened. `failuresSinceSuccess` reads
them off the operations, and the invariant `Inv` compares the two: from now on, every window shows
the same failures in the list as in the history, as long as the breaker is CLOSED.

An OPEN breaker goes on recording failures, a HALF_OPEN one does not; neither matters to a CLOSED
one, which no other state leads to but through a success.
-/

namespace PolyGate.Gateway.BreakerLaw

open Lib

/-! ## The operations -/

inductive Operation | allowRequest | recordSuccess | recordFailure | recordCancelled
  deriving DecidableEq, Repr

/-- An operation and its time. -/
abbrev Event := Operation × Time

def perform (b : ProviderBreaker) (now : Time) : Operation → ProviderBreaker
  | .allowRequest => (b.allowRequest now).2
  | .recordSuccess => b.recordSuccess
  | .recordFailure => b.recordFailure now
  | .recordCancelled => b.recordCancelled now

/-- A breaker, and the time of the last operation. -/
structure Timed where
  breaker : ProviderBreaker
  clock : Time

/-- One operation, no earlier than the one before. -/
inductive Step (w : Timed) : Event → Timed → Prop
  | perform {op : Operation} {now : Time} (later : w.clock ≤ now) :
      Step w (op, now) ⟨perform w.breaker now op, now⟩

/-- What happened in a run. -/
def events (ts : List (Timed × Event × Timed)) : List Event := ts.map (·.2.1)

/-! ## What there is to count -/

def failureTime (e : Event) : Option Time := if e.1 = .recordFailure then some e.2 else none

/-- When the failures after the last success happened. -/
def failuresSinceSuccess (es : List Event) : List Time :=
  (es.rtakeWhile fun e => e.1 ≠ .recordSuccess).filterMap failureTime

/-- Those of some failures that are later than `t - window`. -/
def within (config : BreakerConfig) (t : Time) (failures : List Time) : List Time :=
  failures.filter (t - config.windowSeconds < ·)

section Counting
variable {config : BreakerConfig} {es : List Event} {t now : Time} {failures : List Time}

theorem failures_success : failuresSinceSuccess (es ++ [(.recordSuccess, now)]) = [] := by
  simp [failuresSinceSuccess]

theorem failures_failure :
    failuresSinceSuccess (es ++ [(.recordFailure, now)]) = failuresSinceSuccess es ++ [now] := by
  simp [failuresSinceSuccess, failureTime]

theorem failures_other {op : Operation} (hs : op ≠ .recordSuccess) (hf : op ≠ .recordFailure) :
    failuresSinceSuccess (es ++ [(op, now)]) = failuresSinceSuccess es := by
  simp [failuresSinceSuccess, failureTime, hs, hf]

theorem within_append {failures' : List Time} :
    within config t (failures ++ failures') = within config t failures ++
      within config t failures' :=
  List.filter_append ..

/-- What an earlier window has lost, a later one does not show. -/
theorem within_within (h : now ≤ t) :
    within config t (within config now failures) = within config t failures := by
  unfold within
  rw [List.filter_filter]
  refine List.filter_congr fun x _ => ?_
  rw [Bool.eq_iff_iff, Bool.and_eq_true, decide_eq_true_iff, decide_eq_true_iff]
  constructor
  · exact And.left
  · intro hx
    exact ⟨hx, lt_of_le_of_lt (sub_le_sub_right h _) hx⟩

end Counting

/-! ## What each operation does -/

section Operations
variable {b : ProviderBreaker} {now : Time}

/-- A request changes a breaker only by becoming the probe of one that is not CLOSED. -/
theorem allowRequest_cases : (b.allowRequest now).2 = b ∨ b.state ≠ .closed ∧
    (b.allowRequest now).2 = { b with state := .halfOpen, halfOpenProbeInFlight := true } := by
  unfold ProviderBreaker.allowRequest
  cases hs : b.state with
  | closed => exact Or.inl rfl
  | opened =>
    dsimp only
    split
    · exact Or.inr ⟨by simp, rfl⟩
    · exact Or.inl rfl
  | halfOpen =>
    dsimp only
    unfold ProviderBreaker.admitProbe
    split
    · exact Or.inl rfl
    · exact Or.inr ⟨by simp, by simp [← hs]⟩

/-- What a breaker remembers once it has recorded a failure. -/
def remembered (b : ProviderBreaker) (now : Time) : List Time :=
  within b.config now (b.failureTimestamps ++ [now])

theorem recordFailure_trips (hs : b.state ≠ .halfOpen)
    (hmany : b.config.failureThreshold ≤ (remembered b now).length) :
    b.recordFailure now =
      { b with failureTimestamps := remembered b now, state := .opened, openedAt := some now } :=
  (if_neg hs).trans (if_pos hmany)

theorem recordFailure_holds (hs : b.state ≠ .halfOpen)
    (hfew : ¬ b.config.failureThreshold ≤ (remembered b now).length) :
    b.recordFailure now = { b with failureTimestamps := remembered b now } :=
  (if_neg hs).trans (if_neg hfew)

theorem recordFailure_probe (hs : b.state = .halfOpen) : b.recordFailure now = b.reopen now :=
  if_pos hs

end Operations

/-! ## The invariant -/

/-- The fields of a breaker agree with its state, and a CLOSED one remembers of the failures since
the last success whatever a window can still show. -/
structure Inv (config : BreakerConfig) (es : List Event) (w : Timed) : Prop where
  configured : w.breaker.config = config
  opened : w.breaker.state = .opened → w.breaker.openedAt ≠ none
  probe : w.breaker.state = .halfOpen ↔ w.breaker.halfOpenProbeInFlight = true
  few : w.breaker.state = .closed →
    (w.breaker.failureTimestamps.length : Int) < config.failureThreshold
  history : w.breaker.state = .closed → ∀ t, w.clock ≤ t →
    within config t w.breaker.failureTimestamps = within config t (failuresSinceSuccess es)

section Invariant
variable {config : BreakerConfig} {es : List Event} {w w' : Timed} {now : Time}

theorem Inv.new (hthreshold : 1 ≤ config.failureThreshold) :
    Inv config [] ⟨.new config, now⟩ where
  configured := rfl
  opened := by simp [ProviderBreaker.new]
  probe := by simp [ProviderBreaker.new]
  few _ := Int.lt_of_lt_of_le Int.zero_lt_one hthreshold
  history _ t _ := rfl

/-- What an operation leaves that is no success, no failure and changes nothing. -/
theorem Inv.idle (h : Inv config es w) (hlater : w.clock ≤ now) {op : Operation}
    (hs : op ≠ .recordSuccess) (hf : op ≠ .recordFailure) :
    Inv config (es ++ [(op, now)]) ⟨w.breaker, now⟩ where
  configured := h.configured
  opened := h.opened
  probe := h.probe
  few := h.few
  history hclosed t ht := by
    rw [failures_other hs hf]
    exact h.history hclosed t (hlater.trans ht)

theorem Inv.allowRequest (h : Inv config es w) (hlater : w.clock ≤ now) :
    Inv config (es ++ [(.allowRequest, now)]) ⟨(w.breaker.allowRequest now).2, now⟩ := by
  rcases @allowRequest_cases w.breaker now with heq | ⟨-, heq⟩
  · rw [heq]
    exact h.idle hlater (by decide) (by decide)
  · rw [heq]
    exact {
      configured := h.configured
      opened := fun hs => by cases hs
      probe := by simp
      few := fun hs => by cases hs
      history := fun hs => by cases hs }

theorem Inv.recordSuccess (hthreshold : 1 ≤ config.failureThreshold) (h : Inv config es w) :
    Inv config (es ++ [(.recordSuccess, now)]) ⟨w.breaker.recordSuccess, now⟩ where
  configured := h.configured
  opened hs := by cases hs
  probe := by simp [ProviderBreaker.recordSuccess]
  few _ := Int.lt_of_lt_of_le Int.zero_lt_one hthreshold
  history _ t _ := by
    rw [failures_success]
    rfl

/-- A probe that failed or was abandoned leaves the breaker OPEN. -/
theorem Inv.reopen {es' : List Event} (h : Inv config es w) :
    Inv config es' ⟨w.breaker.reopen now, now⟩ where
  configured := h.configured
  opened _ := by simp [ProviderBreaker.reopen]
  probe := by simp [ProviderBreaker.reopen]
  few hs := by cases hs
  history hs := by cases hs

/-- **What a CLOSED breaker counts is what happened.** -/
theorem Inv.remembered_eq (h : Inv config es w) (hclosed : w.breaker.state = .closed)
    (hlater : w.clock ≤ now) :
    remembered w.breaker now =
      within config now (failuresSinceSuccess (es ++ [(.recordFailure, now)])) := by
  rw [remembered, h.configured, failures_failure, within_append, within_append,
    h.history hclosed now hlater]

theorem Inv.recordFailure (h : Inv config es w) (hlater : w.clock ≤ now) :
    Inv config (es ++ [(.recordFailure, now)]) ⟨w.breaker.recordFailure now, now⟩ := by
  by_cases hs : w.breaker.state = .halfOpen
  · rw [recordFailure_probe hs]
    exact h.reopen
  · have hprobe : w.breaker.halfOpenProbeInFlight ≠ true := fun hp => hs (h.probe.mpr hp)
    by_cases hmany : w.breaker.config.failureThreshold ≤ (remembered w.breaker now).length
    · rw [recordFailure_trips hs hmany]
      exact {
        configured := h.configured
        opened := fun _ => by simp
        probe := by simpa using hprobe
        few := fun hs => by cases hs
        history := fun hs => by cases hs }
    · rw [recordFailure_holds hs hmany]
      rw [h.configured] at hmany
      exact {
        configured := h.configured
        opened := h.opened
        probe := h.probe
        few := fun _ => not_le.mp hmany
        history := fun hclosed t ht => by
          rw [h.remembered_eq hclosed hlater, within_within ht] }

theorem Inv.recordCancelled (h : Inv config es w) (hlater : w.clock ≤ now) :
    Inv config (es ++ [(.recordCancelled, now)]) ⟨w.breaker.recordCancelled now, now⟩ := by
  unfold ProviderBreaker.recordCancelled
  split
  · exact h.reopen
  · exact h.idle hlater (by decide) (by decide)

theorem Inv.step (hthreshold : 1 ≤ config.failureThreshold) {e : Event} (h : Inv config es w)
    (hst : Step w e w') : Inv config (es ++ [e]) w' := by
  cases hst with
  | @perform op now later =>
    cases op with
    | allowRequest => exact h.allowRequest later
    | recordSuccess => exact h.recordSuccess hthreshold
    | recordFailure => exact h.recordFailure later
    | recordCancelled => exact h.recordCancelled later

theorem Inv.run (hthreshold : 1 ≤ config.failureThreshold) {t₀ : Time}
    {ts : List (Timed × Event × Timed)} (hrun : Run Step ⟨.new config, t₀⟩ ts w) :
    Inv config (events ts) w := by
  refine hrun.history (I := fun ts w => Inv config (events ts) w) (Inv.new hthreshold) ?_
  intro ts w₁ e w₂ h hst
  have hstep := h.step hthreshold hst
  rwa [events, List.map_append]

end Invariant

/-! ## The law -/

/-- What holds of a breaker between two operations, after the events `es`. -/
structure Law (config : BreakerConfig) (es : List Event) (w : Timed) : Prop where
  /-- a CLOSED breaker trips at a failure exactly when the window shows enough of them -/
  trips : w.breaker.state = .closed → ∀ t, w.clock ≤ t →
    ((w.breaker.recordFailure t).state = .opened ↔ config.failureThreshold ≤
      (within config t (failuresSinceSuccess (es ++ [(.recordFailure, t)]))).length)
  opened : w.breaker.state = .opened → w.breaker.openedAt ≠ none
  probe : w.breaker.state = .halfOpen ↔ w.breaker.halfOpenProbeInFlight = true
  few : w.breaker.state = .closed →
    (w.breaker.failureTimestamps.length : Int) < config.failureThreshold
  /-- an OPEN breaker refuses, and stays as it is, until its cooldown is over -/
  cools : w.breaker.state = .opened → ∀ openedAt, w.breaker.openedAt = some openedAt →
    ∀ t, t - openedAt < config.cooldownSeconds → w.breaker.allowRequest t = (false, w.breaker)
  /-- a cancellation neither opens a CLOSED breaker nor closes one -/
  cancelled : ∀ t, (w.breaker.state = .closed → (w.breaker.recordCancelled t).state = .closed) ∧
    ((w.breaker.recordCancelled t).state = .closed → w.breaker.state = .closed)

/-- Two failures trip a breaker; the window is a minute and the cooldown half of one. -/
def touchyConfig : BreakerConfig := ⟨2, 60, 30⟩

/-- A failure, a success, and a failure again. -/
def recovering : Timed :=
  [(Operation.recordFailure, 0), (.recordSuccess, 10), (.recordFailure, 20)].foldl
    (fun w e => ⟨perform w.breaker e.2 e.1, e.2⟩) ⟨.new touchyConfig, 0⟩

theorem run_recovering : ∃ ts, Run Step ⟨.new touchyConfig, 0⟩ ts recovering ∧
    events ts = [(.recordFailure, 0), (.recordSuccess, 10), (.recordFailure, 20)] :=
  ⟨_, .tail (.tail (.tail .refl (.perform (by decide +kernel))) (.perform (by decide +kernel)))
    (.perform (by decide +kernel)), rfl⟩

/-- **The state law of the circuit breaker.** -/
theorem breaker_law {config : BreakerConfig} {t₀ : Time} {ts : List (Timed × Event × Timed)}
    {w : Timed} (hthreshold : 1 ≤ config.failureThreshold)
    (hrun : Run Step ⟨.new config, t₀⟩ ts w) : Law config (events ts) w := by
  have hinv := Inv.run hthreshold hrun
  refine ⟨fun hclosed t hlater => ?_, hinv.opened, hinv.probe, hinv.few,
    fun hs openedAt hopened t hcooling => ?_, fun t => ⟨fun hclosed => ?_, fun hclosed => ?_⟩⟩
  · rw [← hinv.remembered_eq hclosed hlater, ← hinv.configured]
    have hnot : w.breaker.state ≠ .halfOpen := by simp [hclosed]
    by_cases hmany : w.breaker.config.failureThreshold ≤ (remembered w.breaker t).length
    · rw [recordFailure_trips hnot hmany]
      simpa using hmany
    · rw [recordFailure_holds hnot hmany]
      simpa [hclosed] using hmany
  · have hover : w.breaker.cooldownOver t = false := by
      rw [← hinv.configured] at hcooling
      simp [ProviderBreaker.cooldownOver, hopened, hcooling]
    rw [ProviderBreaker.allowRequest, hs]
    simp [hover]
  · have hnot : w.breaker.state ≠ .halfOpen := by simp [hclosed]
    rw [ProviderBreaker.recordCancelled, if_neg hnot]
    exact hclosed
  · unfold ProviderBreaker.recordCancelled at hclosed
    split at hclosed
    · cases hclosed
    · exact hclosed

theorem breaker_law_recovering : ∃ ts, Run Step ⟨.new touchyConfig, 0⟩ ts recovering ∧
    recovering.breaker.state = .closed ∧
    (recovering.breaker.recordFailure 79).state = .opened ∧
    (recovering.breaker.recordFailure 80).state ≠ .opened := by
  obtain ⟨ts, hrun, hevents⟩ := run_recovering
  have hlaw := breaker_law (by decide) hrun
  rw [hevents] at hlaw
  have hclosed : recovering.breaker.state = .closed := by decide +kernel
  refine ⟨ts, hrun, hclosed, (hlaw.trips hclosed 79 ?_).mpr ?_,
    (hlaw.trips hclosed 80 ?_).not.mpr ?_⟩
  · decide +kernel
  · decide +kernel
  · decide +kernel
  · decide +kernel

end PolyGate.Gateway.BreakerLaw
