import PolyGate.Gateway.CircuitBreaker

/-!
# `Gateway/SingleProbe.lean` — concurrent calls and the half-open probe

One breaker, any number of calls at once, and the health checker. A call asks for admission and,
if it is let in, reports once; the health checker reports failures of its own.

A report does not say whose it is. While a probe is out, the report of a call that was admitted
before the breaker opened, or a failed health check, is taken for the probe's: the breaker
leaves HALF_OPEN and forgets the probe, and the next call is let in beside it.
`late_report_admits_second` is that order. `one_probe` is for the runs in which nobody else
reports while a probe is out: then the probe is alone until it reports itself.
-/

namespace PolyGate.Gateway.SingleProbe

open Lib

/-- How a call that was admitted reports. -/
inductive Outcome | success | failure | cancelled
  deriving DecidableEq, Repr

/-- Where a call is: it asks once, and an admitted call reports once. A `probe` was admitted in
HALF_OPEN. -/
inductive Phase | toCome | rejected | admitted | probe | reported
  deriving DecidableEq, Repr

structure World (ι : Type) where
  breaker : ProviderBreaker
  clock : Time
  calls : ι → Phase

def reportTo (b : ProviderBreaker) (now : Time) : Outcome → ProviderBreaker
  | .success => b.recordSuccess
  | .failure => b.recordFailure now
  | .cancelled => b.recordCancelled now

/-- What the answer of `allow_request` makes of a call, and the state it was given in. -/
def phaseAfter (allowed : Bool) (b : ProviderBreaker) : Phase :=
  if allowed then if b.state = .halfOpen then .probe else .admitted else .rejected

inductive Label (ι : Type)
  | allowRequest (i : ι)
  | report (i : ι) (o : Outcome)
  | probeFailed
  deriving DecidableEq, Repr

variable {ι : Type} [DecidableEq ι]

namespace World

def allowRequest (w : World ι) (i : ι) (now : Time) : World ι :=
  let (allowed, b) := w.breaker.allowRequest now
  ⟨b, now, Function.update w.calls i (phaseAfter allowed b)⟩

def report (w : World ι) (i : ι) (o : Outcome) (now : Time) : World ι :=
  ⟨reportTo w.breaker now o, now, Function.update w.calls i .reported⟩

/-- `_probe_once` got no answer. -/
def probeFailed (w : World ι) (now : Time) : World ι := ⟨w.breaker.recordFailure now, now, w.calls⟩

end World

inductive Step (w : World ι) : Label ι → World ι → Prop
  | allowRequest {i : ι} {now : Time} (later : w.clock ≤ now) (toCome : w.calls i = .toCome) :
      Step w (.allowRequest i) (w.allowRequest i now)
  | report {i : ι} {o : Outcome} {now : Time} (later : w.clock ≤ now)
      (out : w.calls i = .admitted ∨ w.calls i = .probe) : Step w (.report i o) (w.report i o now)
  | probeFailed {now : Time} (later : w.clock ≤ now) : Step w .probeFailed (w.probeFailed now)

/-- A new breaker, before any call. -/
def World.start (config : BreakerConfig) (clock : Time) : World ι where
  breaker := .new config
  clock := clock
  calls _ := .toCome

/-- The call of the transition was let in. -/
def Admits (l : Label ι) (w' : World ι) : Prop :=
  ∃ i, l = .allowRequest i ∧ (w'.calls i = .admitted ∨ w'.calls i = .probe)

/-- Nobody but the probe reports while it is out. -/
def ProbeReports (w : World ι) (l : Label ι) : Prop :=
  ∀ i, w.calls i = .probe → l ≠ .probeFailed ∧ ∀ j o, l = .report j o → j = i

/-- The breaker knows of the probe that is out. -/
def Inv (w : World ι) : Prop :=
  ∀ i, w.calls i = .probe → w.breaker.state = .halfOpen ∧
    w.breaker.halfOpenProbeInFlight = true ∧ ∀ j, w.calls j = .probe → j = i

/-- While it knows of a probe, the breaker lets nobody in and stays as it is. -/
theorem allowRequest_beside_probe {b : ProviderBreaker} (hs : b.state = .halfOpen)
    (hp : b.halfOpenProbeInFlight = true) (now : Time) : b.allowRequest now = (false, b) := by
  rw [ProviderBreaker.allowRequest, hs]
  simp [ProviderBreaker.admitProbe, hp]

/-- A call let in in HALF_OPEN is a probe the breaker knows of. -/
theorem allowRequest_probe {b : ProviderBreaker} {now : Time}
    (h : phaseAfter (b.allowRequest now).1 (b.allowRequest now).2 = .probe) :
    (b.allowRequest now).2.state = .halfOpen ∧
      (b.allowRequest now).2.halfOpenProbeInFlight = true := by
  have hboth : (b.allowRequest now).1 = true ∧ (b.allowRequest now).2.state = .halfOpen := by
    unfold phaseAfter at h
    split at h
    · split at h
      · exact ⟨‹_›, ‹_›⟩
      · cases h
    · cases h
  refine ⟨hboth.2, ?_⟩
  obtain ⟨hallowed, hstate⟩ := hboth
  unfold ProviderBreaker.allowRequest at hallowed hstate ⊢
  unfold ProviderBreaker.admitProbe at hallowed hstate ⊢
  split at hallowed
  · rename_i hs
    rw [hs] at hstate
    exact absurd hstate (by simp [hs])
  · split at hallowed
    · rename_i hs hc
      simp [hc]
    · cases hallowed
  · rename_i hs
    split at hallowed
    · cases hallowed
    · rename_i hp
      simp [hs, hp]

/-- **One step.** With the probe alone in reporting, the breaker goes on knowing of it. -/
theorem Inv.step {w w' : World ι} {l : Label ι} (hi : Inv w) (hok : ProbeReports w l)
    (hst : Step w l w') : Inv w' := by
  cases hst with
  | @allowRequest i now later toCome =>
    intro j hj
    by_cases hprobe : ∃ k, w.calls k = .probe
    · -- the call was turned away
      obtain ⟨k, hk⟩ := hprobe
      obtain ⟨hs, hp, halone⟩ := hi k hk
      simp only [World.allowRequest, allowRequest_beside_probe hs hp now, phaseAfter] at hj ⊢
      have hold : ∀ m, Function.update w.calls i .rejected m = .probe → w.calls m = .probe := by
        intro m hm
        by_cases hmi : m = i
        · subst hmi
          rw [Function.update_self] at hm
          cases hm
        · rwa [Function.update_of_ne hmi] at hm
      refine ⟨hs, hp, fun m hm => ?_⟩
      rw [halone m (hold m hm), halone j (hold j hj)]
    · have hij : ∀ m, Function.update w.calls i (phaseAfter (w.breaker.allowRequest now).1
          (w.breaker.allowRequest now).2) m = .probe → m = i := by
        intro m hm
        by_contra hmi
        rw [Function.update_of_ne hmi] at hm
        exact hprobe ⟨m, hm⟩
      obtain rfl := hij j hj
      simp only [World.allowRequest, Function.update_self] at hj
      obtain ⟨hs, hp⟩ := allowRequest_probe hj
      exact ⟨hs, hp, hij⟩
  | @report i o now later out =>
    intro j hj
    exfalso
    -- while a probe is in flight only its own report may come
    by_cases hji : j = i
    · subst hji
      simp only [World.report, Function.update_self] at hj
      cases hj
    · simp only [World.report, Function.update_of_ne hji] at hj
      exact hji ((hok j hj).2 i o rfl).symm
  | probeFailed later =>
    intro j hj
    exact absurd rfl (hok j hj).1

/-- A breaker that knows of a probe admits nobody beside it. -/
theorem Inv.not_admits {w w' : World ι} {l : Label ι} (hi : Inv w) (hst : Step w l w')
    (hadmits : Admits l w') (i : ι) : w.calls i ≠ .probe := by
  intro hprobe
  obtain ⟨hs, hp, -⟩ := hi i hprobe
  obtain ⟨j, rfl, hj⟩ := hadmits
  cases hst with
  | allowRequest later toCome =>
    simp [World.allowRequest, allowRequest_beside_probe hs hp, phaseAfter] at hj

/-- **One probe at a time, as long as only the probe reports.** In every run of any number of
calls and health checks on one breaker in which nobody else reports while a probe is out: from
the admission of a call in HALF_OPEN until that call reports, no other call is admitted. -/
theorem one_probe {config : BreakerConfig} {clock : Time} {w : World ι}
    {ts : List (World ι × Label ι × World ι)} (hrun : Run Step (.start config clock) ts w)
    (hok : ∀ t ∈ ts, ProbeReports t.1 t.2.1) :
    ∀ t ∈ ts, Admits t.2.1 t.2.2 → ∀ i, t.1.calls i ≠ .probe := by
  have hstart : Inv (World.start config clock : World ι) := fun i hi => by cases hi
  exact ((hrun.restrict hok).each
    (P := fun w l w' => Admits l w' → ∀ i, w.calls i ≠ .probe) hstart
    fun _ _ _ hi hst => ⟨hi.not_admits hst.2, hi.step hst.1 hst.2⟩).1

/-! ## A late report -/

omit [DecidableEq ι] in
/-- A call that asks for admission reports nothing. -/
theorem probeReports_allowRequest (w : World ι) (i : ι) : ProbeReports w (.allowRequest i) :=
  fun _ _ => ⟨fun h => (by cases h), fun _ _ h => (by cases h)⟩

/-- One failure opens the breaker for 30 seconds. -/
def quickConfig : BreakerConfig := ⟨1, 60, 30⟩

/-- Call 0 is under way when a failed health check opens the breaker. -/
def opened : World (Fin 4) := ((World.start quickConfig 0).allowRequest 0 0).probeFailed 0

/-- The cooldown is over, and call 1 is let in as the probe. -/
def probing : World (Fin 4) := opened.allowRequest 1 30

theorem run_probing : Run Step (World.start quickConfig 0)
    [(World.start quickConfig 0, .allowRequest 0,
        (World.start quickConfig 0).allowRequest 0 0),
      ((World.start quickConfig 0).allowRequest 0 0, .probeFailed, opened),
      (opened, .allowRequest 1, probing)] probing :=
  .tail (.tail (.tail .refl (.allowRequest le_rfl rfl)) (.probeFailed le_rfl))
    (.allowRequest (show (0 : Time) ≤ 30 by decide +kernel) rfl)

/-- With call 0 still out, call 2 is turned away while the probe is out, and call 3 is let in once
the probe has reported. -/
theorem one_probe_reported : ∃ ts, ∃ w : World (Fin 4), Run Step (.start quickConfig 0) ts w ∧
    w.calls 0 = .admitted ∧ w.calls 2 = .rejected ∧ w.calls 3 = .admitted ∧
    ∀ t ∈ ts, Admits t.2.1 t.2.2 → ∀ i, t.1.calls i ≠ .probe := by
  have hrun : Run Step (World.start quickConfig 0 : World (Fin 4)) _ _ :=
    .tail (.tail (.tail run_probing
      (.allowRequest (i := 2) (show (30 : Time) ≤ 31 by decide +kernel) rfl))
      (.report (i := 1) (o := .success) (show (31 : Time) ≤ 32 by decide +kernel)
        (Or.inr (by decide +kernel))))
      (.allowRequest (i := 3) (show (32 : Time) ≤ 33 by decide +kernel) rfl)
  refine ⟨_, _, hrun, by decide +kernel, by decide +kernel, by decide +kernel,
    one_probe hrun fun t ht i hi => ?_⟩
  simp only [List.cons_append, List.nil_append, List.mem_cons, List.not_mem_nil, or_false] at ht
  rcases ht with rfl | rfl | rfl | rfl | rfl | rfl
  · exact probeReports_allowRequest _ 0 i hi
  · -- the health check fails before there is a probe
    have hno : ∀ i, ((World.start quickConfig 0 : World (Fin 4)).allowRequest 0 0).calls i ≠
        .probe := by decide +kernel
    exact absurd hi (hno i)
  · exact probeReports_allowRequest _ 1 i hi
  · exact probeReports_allowRequest _ 2 i hi
  · -- the probe's own report
    have hone : ∀ i, (probing.allowRequest 2 31).calls i = .probe → i = 1 := by decide +kernel
    refine ⟨fun h => (by cases h), fun j o hl => ?_⟩
    cases hl
    exact (hone i hi).symm
  · exact probeReports_allowRequest _ 3 i hi

/-- **A late report lets a second call in beside the probe.** The call that was admitted before
the breaker opened fails while the probe is out; thirty seconds later the next call is let in,
and the probe still has not reported. -/
theorem late_report_admits_second : ∃ ts, ∃ w : World (Fin 4),
    Run Step (.start quickConfig 0) ts w ∧
    ∃ t ∈ ts, Admits t.2.1 t.2.2 ∧ t.1.calls 1 = .probe := by
  have hrun : Run Step (World.start quickConfig 0 : World (Fin 4)) _ _ :=
    .tail (.tail run_probing (.report (i := 0) (o := .failure)
      (show (30 : Time) ≤ 31 by decide +kernel) (Or.inl (by decide +kernel))))
      (.allowRequest (i := 2) (show (31 : Time) ≤ 61 by decide +kernel) rfl)
  refine ⟨_, _, hrun, _, List.mem_append_right _ List.mem_cons_self, ⟨2, rfl, ?_⟩, ?_⟩
  · exact Or.inr (by decide +kernel)
  · decide +kernel

end PolyGate.Gateway.SingleProbe
