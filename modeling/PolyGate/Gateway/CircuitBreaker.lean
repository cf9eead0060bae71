import Mathlib.Data.String.Basic
import PolyGate.Lib.PyFloat
import PolyGate.Lib.Run

/-!
# `Gateway/CircuitBreaker.lean` — the breakers, and what the router is told about them

`gateway/app/circuit_breaker.py`: one state machine per provider behind a registry that creates
them on first use, and the health map `router.py` filters providers with.

The two read the same state differently. `allow_request` looks at the clock and is what takes a
breaker out of OPEN once its cooldown is over; `health_snapshot` looks at the stored state only
and reports OPEN as `"down"`, and the router does not ask `allow_request` of a provider that is
down. `admitted_is_healthy_iff` says exactly when the two views agree, in every reachable state:
unless the breaker is OPEN and its cooldown is over — which is the moment recovery depends on.
-/

namespace PolyGate.Gateway

open Lib

/-! ## One provider -/

/-- `State`; its value `OPEN` is `opened` here, `open` being taken. -/
inductive State | closed | opened | halfOpen
  deriving DecidableEq, Repr

structure BreakerConfig where
  failureThreshold : Int
  windowSeconds : Int
  cooldownSeconds : Int
  deriving DecidableEq, Repr

/-- The defaults of `CircuitBreakerRegistry()`. -/
def defaultBreakerConfig : BreakerConfig where
  failureThreshold := 5
  windowSeconds := 60
  cooldownSeconds := 30

/-- `_ProviderBreaker` -/
structure ProviderBreaker where
  config : BreakerConfig
  state : State
  failureTimestamps : List Time
  openedAt : Option Time
  halfOpenProbeInFlight : Bool
  deriving DecidableEq, Repr

namespace ProviderBreaker

/-- `_ProviderBreaker(**defaults)` -/
def new (config : BreakerConfig) : ProviderBreaker where
  config := config
  state := .closed
  failureTimestamps := []
  openedAt := none
  halfOpenProbeInFlight := false

/-- `_prune_old_failures` -/
def pruneOldFailures (b : ProviderBreaker) (now : Time) : ProviderBreaker :=
  { b with failureTimestamps := b.failureTimestamps.filter (now - b.config.windowSeconds < ·) }

/-- `self._opened_at is not None and (now - self._opened_at) >= self.cooldown_seconds` -/
def cooldownOver (b : ProviderBreaker) (now : Time) : Bool :=
  match b.openedAt with
  | some openedAt => (b.config.cooldownSeconds : ℚ) ≤ now - openedAt
  | none => false

/-- The HALF_OPEN branch of `allow_request`: one probe at a time. -/
def admitProbe (b : ProviderBreaker) : Bool × ProviderBreaker :=
  if b.halfOpenProbeInFlight then (false, b) else (true, { b with halfOpenProbeInFlight := true })

def allowRequest (b : ProviderBreaker) (now : Time) : Bool × ProviderBreaker :=
  match b.state with
  | .closed => (true, b)
  | .opened =>
    if b.cooldownOver now then
      admitProbe { b with state := .halfOpen, halfOpenProbeInFlight := false }
    else (false, b)
  | .halfOpen => b.admitProbe

def recordSuccess (b : ProviderBreaker) : ProviderBreaker :=
  { b with state := .closed, failureTimestamps := [], openedAt := none
           halfOpenProbeInFlight := false }

/-- What a failed or abandoned probe does: OPEN again, with a fresh cooldown. -/
def reopen (b : ProviderBreaker) (now : Time) : ProviderBreaker :=
  { b with state := .opened, openedAt := some now, halfOpenProbeInFlight := false }

def recordFailure (b : ProviderBreaker) (now : Time) : ProviderBreaker :=
  if b.state = .halfOpen then b.reopen now
  else
    let b := pruneOldFailures { b with failureTimestamps := b.failureTimestamps ++ [now] } now
    if b.config.failureThreshold ≤ b.failureTimestamps.length then
      { b with state := .opened, openedAt := some now }
    else b

def recordCancelled (b : ProviderBreaker) (now : Time) : ProviderBreaker :=
  if b.state = .halfOpen then b.reopen now else b

end ProviderBreaker

/-! ## The registry, and the router's view of it -/

/-- `CircuitBreakerRegistry` -/
structure Registry where
  breakers : String → Option ProviderBreaker
  defaults : BreakerConfig

namespace Registry

def new (defaults : BreakerConfig) : Registry := ⟨fun _ => none, defaults⟩

/-- The breaker `_get` returns, created if need be. -/
def get (r : Registry) (name : String) : ProviderBreaker :=
  (r.breakers name).getD (.new r.defaults)

/-- The registry after a method of `name`'s breaker has left it as `b`. -/
def set (r : Registry) (name : String) (b : ProviderBreaker) : Registry :=
  { r with breakers := Function.update r.breakers name (some b) }

def allowRequest (r : Registry) (name : String) (now : Time) : Bool × Registry :=
  let (allowed, b) := (r.get name).allowRequest now
  (allowed, r.set name b)

def recordSuccess (r : Registry) (name : String) : Registry :=
  r.set name (r.get name).recordSuccess

def recordFailure (r : Registry) (name : String) (now : Time) : Registry :=
  r.set name ((r.get name).recordFailure now)

def recordCancelled (r : Registry) (name : String) (now : Time) : Registry :=
  r.set name ((r.get name).recordCancelled now)

def healthSnapshot (r : Registry) : String → Option String :=
  fun name => (r.breakers name).map fun b => if b.state = .opened then "down" else "healthy"

@[simp] theorem get_set_self (r : Registry) (name : String) (b : ProviderBreaker) :
    (r.set name b).get name = b := by simp [get, set]

theorem get_set_of_ne (r : Registry) (b : ProviderBreaker) {name other : String}
    (h : other ≠ name) : (r.set name b).get other = r.get other := by
  simp [get, set, Function.update_of_ne h]

end Registry

/-- `_healthy` of the router: a provider is excluded when the map says `"down"`. -/
def healthy (name : String) (health : String → Option String) : Bool :=
  (health name).getD "healthy" ≠ "down"

theorem healthy_snapshot (r : Registry) (name : String) :
    healthy name r.healthSnapshot = true ↔ (r.get name).state ≠ .opened := by
  unfold healthy Registry.healthSnapshot Registry.get
  cases r.breakers name with
  | none => simp [ProviderBreaker.new]
  | some b =>
    by_cases h : b.state = .opened
    · simp [h]
    · simp [h]

/-! ## Reachable registries -/

/-- The calls that touch a breaker. -/
inductive Call
  | allowRequest (name : String)
  | recordSuccess (name : String)
  | recordFailure (name : String)
  | recordCancelled (name : String)
  deriving DecidableEq, Repr

def Registry.call (r : Registry) (now : Time) : Call → Registry
  | .allowRequest name => (r.allowRequest name now).2
  | .recordSuccess name => r.recordSuccess name
  | .recordFailure name => r.recordFailure name now
  | .recordCancelled name => r.recordCancelled name now

/-- The registry, and the time of the last call. -/
structure World where
  registry : Registry
  clock : Time

/-- One call, no earlier than the one before. -/
inductive Step (w : World) : Call × Time → World → Prop
  | call {c : Call} {now : Time} (later : w.clock ≤ now) :
      Step w (c, now) ⟨w.registry.call now c, now⟩

/-- An OPEN breaker knows since when, and it was not in the future. -/
def ProviderBreaker.OpenedBy (now : Time) (b : ProviderBreaker) : Prop :=
  b.state = .opened → ∃ t, b.openedAt = some t ∧ t ≤ now

namespace ProviderBreaker

variable {b : ProviderBreaker} {now later : Time}

theorem OpenedBy.mono (h : b.OpenedBy now) (hle : now ≤ later) : b.OpenedBy later := fun hs =>
  let ⟨t, ht, htn⟩ := h hs
  ⟨t, ht, htn.trans hle⟩

theorem openedBy_of_ne (h : b.state ≠ .opened) : b.OpenedBy now := fun hs => absurd hs h

theorem OpenedBy.allowRequest (h : b.OpenedBy now) : (b.allowRequest now).2.OpenedBy now := by
  unfold ProviderBreaker.allowRequest
  split
  · exact h
  · split
    · exact openedBy_of_ne (by simp [admitProbe])
    · exact h
  · rename_i hs
    unfold admitProbe
    split
    · exact h
    · exact openedBy_of_ne (by simp [hs])

theorem OpenedBy.recordFailure (h : b.OpenedBy now) : (b.recordFailure now).OpenedBy now := by
  unfold ProviderBreaker.recordFailure
  split
  · exact fun _ => ⟨now, rfl, le_rfl⟩
  · dsimp only
    split
    · exact fun _ => ⟨now, rfl, le_rfl⟩
    · exact h

theorem OpenedBy.recordCancelled (h : b.OpenedBy now) : (b.recordCancelled now).OpenedBy now := by
  unfold ProviderBreaker.recordCancelled
  split
  · exact fun _ => ⟨now, rfl, le_rfl⟩
  · exact h

/-- An OPEN breaker admits a request exactly when its cooldown is over. -/
theorem allowRequest_of_opened (hs : b.state = .opened) :
    (b.allowRequest now).1 = b.cooldownOver now := by
  unfold ProviderBreaker.allowRequest
  rw [hs]
  dsimp only
  split <;> simp_all [admitProbe]

end ProviderBreaker

/-- The invariant of reachable registries. -/
def World.Dated (w : World) : Prop := ∀ name, (w.registry.get name).OpenedBy w.clock

theorem World.Dated.step {w w' : World} {l : Call × Time} (hd : w.Dated) (hst : Step w l w') :
    w'.Dated := by
  cases hst with
  | @call c now later =>
  have hlater : ∀ name, (w.registry.get name).OpenedBy now := fun name => (hd name).mono later
  -- each call sets the breaker of one provider and leaves the others alone
  have hset : ∀ name b, b.OpenedBy now → ∀ other,
      ((w.registry.set name b).get other).OpenedBy now := by
    intro name b hb other
    rcases eq_or_ne other name with rfl | hne
    · rwa [Registry.get_set_self]
    · rw [Registry.get_set_of_ne _ _ hne]
      exact hlater other
  cases c with
  | allowRequest name => exact hset name _ (hlater name).allowRequest
  | recordSuccess name => exact hset name _ (ProviderBreaker.openedBy_of_ne (by
      simp [ProviderBreaker.recordSuccess]))
  | recordFailure name => exact hset name _ (hlater name).recordFailure
  | recordCancelled name => exact hset name _ (hlater name).recordCancelled

theorem World.Dated.run {w : World} {defaults : BreakerConfig} {t₀ : Time}
    {ts : List (World × (Call × Time) × World)} (h : Run Step ⟨.new defaults, t₀⟩ ts w) :
    w.Dated :=
  h.invariant (I := World.Dated)
    (fun _ => ProviderBreaker.openedBy_of_ne
      (by simp [Registry.get, Registry.new, ProviderBreaker.new]))
    fun _ _ _ hd hst => hd.step hst

/-- At `t` the breaker of `name` is still cooling down: it was opened less than
`cooldown_seconds` ago. -/
def Registry.CoolingDown (r : Registry) (name : String) (t : Time) : Prop :=
  ∃ openedAt, (r.get name).openedAt = some openedAt ∧
    t - openedAt < (r.get name).config.cooldownSeconds

/-- **When the router sees what the breaker would admit.** In every reachable state, for every
provider and every time: "if `allow_request` would return True, the health map does not say
`down`" holds exactly when the breaker is not OPEN or is still cooling down. -/
theorem admitted_is_healthy_iff {w : World} {defaults : BreakerConfig} {t₀ : Time}
    {ts : List (World × (Call × Time) × World)} (hrun : Run Step ⟨.new defaults, t₀⟩ ts w)
    (name : String) (t : Time) :
    ((w.registry.allowRequest name t).1 = true → healthy name w.registry.healthSnapshot = true) ↔
      ((w.registry.get name).state = .opened → w.registry.CoolingDown name t) := by
  have hdated := World.Dated.run hrun name
  have hallow : (w.registry.allowRequest name t).1 = ((w.registry.get name).allowRequest t).1 := rfl
  rw [healthy_snapshot, hallow]
  by_cases hs : (w.registry.get name).state = .opened
  · obtain ⟨openedAt, hopened, -⟩ := hdated hs
    rw [ProviderBreaker.allowRequest_of_opened hs]
    simp [hs, ProviderBreaker.cooldownOver, Registry.CoolingDown, hopened]
  · simp [hs]

/-- Five failures at time 0, with the default thresholds. -/
def afterFiveFailures : World :=
  (List.replicate 5 (Call.recordFailure "mock-a")).foldl
    (fun w c => ⟨w.registry.call 0 c, 0⟩) ⟨.new defaultBreakerConfig, 0⟩

theorem run_afterFiveFailures :
    ∃ ts, Run Step ⟨.new defaultBreakerConfig, 0⟩ ts afterFiveFailures :=
  ⟨_, .tail (.tail (.tail (.tail (.tail .refl (.call le_rfl)) (.call le_rfl)) (.call le_rfl))
    (.call le_rfl)) (.call le_rfl)⟩

/-- Ten seconds into the cooldown the breaker admits nothing, so there is nothing to hide. -/
theorem admitted_is_healthy_cooling : ∃ ts, Run Step ⟨.new defaultBreakerConfig, 0⟩ ts
      afterFiveFailures ∧
    ((afterFiveFailures.registry.allowRequest "mock-a" 10).1 = true →
      healthy "mock-a" afterFiveFailures.registry.healthSnapshot = true) := by
  obtain ⟨ts, hrun⟩ := run_afterFiveFailures
  refine ⟨ts, hrun, (admitted_is_healthy_iff hrun "mock-a" 10).mpr fun _ => ⟨0, ?_, ?_⟩⟩
  · decide +kernel
  · decide +kernel

/-- **A breaker whose cooldown is over stays out of routing.** Thirty seconds after it opened it
would admit a probe, and the health map still says `down`. -/
theorem cooled_down_is_down : ∃ ts, Run Step ⟨.new defaultBreakerConfig, 0⟩ ts
      afterFiveFailures ∧
    (afterFiveFailures.registry.allowRequest "mock-a" 30).1 = true ∧
    afterFiveFailures.registry.healthSnapshot "mock-a" = some "down" ∧
    healthy "mock-a" afterFiveFailures.registry.healthSnapshot = false := by
  obtain ⟨ts, hrun⟩ := run_afterFiveFailures
  refine ⟨ts, hrun, ?_, ?_, ?_⟩
  · decide +kernel
  · decide +kernel
  · decide +kernel

end PolyGate.Gateway
