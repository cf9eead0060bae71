import Mathlib.Tactic.Linarith
import PolyGate.Lib.Prog
import PolyGate.Gateway.CircuitBreaker

/-!
# `Gateway/Retry.lean` — provider calls with retry, and what they report to the breaker

`gateway/app/retry.py`. A resilient call is a program over what it uses of the outside: the
breaker, the clock, the provider, the random jitter, the sleep. Its behaviour is the set of
event lists it can emit (`Prog.Emits`), with nothing assumed about the answers: every clock, every
script of outcomes.

Both functions take a slot from the breaker at admission and owe it a report. They do report on
every way out but three: the budget check at the *start* of an attempt, which raises past the
reporting code; a backoff that overflows `float`; and, for the stream, a cancelled await, which
`except Exception` does not see. `OnSchedule` excludes the three, and the two `_iff` theorems
show that they are the only ones.

Numbers are exact; of `float` only the overflow of `2 ** attempt` is modelled.
-/

namespace PolyGate.Gateway

open Lib

/-! ## Errors -/

/-- A `Retry-After` header as `_retry_after_seconds` reads it. -/
inductive RetryAfter
  | absent
  | seconds (s : ℚ)
  | httpDate (t : Time)
  | unparsable
  deriving DecidableEq, Repr

/-- What `provider_call` and `open_provider_stream` raise. -/
inductive ProviderError
  /-- `httpx.TimeoutException`, a `TransportError` -/
  | timeoutException
  /-- any other `httpx.TransportError` -/
  | transportError
  | httpStatusError (status : Nat) (retryAfter : RetryAfter)
  | payloadError (msg : String)
  /-- the built-in `TimeoutError`, which `asyncio.wait_for` raises too -/
  | timeoutError
  | other (msg : String)
  deriving DecidableEq, Repr

inductive Exc
  | provider (e : ProviderError)
  | providerUnavailable (msg : String)
  | retryBudgetExceeded (name : String)
  | overflowError
  | typeError
  | assertionError
  /-- `asyncio.CancelledError`, not an `Exception` -/
  | cancelledError
  deriving DecidableEq, Repr

/-- An exception with its `polygate_retries` attribute. -/
structure Raised where
  exc : Exc
  polygateRetries : Option Nat
  deriving DecidableEq, Repr

/-- `RetryBudgetExceededError(name)` -/
def budgetExceeded (name : String) : Raised := ⟨.retryBudgetExceeded name, some 0⟩

/-- `_attach_retry_count` -/
def Raised.attachRetryCount (r : Raised) (retries : Nat) : Raised :=
  { r with polygateRetries := some retries }

/-- `_is_transient_error` -/
def ProviderError.isTransient : ProviderError → Bool
  | .timeoutException | .transportError => true
  | .httpStatusError status _ => 500 ≤ status || [408, 409, 429].contains status
  | .payloadError _ | .timeoutError | .other _ => false

/-- `_retry_reason` -/
def ProviderError.retryReason : ProviderError → String
  | .timeoutException => "timeout"
  | .transportError => "transport"
  | .httpStatusError status _ =>
    if status = 408 then "timeout" else if status = 429 then "429"
    else if 500 ≤ status then "5xx" else "other"
  | .payloadError _ | .timeoutError | .other _ => "other"

/-- `_is_provider_failure` -/
def ProviderError.isProviderFailure : ProviderError → Bool
  | .payloadError _ => false
  | .httpStatusError status _ => 500 ≤ status || [401, 403, 404, 408, 409, 429].contains status
  | .timeoutException | .transportError | .timeoutError | .other _ => true

/-! ## The outside -/

structure AdapterResult where
  response : String
  latencyMs : Int
  retries : Nat
  deriving DecidableEq, Repr

structure OpenedProviderStream where
  firstEvent : String
  latencyToFirstEventMs : Int
  retries : Nat
  deriving DecidableEq, Repr

/-- How `await opening` ends. -/
inductive Opening
  | opened (stream : OpenedProviderStream)
  | failed (e : ProviderError)
  | cancelled
  deriving DecidableEq, Repr

/-- How `await sleeper(delay)` ends. -/
inductive Slept | woke | cancelled
  deriving DecidableEq, Repr

inductive Cmd
  | breaker (c : Call)
  | clock
  | providerCall (timeoutS : ℚ)
  | openStream (remaining : Option ℚ)
  | uniform (hi : ℚ)
  /-- `datetime.now(UTC)` -/
  | utcNow
  | recordProviderRetry (reason : String)
  | sleep (delay : ℚ)
  | asyncSleep (delay : ℚ)
  deriving DecidableEq

@[reducible] def Cmd.Reply : Cmd → Type
  | .breaker (.allowRequest _) => Bool
  | .breaker _ | .recordProviderRetry _ | .sleep _ => Unit
  | .clock | .uniform _ => ℚ
  | .providerCall _ => Except ProviderError AdapterResult
  | .openStream _ => Opening
  | .utcNow => Time
  | .asyncSleep _ => Slept

abbrev Gw (α : Type) := Prog Cmd Cmd.Reply Raised α

abbrev Event := Prog.Event Cmd Cmd.Reply

/-- The arguments of a resilient call. -/
structure ResilientCall where
  name : String
  timeoutS : ℚ
  maxRetries : Int
  baseDelayS : ℚ
  maxBackoffS : ℚ
  deadline : Option ℚ

/-! ## The two functions -/

/-- `_record_terminal_failure` -/
def recordTerminalFailure (name : String) (exc : ProviderError) : Gw Unit :=
  if exc.isProviderFailure then Prog.perform (Cmd.breaker (.recordFailure name))
  else Prog.perform (Cmd.breaker (.recordCancelled name))

/-- `_retry_after_seconds` -/
def retryAfterSeconds : ProviderError → Gw (Option ℚ)
  | .httpStatusError _ (.seconds s) => pure (some (max 0 s))
  | .httpStatusError _ (.httpDate t) => do
    let now : ℚ ← Prog.perform Cmd.utcNow
    return some (max 0 (t - now))
  | _ => pure none

/-- `_retry_delay`; `2 ** attempt` does not fit a `float` from 1024 on. -/
def retryDelay (call : ResilientCall) (exc : ProviderError) (attempt : Nat) : Gw ℚ :=
  if 1024 ≤ attempt then throw ⟨.overflowError, none⟩
  else do
    let exponential := call.baseDelayS * 2 ^ attempt
    let jitter : ℚ ← Prog.perform (Cmd.uniform call.baseDelayS)
    let backoff := min call.maxBackoffS (exponential + jitter)
    let retryAfter ← retryAfterSeconds exc
    return max backoff (retryAfter.getD 0)

/-- `_remaining_seconds` -/
def remainingSeconds (deadline : Option ℚ) : Gw (Option ℚ) :=
  match deadline with
  | none => pure none
  | some deadline => do
    let now : ℚ ← Prog.perform Cmd.clock
    return some (deadline - now)

/-- The check `_attempt_timeout` and the stream make at the start of an attempt. -/
def startAttempt (call : ResilientCall) : Gw (Option ℚ) := do
  match ← remainingSeconds call.deadline with
  | none => return none
  | some remaining =>
    if remaining ≤ 0 then throw (budgetExceeded call.name) else return some remaining

/-- `_attempt_timeout` -/
def attemptTimeout (call : ResilientCall) : Gw ℚ := do
  match ← startAttempt call with
  | none => return call.timeoutS
  | some remaining => return min call.timeoutS remaining

/-- `_ensure_delay_fits_budget` -/
def ensureDelayFitsBudget (call : ResilientCall) (delay : ℚ) : Gw Unit := do
  match ← remainingSeconds call.deadline with
  | none => return ()
  | some remaining =>
    if remaining ≤ delay then throw (budgetExceeded call.name) else return ()

/-- The `except Exception` of an attempt, for an error that is not a budget error. When it
returns, the loop goes on. -/
def retryOrRaise (call : ResilientCall) (sleeper : ℚ → Gw Unit) (attempt : Nat)
    (exc : ProviderError) : Gw Unit :=
  if !exc.isTransient || decide ((attempt : Int) = call.maxRetries) then do
    recordTerminalFailure call.name exc
    throw ⟨.provider exc, some attempt⟩
  else do
    let delay ← retryDelay call exc attempt
    tryCatch (ensureDelayFitsBudget call delay) fun _ => do
      recordTerminalFailure call.name exc
      throw ((budgetExceeded call.name).attachRetryCount attempt)
    Prog.perform (Cmd.recordProviderRetry exc.retryReason)
    sleeper delay

/-- One iteration of the loop: a result, or the error after which to try again. -/
def runAttempt {α : Type} (call : ResilientCall) (sleeper : ℚ → Gw Unit) (body : Gw α)
    (attempt : Nat) : Gw (Except ProviderError α) :=
  tryCatch (do let result ← body; return .ok result) fun raised =>
    match raised.exc with
    | .retryBudgetExceeded _ => throw (raised.attachRetryCount attempt)
    | .provider exc => do
      retryOrRaise call sleeper attempt exc
      return .error exc
    | _ => throw raised

/-- `for attempt in range(max_retries + 1)`, with `remaining` iterations to go; `exhausted` is
what stands after the loop. -/
def attempts {α : Type} (call : ResilientCall) (sleeper : ℚ → Gw Unit) (body : Nat → Gw α)
    (exhausted : Option ProviderError → Gw α) : Nat → Nat → Option ProviderError → Gw α
  | 0, _, lastExc => exhausted lastExc
  | remaining + 1, attempt, _ => do
    match ← runAttempt call sleeper (body attempt) attempt with
    | .ok result => return result
    | .error exc => attempts call sleeper body exhausted remaining (attempt + 1) (some exc)

/-- Admission, and then the loop. -/
def admitted {α : Type} (call : ResilientCall) (loop : Gw α) : Gw α := do
  let allowed : Bool ← Prog.perform (Cmd.breaker (.allowRequest call.name))
  if allowed then loop
  else throw ⟨.providerUnavailable (call.name ++ " 当前处于熔断状态，暂时跳过"), none⟩

def sleeper (delay : ℚ) : Gw Unit := Prog.perform (Cmd.sleep delay)

/-- The `try` of `call_provider_with_resilience`. -/
def callAttempt (call : ResilientCall) (attempt : Nat) : Gw AdapterResult := do
  let timeout ← attemptTimeout call
  let answer : Except ProviderError AdapterResult ← Prog.perform (Cmd.providerCall timeout)
  match answer with
  | .ok result =>
    Prog.perform (Cmd.breaker (.recordSuccess call.name))
    return { result with retries := attempt }
  | .error exc => throw ⟨.provider exc, none⟩

/-- After the loop, which a positive number of attempts never reaches. -/
def callExhausted (call : ResilientCall) (lastExc : Option ProviderError) : Gw AdapterResult := do
  Prog.perform (Cmd.breaker (.recordFailure call.name))
  match lastExc with
  | some exc => throw ⟨.provider exc, none⟩
  | none => throw ⟨.typeError, none⟩

def callProviderWithResilience (call : ResilientCall) : Gw AdapterResult :=
  admitted call (attempts call sleeper (callAttempt call) (callExhausted call)
    (call.maxRetries + 1).toNat 0 none)

def asyncSleeper (delay : ℚ) : Gw Unit := do
  let slept : Slept ← Prog.perform (Cmd.asyncSleep delay)
  match slept with
  | .woke => return ()
  | .cancelled => throw ⟨.cancelledError, none⟩

/-- The `try` of `open_provider_stream_with_resilience`. -/
def openAttempt (call : ResilientCall) (attempt : Nat) : Gw OpenedProviderStream := do
  let remaining ← startAttempt call
  let opening : Opening ← Prog.perform (Cmd.openStream remaining)
  match opening with
  | .opened stream => return { stream with retries := attempt }
  | .failed .timeoutError =>
    recordTerminalFailure call.name .timeoutError
    throw ((budgetExceeded call.name).attachRetryCount attempt)
  | .failed exc => throw ⟨.provider exc, none⟩
  | .cancelled => throw ⟨.cancelledError, none⟩

def openExhausted (call : ResilientCall) (lastExc : Option ProviderError) :
    Gw OpenedProviderStream := do
  Prog.perform (Cmd.breaker (.recordFailure call.name))
  match lastExc with
  | some exc => throw ⟨.provider exc, none⟩
  | none => throw ⟨.assertionError, none⟩

def openProviderStreamWithResilience (call : ResilientCall) : Gw OpenedProviderStream :=
  admitted call (attempts call asyncSleeper (openAttempt call) (openExhausted call)
    (call.maxRetries + 1).toNat 0 none)

/-! ## Around an attempt -/

/-- What goes on around an attempt: the clocks, the jitter, and the report of a failure or of a
cancellation. -/
def Cmd.isAside : Cmd → Prop
  | .breaker (.recordFailure _) | .breaker (.recordCancelled _) => True
  | .clock | .uniform _ | .utcNow => True
  | _ => False

section
variable {call : ResilientCall} {k : Nat}

/-- None of the helpers of an attempt calls the provider or sleeps. -/
theorem only_recordTerminalFailure {name : String} {exc : ProviderError} :
    Prog.Only Cmd.isAside (recordTerminalFailure name exc) := by
  unfold recordTerminalFailure
  split
  · exact Prog.only_perform.mpr trivial
  · exact Prog.only_perform.mpr trivial

theorem only_remainingSeconds {deadline : Option ℚ} :
    Prog.Only Cmd.isAside (remainingSeconds deadline) := by
  cases deadline with
  | none => trivial
  | some d => exact Prog.only_perform_bind.mpr ⟨trivial, fun _ => trivial⟩

theorem only_startAttempt : Prog.Only Cmd.isAside (startAttempt call) := by
  refine only_remainingSeconds.bind fun remaining => ?_
  cases remaining with
  | none => trivial
  | some s =>
    dsimp only
    split
    · trivial
    · trivial

theorem only_ensureDelayFitsBudget {delay : ℚ} :
    Prog.Only Cmd.isAside (ensureDelayFitsBudget call delay) := by
  refine only_remainingSeconds.bind fun remaining => ?_
  cases remaining with
  | none => trivial
  | some s =>
    dsimp only
    split
    · trivial
    · trivial

theorem only_retryDelay {exc : ProviderError} :
    Prog.Only Cmd.isAside (retryDelay call exc k) := by
  unfold retryDelay
  split
  · trivial
  · refine Prog.only_perform_bind.mpr ⟨trivial, fun jitter => Prog.Only.bind ?_ fun _ => trivial⟩
    unfold retryAfterSeconds
    split
    · trivial
    · exact Prog.only_perform_bind.mpr ⟨trivial, fun _ => trivial⟩
    · trivial

end

/-! ## Reading a list of events -/

/-- `record_success`, `record_failure` or `record_cancelled` for `name`. -/
def Cmd.isReport (name : String) : Cmd → Bool
  | .breaker (.recordSuccess n) | .breaker (.recordFailure n) | .breaker (.recordCancelled n) =>
    n = name
  | _ => false

/-- How often the breaker of `name` was reported to. -/
def reports (name : String) (es : List Event) : Nat := es.countP fun e => e.1.isReport name

/-- The event ends an attempt with a transient error. -/
def isTransientFailure : Event → Bool
  | ⟨.providerCall _, .error exc⟩ => exc.isTransient
  | ⟨.openStream _, .failed exc⟩ => exc.isTransient
  | _ => false

def transientFailures (es : List Event) : Nat := es.countP isTransientFailure

def isCancelledAwait : Event → Bool
  | ⟨.openStream _, .cancelled⟩ => true
  | ⟨.asyncSleep _, .cancelled⟩ => true
  | _ => false

/-- An attempt starts after the admission and after every sleep. -/
def Cmd.startsAttempt : Cmd → Bool
  | .breaker (.allowRequest _) | .sleep _ | .asyncSleep _ => true
  | _ => false

/-- The readings of the clock that come first in an attempt; `fresh` says that one is about to
start. -/
def startReadings : Bool → List Event → List ℚ
  | _, [] => []
  | true, ⟨.clock, (now : ℚ)⟩ :: es => now :: startReadings false es
  | _, e :: es => startReadings e.1.startsAttempt es

/-- What a schedule must not contain for a call to report: an attempt that starts at or past
the deadline, a failure from which the next backoff overflows, a cancelled await. -/
structure OnSchedule (call : ResilientCall) (k : Nat) (es : List Event) : Prop where
  inTime : ∀ deadline ∈ call.deadline, ∀ now ∈ startReadings true es, now < deadline
  noOverflow : (1024 : Int) < call.maxRetries → k + transientFailures es ≤ 1024
  notCancelled : ∀ e ∈ es, isCancelledAwait e = false

/-! ### Lists put together -/

@[simp] theorem reports_append (name : String) (es es' : List Event) :
    reports name (es ++ es') = reports name es + reports name es' := List.countP_append

@[simp] theorem transientFailures_append (es es' : List Event) :
    transientFailures (es ++ es') = transientFailures es + transientFailures es' :=
  List.countP_append

/-- An attempt is about to start after `es`. -/
def freshAfter : Bool → List Event → Bool
  | fresh, [] => fresh
  | _, e :: es => freshAfter e.1.startsAttempt es

/-- Whether a first reading starts an attempt depends on what stands before it. -/
theorem startReadings_append (fresh : Bool) (es es' : List Event) :
    startReadings fresh (es ++ es') =
      startReadings fresh es ++ startReadings (freshAfter fresh es) es' := by
  induction es generalizing fresh with
  | nil => rfl
  | cons e es ih =>
    obtain ⟨c, x⟩ := e
    cases fresh <;> cases c <;> simp [startReadings, freshAfter, ih, Cmd.startsAttempt]

/-- Events of a backoff before the sleep: nothing in them counts. -/
def Cmd.isCalm : Cmd → Bool
  | .clock | .uniform _ | .utcNow | .recordProviderRetry _ => true
  | _ => false

def Calm (es : List Event) : Prop := ∀ e ∈ es, e.1.isCalm = true

theorem Calm.append {es es' : List Event} (h : Calm es) (h' : Calm es') : Calm (es ++ es') :=
  fun e he => (List.mem_append.mp he).elim (h e) (h' e)

/-- Calm events show in none of the counts. -/
theorem Calm.counts {es : List Event} (h : Calm es) (name : String) :
    reports name es = 0 ∧ transientFailures es = 0 ∧ (∀ e ∈ es, isCancelledAwait e = false) ∧
      startReadings false es = [] ∧ freshAfter false es = false := by
  induction es with
  | nil => exact ⟨rfl, rfl, by simp, rfl, rfl⟩
  | cons e es ih =>
    obtain ⟨hr, ht, hc, hs, hf⟩ := ih fun e he => h e (List.mem_cons_of_mem _ he)
    have he := h e List.mem_cons_self
    obtain ⟨c, x⟩ := e
    cases c <;> simp_all [Cmd.isCalm, reports, transientFailures, startReadings, freshAfter,
      Cmd.startsAttempt, Cmd.isReport, isTransientFailure, isCancelledAwait]

/-- Events of an attempt that starts in time and is not cancelled, with `r` reports and `t`
transient failures. -/
structure Clean (call : ResilientCall) (es : List Event) (r t : Nat) : Prop where
  reports_eq : reports call.name es = r
  transient_eq : transientFailures es = t
  inTime : ∀ deadline ∈ call.deadline, ∀ now ∈ startReadings true es, now < deadline
  notCancelled : ∀ e ∈ es, isCancelledAwait e = false

/-- The events start an attempt at or past the deadline. -/
def Late (call : ResilientCall) (es : List Event) : Prop :=
  ∃ deadline ∈ call.deadline, ∃ now ∈ startReadings true es, deadline ≤ now

theorem freshAfter_append (fresh : Bool) (es es' : List Event) :
    freshAfter fresh (es ++ es') = freshAfter (freshAfter fresh es) es' := by
  induction es generalizing fresh with
  | nil => rfl
  | cons e es ih => exact ih _

/-! ## What each part emits -/

section Parts

variable {call : ResilientCall} {es : List Event} {k : Nat}

/-- Without a deadline the clock is not read. -/
theorem emits_remainingSeconds {deadline : Option ℚ} {o : Except Raised (Option ℚ)}
    (h : Prog.Emits (remainingSeconds deadline) es o) :
    deadline = none ∧ es = [] ∧ o = .ok none ∨
    ∃ d t, deadline = some d ∧ es = [⟨.clock, t⟩] ∧ o = .ok (some (d - t)) := by
  unfold remainingSeconds at h
  cases deadline with
  | none => exact Or.inl ⟨rfl, by simpa using h⟩
  | some d =>
    simp only [Prog.perform_bind, Prog.emits_cmd, Prog.onReply_ok, Prog.pure_eq,
      Prog.emits_ret] at h
    obtain ⟨t, _, rfl, rfl, rfl⟩ := h
    exact Or.inr ⟨d, t, rfl, rfl, rfl⟩

/-- The check at the start of an attempt: it passes in time, or raises. -/
theorem emits_startAttempt {o : Except Raised (Option ℚ)}
    (h : Prog.Emits (startAttempt call) es o) :
    call.deadline = none ∧ es = [] ∧ o = .ok none ∨
    ∃ d t, call.deadline = some d ∧ es = [⟨.clock, t⟩] ∧
      (d ≤ t ∧ o = .error (budgetExceeded call.name) ∨ t < d ∧ o = .ok (some (d - t))) := by
  unfold startAttempt at h
  rcases Prog.emits_bind.mp h with ⟨es₁, es₂, a, rfl, h₁, h₂⟩ | ⟨e, h₁, rfl⟩
  · rcases emits_remainingSeconds h₁ with ⟨hd, rfl, ha⟩ | ⟨d, t, hd, rfl, ha⟩
    · cases ha
      obtain ⟨rfl, rfl⟩ := h₂
      exact Or.inl ⟨hd, rfl, rfl⟩
    · cases ha
      refine Or.inr ⟨d, t, hd, ?_⟩
      dsimp only at h₂
      split at h₂
      · rename_i hle
        obtain ⟨rfl, rfl⟩ := h₂
        exact ⟨rfl, Or.inl ⟨by linarith, rfl⟩⟩
      · rename_i hle
        obtain ⟨rfl, rfl⟩ := h₂
        exact ⟨rfl, Or.inr ⟨by linarith, rfl⟩⟩
  · rcases emits_remainingSeconds h₁ with ⟨-, -, ha⟩ | ⟨_, _, -, -, ha⟩ <;> cases ha

/-- A terminal failure is reported once. -/
theorem emits_recordTerminalFailure {name : String} {exc : ProviderError} {o : Except Raised Unit}
    (h : Prog.Emits (recordTerminalFailure name exc) es o) :
    ∃ e : Event, es = [e] ∧ e.1.isReport name = true ∧ o = .ok () := by
  unfold recordTerminalFailure at h
  split at h
  · obtain ⟨x, _, rfl, rfl, rfl⟩ := h
    exact ⟨_, rfl, by simp [Cmd.isReport], rfl⟩
  · obtain ⟨x, _, rfl, rfl, rfl⟩ := h
    exact ⟨_, rfl, by simp [Cmd.isReport], rfl⟩

theorem emits_retryAfterSeconds {exc : ProviderError} {o : Except Raised (Option ℚ)}
    (h : Prog.Emits (retryAfterSeconds exc) es o) : Calm es ∧ ∃ a, o = .ok a := by
  unfold retryAfterSeconds at h
  split at h
  · obtain ⟨rfl, rfl⟩ := h
    exact ⟨by simp [Calm], _, rfl⟩
  · simp only [Prog.perform_bind, Prog.emits_cmd, Prog.onReply_ok, Prog.pure_eq,
      Prog.emits_ret] at h
    obtain ⟨t, _, rfl, rfl, rfl⟩ := h
    exact ⟨by simp [Calm, Cmd.isCalm], _, rfl⟩
  · obtain ⟨rfl, rfl⟩ := h
    exact ⟨by simp [Calm], _, rfl⟩

/-- The power `2 ** k` overflows from `k = 1024` on. -/
theorem emits_retryDelay {exc : ProviderError} {o : Except Raised ℚ}
    (h : Prog.Emits (retryDelay call exc k) es o) :
    1024 ≤ k ∧ es = [] ∧ o = .error ⟨.overflowError, none⟩ ∨
    k < 1024 ∧ Calm es ∧ ∃ delay, o = .ok delay := by
  unfold retryDelay at h
  split at h
  · rename_i hk
    obtain ⟨rfl, rfl⟩ := h
    exact Or.inl ⟨hk, rfl, rfl⟩
  · rename_i hk
    refine Or.inr ⟨by omega, ?_⟩
    simp only [Prog.perform_bind, Prog.emits_cmd, Prog.onReply_ok] at h
    obtain ⟨jitter, es', rfl, h⟩ := h
    rcases Prog.emits_bind.mp h with ⟨es₁, es₂, a, rfl, h₁, h₂⟩ | ⟨e, h₁, rfl⟩
    · obtain ⟨rfl, rfl⟩ := h₂
      refine ⟨fun e he => ?_, _, rfl⟩
      rcases List.mem_cons.mp he with rfl | he
      · rfl
      · exact (emits_retryAfterSeconds h₁).1 e (by simpa using he)
    · obtain ⟨-, a, ha⟩ := emits_retryAfterSeconds h₁
      cases ha

/-- Either the delay fits, or the budget is exceeded. -/
theorem emits_ensureDelayFitsBudget {delay : ℚ} {o : Except Raised Unit}
    (h : Prog.Emits (ensureDelayFitsBudget call delay) es o) :
    Calm es ∧ (o = .ok () ∨ o = .error (budgetExceeded call.name)) := by
  unfold ensureDelayFitsBudget at h
  rcases Prog.emits_bind.mp h with ⟨es₁, es₂, a, rfl, h₁, h₂⟩ | ⟨e, h₁, rfl⟩
  · rcases emits_remainingSeconds h₁ with ⟨hd, rfl, ha⟩ | ⟨d, t, hd, rfl, ha⟩
    · cases ha
      obtain ⟨rfl, rfl⟩ := h₂
      exact ⟨by simp [Calm], Or.inl rfl⟩
    · cases ha
      dsimp only at h₂
      split at h₂
      · obtain ⟨rfl, rfl⟩ := h₂
        exact ⟨by simp [Calm, Cmd.isCalm], Or.inr rfl⟩
      · obtain ⟨rfl, rfl⟩ := h₂
        exact ⟨by simp [Calm, Cmd.isCalm], Or.inl rfl⟩
  · rcases emits_remainingSeconds h₁ with ⟨-, -, ha⟩ | ⟨_, _, -, -, ha⟩ <;> cases ha

/-- A sleep is one event; a cancelled one raises. -/
def Sleeps (sleeper : ℚ → Gw Unit) : Prop :=
  ∀ delay es o, Prog.Emits (sleeper delay) es o →
    o = .ok () ∧ (es = [⟨.sleep delay, ()⟩] ∨ es = [⟨.asyncSleep delay, .woke⟩]) ∨
    ∃ r, o = .error r ∧ es = [⟨.asyncSleep delay, .cancelled⟩]

theorem sleeps_sleeper : Sleeps sleeper := by
  rintro delay es o ⟨x, _, rfl, rfl, rfl⟩
  exact Or.inl ⟨rfl, Or.inl rfl⟩

theorem sleeps_asyncSleeper : Sleeps asyncSleeper := by
  intro delay es o h
  simp only [asyncSleeper, Prog.perform_bind, Prog.emits_cmd, Prog.onReply_ok] at h
  obtain ⟨x, es', rfl, h⟩ := h
  cases x with
  | woke =>
    obtain ⟨rfl, rfl⟩ := h
    exact Or.inl ⟨rfl, Or.inr rfl⟩
  | cancelled =>
    obtain ⟨rfl, rfl⟩ := h
    exact Or.inr ⟨_, rfl, rfl⟩

/-- What `except Exception` does about an error: its events, which follow those of the failed
attempt, and how it ends. -/
inductive Handled (call : ResilientCall) (k : Nat) (exc : ProviderError) (es : List Event) :
    Except Raised Unit → Prop
  | raised {r : Raised} (fits : exc.isTransient = true → (k : Int) ≠ call.maxRetries → k < 1024)
      (once : reports call.name es = 1) (noTransient : transientFailures es = 0)
      (awaits : ∀ e ∈ es, isCancelledAwait e = false) (noStart : startReadings false es = []) :
      Handled call k exc es (.error r)
  | overflow {r : Raised} (transient : exc.isTransient = true)
      (notLast : (k : Int) ≠ call.maxRetries) (large : 1024 ≤ k) (nothing : es = []) :
      Handled call k exc es (.error r)
  | cancelled {r : Raised} (never : reports call.name es = 0)
      (awaits : ∃ e ∈ es, isCancelledAwait e = true) : Handled call k exc es (.error r)
  | again (transient : exc.isTransient = true) (notLast : (k : Int) ≠ call.maxRetries)
      (fits : k < 1024) (never : reports call.name es = 0) (noTransient : transientFailures es = 0)
      (awaits : ∀ e ∈ es, isCancelledAwait e = false) (noStart : startReadings false es = [])
      (fresh : freshAfter false es = true) : Handled call k exc es (.ok ())

/-- A report after a backoff, in which nothing else counts. -/
theorem Calm.then_report {es : List Event} {e : Event} {name : String} (h : Calm es)
    (he : e.1.isReport name = true) :
    reports name (es ++ [e]) = 1 ∧ transientFailures (es ++ [e]) = 0 ∧
      (∀ e' ∈ es ++ [e], isCancelledAwait e' = false) ∧ startReadings false (es ++ [e]) = [] := by
  obtain ⟨hr, ht, hc, hs, hf⟩ := h.counts name
  have hcounts : transientFailures [e] = 0 ∧ isCancelledAwait e = false ∧
      startReadings false [e] = [] := by
    obtain ⟨c, x⟩ := e
    cases c <;> first | exact ⟨rfl, rfl, rfl⟩ | simp [Cmd.isReport] at he
  refine ⟨?_, ?_, fun e' he' => ?_, ?_⟩
  · rw [reports_append, hr]
    simp [reports, he]
  · rw [transientFailures_append, ht, hcounts.1]
  · rcases List.mem_append.mp he' with he' | he'
    · exact hc e' he'
    · rw [List.mem_singleton] at he'
      exact he' ▸ hcounts.2.1
  · rw [startReadings_append, hs, hf, hcounts.2.2, List.append_nil]

/-- What becomes of a provider error: it is raised, having been reported, or it is slept off. -/
theorem handled_retryOrRaise {sleeper : ℚ → Gw Unit} (hsl : Sleeps sleeper) {exc : ProviderError}
    {o : Except Raised Unit} (h : Prog.Emits (retryOrRaise call sleeper k exc) es o) :
    Handled call k exc es o := by
  unfold retryOrRaise at h
  split at h
  · rename_i hterm
    -- not transient, or the last attempt
    rcases Prog.emits_bind.mp h with ⟨es₁, es₂, a, rfl, h₁, h₂⟩ | ⟨e, h₁, rfl⟩
    · obtain ⟨rfl, rfl⟩ := h₂
      obtain ⟨e, rfl, he, -⟩ := emits_recordTerminalFailure h₁
      obtain ⟨h1, h2, h3, h4⟩ := Calm.then_report (show Calm [] by simp [Calm]) he
      refine .raised (fun htr hne => ?_) h1 h2 h3 h4
      simp [htr, hne] at hterm
    · obtain ⟨e, rfl, he, ho⟩ := emits_recordTerminalFailure h₁
      cases ho
  · rename_i hretry
    have htr : exc.isTransient = true := by
      by_contra hn
      simp [hn] at hretry
    have hne : (k : Int) ≠ call.maxRetries := by
      intro he
      simp [he] at hretry
    rcases Prog.emits_bind.mp h with ⟨es₁, es₂, delay, rfl, h₁, h₂⟩ | ⟨e, h₁, rfl⟩
    · rcases emits_retryDelay h₁ with ⟨-, -, ho⟩ | ⟨hk, hcalm₁, -⟩
      · cases ho
      rcases Prog.emits_bind.mp h₂ with ⟨es₃, es₄, a, rfl, h₃, h₄⟩ | ⟨e, h₃, rfl⟩
      · rcases Prog.emits_catch.mp h₃ with ⟨_, h₅, -⟩ | ⟨_, _, _, _, -, h₆⟩
        · -- the delay fits: count the retry, and sleep
          have hcalm₃ := (emits_ensureDelayFitsBudget h₅).1
          simp only [Prog.perform_bind, Prog.emits_cmd, Prog.onReply_ok] at h₄
          obtain ⟨x, es₇, rfl, h₇⟩ := h₄
          have hcalm : Calm (es₁ ++ (es₃ ++ [⟨.recordProviderRetry exc.retryReason, x⟩])) :=
            hcalm₁.append (hcalm₃.append (by simp [Calm, Cmd.isCalm]))
          obtain ⟨hr, ht, hc, hs, hf⟩ := hcalm.counts call.name
          have happ : es₁ ++ (es₃ ++ ⟨.recordProviderRetry exc.retryReason, x⟩ :: es₇) =
              (es₁ ++ (es₃ ++ [⟨.recordProviderRetry exc.retryReason, x⟩])) ++ es₇ := by simp
          rw [happ]
          rcases hsl _ _ _ h₇ with ⟨rfl, hslept⟩ | ⟨r, rfl, rfl⟩
          · have hone : reports call.name es₇ = 0 ∧ transientFailures es₇ = 0 ∧
                (∀ e ∈ es₇, isCancelledAwait e = false) ∧ startReadings false es₇ = [] ∧
                freshAfter false es₇ = true := by
              rcases hslept with rfl | rfl <;>
                exact ⟨rfl, rfl, by simp [isCancelledAwait], rfl, rfl⟩
            refine .again htr hne hk ?_ ?_ ?_ ?_ ?_
            · rw [reports_append, hr, hone.1]
            · rw [transientFailures_append, ht, hone.2.1]
            · exact fun e he => (List.mem_append.mp he).elim (hc e) (hone.2.2.1 e)
            · rw [startReadings_append, hs, hf, hone.2.2.2.1, List.append_nil]
            · rw [freshAfter_append, hf]
              exact hone.2.2.2.2
          · refine .cancelled ?_ ⟨_, List.mem_append_right _ List.mem_cons_self, rfl⟩
            rw [reports_append, hr]
            rfl
        · rcases Prog.emits_bind.mp h₆ with ⟨_, _, _, _, _, hbad, ho⟩ | ⟨_, _, ho⟩
          · cases ho
          · cases ho
      · -- the delay does not fit: report, and raise a budget error
        rcases Prog.emits_catch.mp h₃ with ⟨_, _, ho⟩ | ⟨es₅, es₆, e, rfl, h₅, h₆⟩
        · cases ho
        have hcalm₅ := (emits_ensureDelayFitsBudget h₅).1
        rcases Prog.emits_bind.mp h₆ with ⟨es₇, es₈, _, rfl, h₇, rfl, ho⟩ | ⟨_, h₇, ho⟩
        · obtain ⟨e', rfl, he', -⟩ := emits_recordTerminalFailure h₇
          obtain ⟨h1, h2, h3, h4⟩ := (hcalm₁.append hcalm₅).then_report he'
          rw [List.append_nil, ← List.append_assoc]
          exact .raised (fun _ _ => hk) h1 h2 h3 h4
        · obtain ⟨_, _, _, ho'⟩ := emits_recordTerminalFailure h₇
          cases ho'
    · rcases emits_retryDelay h₁ with ⟨hk, rfl, ho⟩ | ⟨-, -, _, ho⟩
      · exact .overflow htr hne hk rfl
      · cases ho

/-! ## One attempt -/

/-- What the `try` of an attempt does, `due` being what a success reports. -/
inductive Tried {α : Type} (call : ResilientCall) (due : Nat) (es : List Event) :
    Except Raised α → Prop
  | done {a : α} (clean : Clean call es due 0) : Tried call due es (.ok a)
  | failed {exc : ProviderError} (clean : Clean call es 0 (if exc.isTransient then 1 else 0))
      (stale : freshAfter true es = false) : Tried call due es (.error ⟨.provider exc, none⟩)
  | expired {r : Raised} (budget : ∃ name, r.exc = .retryBudgetExceeded name)
      (clean : Clean call es 1 0) : Tried call due es (.error r)
  | late {r : Raised} (budget : ∃ name, r.exc = .retryBudgetExceeded name)
      (never : reports call.name es = 0) (late : Late call es) : Tried call due es (.error r)
  | cancelled (never : reports call.name es = 0) (awaits : ∃ e ∈ es, isCancelledAwait e = true) :
      Tried call due es (.error ⟨.cancelledError, none⟩)

theorem clean_nil (call : ResilientCall) : Clean call [] 0 0 :=
  ⟨rfl, rfl, by simp [startReadings], by simp⟩

theorem clean_clock {d t : ℚ} (hd : call.deadline = some d) (ht : t < d) :
    Clean call [⟨.clock, t⟩] 0 0 := by
  refine ⟨rfl, rfl, fun d' hd' now hnow => ?_, by simp [isCancelledAwait]⟩
  rw [hd] at hd'
  cases hd'
  rw [startReadings, startReadings, List.mem_singleton] at hnow
  exact hnow ▸ ht

/-- What follows the check at the start of an attempt. -/
theorem Clean.then {es es' : List Event} {r t : Nat} (h : Clean call es 0 0)
    (hr : reports call.name es' = r) (ht : transientFailures es' = t)
    (hs : startReadings (freshAfter true es) es' = [])
    (hc : ∀ e ∈ es', isCancelledAwait e = false) : Clean call (es ++ es') r t where
  reports_eq := by rw [reports_append, h.reports_eq, hr, Nat.zero_add]
  transient_eq := by rw [transientFailures_append, h.transient_eq, ht, Nat.zero_add]
  inTime := by
    rw [startReadings_append, hs, List.append_nil]
    exact h.inTime
  notCancelled e he := (List.mem_append.mp he).elim (h.notCancelled e) (hc e)

/-- The start of an attempt, as both functions' `try` go on from it. -/
theorem emits_start {o : Except Raised (Option ℚ)} (h : Prog.Emits (startAttempt call) es o) :
    (∃ r, o = .ok r ∧ Clean call es 0 0) ∨
    o = .error (budgetExceeded call.name) ∧ reports call.name es = 0 ∧ Late call es := by
  rcases emits_startAttempt h with ⟨-, rfl, rfl⟩ | ⟨d, t, hd, rfl, ⟨hle, rfl⟩ | ⟨hlt, rfl⟩⟩
  · exact Or.inl ⟨_, rfl, clean_nil call⟩
  · exact Or.inr ⟨rfl, rfl, d, hd, t, by simp [startReadings], hle⟩
  · exact Or.inl ⟨_, rfl, clean_clock hd hlt⟩

/-- One attempt of a call, and what it reports. -/
theorem tried_callAttempt {o : Except Raised AdapterResult}
    (h : Prog.Emits (callAttempt call k) es o) : Tried call 1 es o := by
  unfold callAttempt attemptTimeout at h
  rw [Prog.bind_assoc] at h
  rcases Prog.emits_bind.mp h with ⟨es₁, es₂, remaining, rfl, h₁, h₂⟩ | ⟨e, h₁, rfl⟩
  · rcases emits_start h₁ with ⟨r, -, hclean⟩ | ⟨ho, -⟩
    · obtain ⟨timeout, h₂⟩ : ∃ timeout, Prog.Emits (do
          let answer : Except ProviderError AdapterResult ← Prog.perform (Cmd.providerCall timeout)
          match answer with
          | .ok result =>
            Prog.perform (Cmd.breaker (.recordSuccess call.name))
            return { result with retries := k }
          | .error exc => throw ⟨.provider exc, none⟩) es₂ o := by
        cases remaining with
        | none => exact ⟨_, h₂⟩
        | some remaining => exact ⟨_, h₂⟩
      simp only [Prog.perform_bind, Prog.emits_cmd, Prog.onReply_ok] at h₂
      obtain ⟨answer, es₃, rfl, h₃⟩ := h₂
      -- a call starts no attempt, so what follows it is read anew
      have hstart : ∀ b es, startReadings b (⟨.providerCall timeout, answer⟩ :: es) =
          startReadings false es := fun b es => by cases b <;> rfl
      cases answer with
      | ok result =>
        obtain ⟨x, _, rfl, rfl, rfl⟩ := h₃
        refine .done (hclean.then ?_ rfl ?_ ?_)
        · simp [reports, Cmd.isReport]
        · rw [hstart]
          rfl
        · simp [isCancelledAwait]
      | error exc =>
        obtain ⟨rfl, rfl⟩ := h₃
        refine .failed (hclean.then rfl ?_ ?_ ?_) ?_
        · cases htr : exc.isTransient <;> simp [transientFailures, isTransientFailure, htr]
        · rw [hstart]
          rfl
        · simp [isCancelledAwait]
        · rw [freshAfter_append]
          rfl
    · cases ho
  · rcases emits_start h₁ with ⟨r, ho, -⟩ | ⟨ho, hr, hlate⟩
    · cases ho
    · cases ho
      exact .late ⟨_, rfl⟩ hr hlate

/-- Opening a stream reports no success: it is due later. -/
theorem tried_openAttempt {o : Except Raised OpenedProviderStream}
    (h : Prog.Emits (openAttempt call k) es o) : Tried call 0 es o := by
  unfold openAttempt at h
  rcases Prog.emits_bind.mp h with ⟨es₁, es₂, remaining, rfl, h₁, h₂⟩ | ⟨e, h₁, rfl⟩
  · rcases emits_start h₁ with ⟨r, -, hclean⟩ | ⟨ho, -⟩
    · simp only [Prog.perform_bind, Prog.emits_cmd, Prog.onReply_ok] at h₂
      obtain ⟨opening, es₃, rfl, h₃⟩ := h₂
      have hstart : ∀ b es, startReadings b (⟨.openStream remaining, opening⟩ :: es) =
          startReadings false es := fun b es => by cases b <;> rfl
      split at h₃
      · obtain ⟨rfl, rfl⟩ := h₃
        refine .done (hclean.then rfl rfl ?_ ?_)
        · rw [hstart]
          rfl
        · simp [isCancelledAwait]
      · -- `asyncio.wait_for` ran out
        rcases Prog.emits_bind.mp h₃ with ⟨es₄, _, _, rfl, h₄, rfl, rfl⟩ | ⟨_, h₄, -⟩
        · obtain ⟨x, _, rfl, rfl, -⟩ := h₄
          refine .expired ⟨_, rfl⟩ (hclean.then ?_ rfl ?_ ?_)
          · simp [reports, Cmd.isReport]
          · rw [hstart]
            rfl
          · simp [isCancelledAwait]
        · obtain ⟨_, _, _, ho⟩ := emits_recordTerminalFailure h₄
          cases ho
      · rename_i exc _
        obtain ⟨rfl, rfl⟩ := h₃
        refine .failed (hclean.then rfl ?_ ?_ ?_) ?_
        · cases htr : exc.isTransient <;> simp [transientFailures, isTransientFailure, htr]
        · rw [hstart]
          rfl
        · simp [isCancelledAwait]
        · rw [freshAfter_append]
          rfl
      · obtain ⟨rfl, rfl⟩ := h₃
        refine .cancelled ?_ ⟨_, List.mem_append_right _ List.mem_cons_self, rfl⟩
        rw [reports_append, hclean.reports_eq]
        rfl
    · cases ho
  · rcases emits_start h₁ with ⟨r, ho, -⟩ | ⟨ho, hr, hlate⟩
    · cases ho
    · cases ho
      exact .late ⟨_, rfl⟩ hr hlate

/-- How one iteration of the loop ends. -/
inductive Attempted {α : Type} (call : ResilientCall) (due k : Nat) (es : List Event) :
    Except Raised (Except ProviderError α) → Prop
  | done {a : α} (settled : reports call.name es = due) (ok : OnSchedule call k es) :
      Attempted call due k es (.ok (.ok a))
  | raised {r : Raised} (settled : reports call.name es = 1) (ok : OnSchedule call k es) :
      Attempted call due k es (.error r)
  | lost {r : Raised} (never : reports call.name es = 0) (bad : ¬ OnSchedule call k es) :
      Attempted call due k es (.error r)
  | again {exc : ProviderError} (clean : Clean call es 0 1) (fresh : freshAfter true es = true)
      (fits : k < 1024) (notLast : (k : Int) ≠ call.maxRetries) :
      Attempted call due k es (.ok (.error exc))

/-- An attempt together with what follows its error. -/
theorem attempted_runAttempt {α : Type} {due : Nat} {sleeper : ℚ → Gw Unit} {body : Gw α}
    {o : Except Raised (Except ProviderError α)} (hsl : Sleeps sleeper)
    (hbody : ∀ es o, Prog.Emits body es o → Tried call due es o) (hk : k ≤ 1024)
    (hlast : (k : Int) ≤ call.maxRetries)
    (h : Prog.Emits (runAttempt call sleeper body k) es o) : Attempted call due k es o := by
  unfold runAttempt at h
  rcases Prog.emits_catch.mp h with ⟨a, h₁, rfl⟩ | ⟨es₁, es₂, raised, rfl, h₁, h₂⟩
  · rcases Prog.emits_bind.mp h₁ with ⟨es₁, _, result, rfl, hb, rfl, ho⟩ | ⟨_, _, ho⟩
    · cases ho
      cases hbody _ _ hb with
      | done clean =>
        rw [List.append_nil]
        refine .done clean.reports_eq ⟨clean.inTime, fun _ => ?_, clean.notCancelled⟩
        rw [clean.transient_eq]
        omega
    · cases ho
  · have hb : Prog.Emits body es₁ (.error raised) := by
      rcases Prog.emits_bind.mp h₁ with ⟨_, _, _, _, _, _, ho⟩ | ⟨_, hb, ho⟩
      · cases ho
      · cases ho
        exact hb
    cases hbody _ _ hb with
    | @failed exc clean stale =>
      -- whatever the handler does, it is not at the start of an attempt
      have hstarts : startReadings false es₂ = [] →
          startReadings true (es₁ ++ es₂) = startReadings true es₁ := fun hs => by
        rw [startReadings_append, stale, hs, List.append_nil]
      have htransient : transientFailures es₁ = if exc.isTransient then 1 else 0 :=
        clean.transient_eq
      rcases Prog.emits_bind.mp h₂ with ⟨es₃, _, _, rfl, h₃, rfl, rfl⟩ | ⟨e, h₃, rfl⟩
      · rw [List.append_nil] at hstarts ⊢
        cases handled_retryOrRaise hsl h₃ with
        | again transient notLast fits never noTransient awaits noStart fresh =>
          rw [transient, if_pos rfl] at htransient
          refine .again ⟨?_, ?_, ?_, ?_⟩ ?_ fits notLast
          · rw [reports_append, clean.reports_eq, never]
          · rw [transientFailures_append, htransient, noTransient]
          · rw [hstarts noStart]
            exact clean.inTime
          · exact fun e he => (List.mem_append.mp he).elim (clean.notCancelled e) (awaits e)
          · rw [freshAfter_append, stale]
            exact fresh
      · cases handled_retryOrRaise hsl h₃ with
        | raised fits once noTransient awaits noStart =>
          refine .raised ?_ ⟨?_, fun hmax => ?_, ?_⟩
          · rw [reports_append, clean.reports_eq, once]
          · rw [hstarts noStart]
            exact clean.inTime
          · rw [transientFailures_append, htransient, noTransient]
            cases htr : exc.isTransient with
            | false => simpa using hk
            | true =>
              have := fits htr (by omega)
              simp only [if_true]
              omega
          · exact fun e he => (List.mem_append.mp he).elim (clean.notCancelled e) (awaits e)
        | overflow transient notLast large nothing =>
          subst nothing
          rw [transient, if_pos rfl] at htransient
          rw [List.append_nil]
          refine .lost clean.reports_eq fun hok => ?_
          have := hok.noOverflow (by omega)
          omega
        | cancelled never awaits =>
          obtain ⟨e, he, hcan⟩ := awaits
          refine .lost ?_ fun hok => ?_
          · rw [reports_append, clean.reports_eq, never]
          · rw [hok.notCancelled e (List.mem_append_right _ he)] at hcan
            cases hcan
    | expired budget clean =>
      obtain ⟨name, hname⟩ := budget
      rw [hname] at h₂
      obtain ⟨rfl, rfl⟩ := h₂
      rw [List.append_nil]
      refine .raised clean.reports_eq ⟨clean.inTime, fun _ => ?_, clean.notCancelled⟩
      rw [clean.transient_eq]
      omega
    | late budget never late =>
      obtain ⟨name, hname⟩ := budget
      rw [hname] at h₂
      obtain ⟨rfl, rfl⟩ := h₂
      rw [List.append_nil]
      obtain ⟨d, hd, t, ht, hle⟩ := late
      exact .lost never fun hok => absurd (hok.inTime d hd t ht) (not_lt.mpr hle)
    | cancelled never awaits =>
      obtain ⟨rfl, rfl⟩ := h₂
      rw [List.append_nil]
      obtain ⟨e, he, hcan⟩ := awaits
      refine .lost never fun hok => ?_
      rw [hok.notCancelled e he] at hcan
      cases hcan

/-! ## The loop -/

/-- What a call owes the breaker by the time it ends: a success `due`, an exception one. -/
def owed {α : Type} (due : Nat) : Except Raised α → Nat
  | .ok _ => due
  | .error _ => 1

/-- **The loop**, by induction on the iterations to go. Each has failed transiently so far, so
the attempt number counts the transient failures before it. -/
theorem emits_attempts {α : Type} {due : Nat} {sleeper : ℚ → Gw Unit} {body : Nat → Gw α}
    {exhausted : Option ProviderError → Gw α} (hsl : Sleeps sleeper)
    (hbody : ∀ k es o, Prog.Emits (body k) es o → Tried call due es o)
    (hexhausted : ∀ last es o, Prog.Emits (exhausted last) es o →
      ∃ (x : Unit) (r : Raised), es = [⟨.breaker (.recordFailure call.name), x⟩] ∧ o = .error r)
    (n : Nat) {last : Option ProviderError} {o : Except Raised α} (hk : k ≤ 1024)
    (hn : k + n = (call.maxRetries + 1).toNat) (hnone : n = 0 → k = 0)
    (h : Prog.Emits (attempts call sleeper body exhausted n k last) es o) :
    reports call.name es = owed due o ↔ OnSchedule call k es := by
  induction n generalizing k last es with
  | zero =>
    -- no attempt at all: a negative limit
    obtain ⟨x, r, rfl, rfl⟩ := hexhausted _ _ _ h
    refine ⟨fun _ => ⟨by simp [startReadings], fun _ => ?_, by simp [isCancelledAwait]⟩,
      fun _ => by simp [reports, Cmd.isReport, owed]⟩
    rw [hnone rfl]
    simp [transientFailures, isTransientFailure]
  | succ n ih =>
    unfold attempts at h
    have hlast : (k : Int) ≤ call.maxRetries := by omega
    rcases Prog.emits_bind.mp h with ⟨es₁, es₂, a, rfl, h₁, h₂⟩ | ⟨e, h₁, rfl⟩
    · cases attempted_runAttempt hsl (hbody k) hk hlast h₁ with
      | done settled ok =>
        obtain ⟨rfl, rfl⟩ := h₂
        rw [List.append_nil]
        exact ⟨fun _ => ok, fun _ => settled⟩
      | again clean fresh fits notLast =>
        -- the sleep is over, and the next attempt starts with a fresh reading
        have hrest := ih (k := k + 1) (by omega) (by omega) (by omega) h₂
        rw [reports_append, clean.reports_eq, Nat.zero_add, hrest]
        constructor
        · intro hok
          refine ⟨fun d hd now hnow => ?_, fun hmax => ?_, fun e he => ?_⟩
          · rw [startReadings_append, fresh] at hnow
            exact (List.mem_append.mp hnow).elim (clean.inTime d hd now) (hok.inTime d hd now)
          · have := hok.noOverflow hmax
            rw [transientFailures_append, clean.transient_eq]
            omega
          · exact (List.mem_append.mp he).elim (clean.notCancelled e) (hok.notCancelled e)
        · intro hok
          refine ⟨fun d hd now hnow => hok.inTime d hd now ?_, fun hmax => ?_, fun e he => ?_⟩
          · rw [startReadings_append, fresh]
            exact List.mem_append_right _ hnow
          · have := hok.noOverflow hmax
            rw [transientFailures_append, clean.transient_eq] at this
            omega
          · exact hok.notCancelled e (List.mem_append_right _ he)
    · cases attempted_runAttempt hsl (hbody k) hk hlast h₁ with
      | raised settled ok => exact ⟨fun _ => ok, fun _ => settled⟩
      | lost never bad =>
        refine ⟨fun he => ?_, fun hok => absurd hok bad⟩
        rw [never] at he
        cases he

end Parts

/-! ## A call from admission to its end -/

section Calls

variable {call : ResilientCall} {es : List Event}

/-- The breaker let the call through. -/
def Admitted (call : ResilientCall) (es : List Event) : Prop :=
  ∃ es', es = ⟨.breaker (.allowRequest call.name), true⟩ :: es'

/-- An admitted call has asked the breaker, and then loops. -/
theorem emits_admitted {α : Type} {loop : Gw α} {o : Except Raised α}
    (h : Prog.Emits (admitted call loop) es o) (ha : Admitted call es) :
    ∃ es', es = ⟨.breaker (.allowRequest call.name), true⟩ :: es' ∧ Prog.Emits loop es' o := by
  obtain ⟨es', rfl⟩ := ha
  simp only [admitted, Prog.perform_bind, Prog.emits_cmd, Prog.onReply_ok] at h
  obtain ⟨x, es'', he, h⟩ := h
  cases he
  exact ⟨_, rfl, by simpa using h⟩

/-- The admission itself is neither a report nor an attempt. -/
theorem onSchedule_admitted (allowed : Bool) :
    OnSchedule call 0 (⟨.breaker (.allowRequest call.name), allowed⟩ :: es) ↔
      OnSchedule call 0 es := by
  have hcount : transientFailures (⟨.breaker (.allowRequest call.name), allowed⟩ :: es) =
      transientFailures es := by simp [transientFailures, isTransientFailure]
  have hstart : startReadings true (⟨.breaker (.allowRequest call.name), allowed⟩ :: es) =
      startReadings true es := rfl
  constructor
  · intro h
    exact ⟨hstart ▸ h.inTime, hcount ▸ h.noOverflow,
      fun e he => h.notCancelled e (List.mem_cons_of_mem _ he)⟩
  · intro h
    refine ⟨hstart ▸ h.inTime, hcount ▸ h.noOverflow, fun e he => ?_⟩
    rcases List.mem_cons.mp he with rfl | he
    · rfl
    · exact h.notCancelled e he

/-- The admission event counts nothing either. -/
theorem reports_admitted (allowed : Bool) :
    reports call.name (⟨.breaker (.allowRequest call.name), allowed⟩ :: es) =
      reports call.name es := by simp [reports, Cmd.isReport]

/-- A call reports once if and only if it is on schedule. -/
theorem call_reports_once {o : Except Raised AdapterResult}
    (h : Prog.Emits (callProviderWithResilience call) es o) (ha : Admitted call es) :
    reports call.name es = 1 ↔ OnSchedule call 0 es := by
  obtain ⟨es', rfl, hloop⟩ := emits_admitted h ha
  have hexhausted : ∀ last es (o : Except Raised AdapterResult),
      Prog.Emits (callExhausted call last) es o → ∃ (x : Unit) (r : Raised),
        es = [⟨.breaker (.recordFailure call.name), x⟩] ∧ o = .error r := by
    intro last es o h
    simp only [callExhausted, Prog.perform_bind, Prog.emits_cmd, Prog.onReply_ok] at h
    obtain ⟨x, es', rfl, h⟩ := h
    cases last <;> obtain ⟨rfl, rfl⟩ := h <;> exact ⟨x, _, rfl, rfl⟩
  have hiff := emits_attempts sleeps_sleeper (fun _ _ _ h => tried_callAttempt h) hexhausted _
    (by omega) (by omega) (fun _ => rfl) hloop
  have howed : owed 1 o = 1 := by cases o <;> rfl
  rw [reports_admitted, onSchedule_admitted, ← hiff, howed]

/-- The stream reports nothing when it hands out an opened stream: its consumer will. -/
theorem stream_reports_once {o : Except Raised OpenedProviderStream}
    (h : Prog.Emits (openProviderStreamWithResilience call) es o) (ha : Admitted call es) :
    reports call.name es = owed 0 o ↔ OnSchedule call 0 es := by
  obtain ⟨es', rfl, hloop⟩ := emits_admitted h ha
  have hexhausted : ∀ last es (o : Except Raised OpenedProviderStream),
      Prog.Emits (openExhausted call last) es o → ∃ (x : Unit) (r : Raised),
        es = [⟨.breaker (.recordFailure call.name), x⟩] ∧ o = .error r := by
    intro last es o h
    simp only [openExhausted, Prog.perform_bind, Prog.emits_cmd, Prog.onReply_ok] at h
    obtain ⟨x, es', rfl, h⟩ := h
    cases last <;> obtain ⟨rfl, rfl⟩ := h <;> exact ⟨x, _, rfl, rfl⟩
  have hiff := emits_attempts sleeps_asyncSleeper (fun _ _ _ h => tried_openAttempt h) hexhausted _
    (by omega) (by omega) (fun _ => rfl) hloop
  rw [reports_admitted, onSchedule_admitted, ← hiff]

end Calls

end PolyGate.Gateway
