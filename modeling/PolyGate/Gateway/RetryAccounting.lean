import Mathlib.Data.Finset.Card
import PolyGate.Gateway.SafeFailover
import PolyGate.Gateway.TwinLoops

/-!
# `Gateway/RetryAccounting.lean` — how many retries a request took

The retries of a request are counted in four places: by the loops, which carry a number across
failovers on the exceptions; by the metric; by the sleeps; and by the providers themselves, as the
calls beyond the first. Here a loop of `main.py` is run with the resilient calls it makes written
out, so that all four can be read off one list of events.

A call accounts for itself (`Accounts`), on every way out that does not end the request. The loop
adds what the calls say, and calls no name twice.
-/

namespace PolyGate.Gateway.RetryAccounting

open Lib TwinLoops

/-! ## A call -/

/-- A retry is recorded. -/
def Cmd.recordsRetry : Cmd → Bool
  | .recordProviderRetry _ => true
  | _ => false

/-- What is counted of a call: retries recorded, sleeps, calls of the provider. -/
structure Tally (es : List Event) (recorded slept attempted : Nat) : Prop where
  recorded_eq : (es.countP fun e => Cmd.recordsRetry e.1) = recorded
  slept_eq : (delays es).length = slept
  attempted_eq : attemptCount es = attempted

/-- A command that counts as nothing. -/
def Cmd.isQuiet (c : Cmd) : Prop :=
  Cmd.recordsRetry c = false ∧ Cmd.delay c = none ∧ Cmd.isAttempt c = false

section Tally
variable {es es' : List Event} {a b c a' b' c' : Nat}

theorem Tally.append (h : Tally es a b c) (h' : Tally es' a' b' c') :
    Tally (es ++ es') (a + a') (b + b') (c + c') where
  recorded_eq := by rw [List.countP_append, h.recorded_eq, h'.recorded_eq]
  slept_eq := by
    have happend : delays (es ++ es') = delays es ++ delays es' := List.filterMap_append
    rw [happend, List.length_append, h.slept_eq, h'.slept_eq]
  attempted_eq := by
    have happend : attemptCount (es ++ es') = attemptCount es + attemptCount es' :=
      List.countP_append
    rw [happend, h.attempted_eq, h'.attempted_eq]

theorem tally_quiet (h : ∀ e ∈ es, Cmd.isQuiet e.1) : Tally es 0 0 0 where
  recorded_eq := List.countP_eq_zero.mpr fun e he => by simp [(h e he).1]
  slept_eq := by
    rw [List.length_eq_zero_iff]
    exact List.filterMap_eq_nil_iff.mpr fun e he => (h e he).2.1
  attempted_eq := List.countP_eq_zero.mpr fun e he => by simp [(h e he).2.2]

end Tally

theorem isQuiet_of_isAside {c : Cmd} (h : Cmd.isAside c) : Cmd.isQuiet c := by
  cases c <;> first | exact ⟨rfl, rfl, rfl⟩ | exact h.elim

/-- What goes on around an attempt counts as nothing. -/
theorem tally_aside {α : Type} {p : Gw α} (hp : Prog.Only Cmd.isAside p) {es : List Event}
    {o : Except Raised α} (h : Prog.Emits p es o) : Tally es 0 0 0 :=
  tally_quiet fun e he => isQuiet_of_isAside (hp.emits h e he)

section Call

variable {call : ResilientCall} {k n : Nat} {es : List Event}

/-- A backoff records a retry and goes on, or records none and raises an error with the count. -/
theorem emits_backoff {exc : ProviderError} {o : Except Raised ℚ} (hk : (k : Int) ≤ call.maxRetries)
    (hmax : call.maxRetries ≤ 1024) (h : Prog.Emits (backoff call k exc) es o) :
    (∃ r, o = .error r ∧ r.polygateRetries = some k ∧ Tally es 0 0 0) ∨
    ∃ delay, o = .ok delay ∧ (k : Int) ≠ call.maxRetries ∧ Tally es 1 0 0 := by
  unfold backoff at h
  split at h
  · rcases Prog.emits_bind.mp h with ⟨es₁, es₂, _, rfl, h₁, rfl, rfl⟩ | ⟨e, h₁, -⟩
    · rw [List.append_nil]
      exact Or.inl ⟨_, rfl, rfl, tally_aside only_recordTerminalFailure h₁⟩
    · obtain ⟨_, _, _, ho⟩ := emits_recordTerminalFailure h₁
      cases ho
  · rename_i hretry
    have hne : (k : Int) ≠ call.maxRetries := by
      intro heq
      simp [heq] at hretry
    rcases Prog.emits_bind.mp h with ⟨es₁, es₂, delay, rfl, h₁, h₂⟩ | ⟨e, h₁, rfl⟩
    · have hdelay := tally_aside only_retryDelay h₁
      rcases Prog.emits_bind.mp h₂ with ⟨es₃, es₄, _, rfl, h₃, h₄⟩ | ⟨e, h₃, rfl⟩
      · rcases Prog.emits_catch.mp h₃ with ⟨_, h₅, -⟩ | ⟨_, _, _, _, -, h₆⟩
        · obtain ⟨x, _, rfl, rfl, rfl⟩ := h₄
          have hfits := tally_aside only_ensureDelayFitsBudget h₅
          have hrecord : Tally [⟨.recordProviderRetry exc.retryReason, x⟩] 1 0 0 := ⟨rfl, rfl, rfl⟩
          exact Or.inr ⟨delay, rfl, hne, hdelay.append (hfits.append hrecord)⟩
        · rcases Prog.emits_bind.mp h₆ with ⟨_, _, _, -, -, -, ho⟩ | ⟨_, -, ho⟩
          · cases ho
          · cases ho
      · rcases Prog.emits_catch.mp h₃ with ⟨_, -, ho⟩ | ⟨es₅, es₆, _, rfl, h₅, h₆⟩
        · cases ho
        · have hfits := tally_aside only_ensureDelayFitsBudget h₅
          rcases Prog.emits_bind.mp h₆ with ⟨es₇, es₈, _, rfl, h₇, rfl, ho⟩ | ⟨_, h₇, -⟩
          · cases ho
            have hreport := tally_aside only_recordTerminalFailure h₇
            rw [List.append_nil]
            exact Or.inl ⟨_, rfl, rfl, hdelay.append (hfits.append hreport)⟩
          · obtain ⟨_, _, _, ho⟩ := emits_recordTerminalFailure h₇
            cases ho
    · rcases emits_retryDelay h₁ with ⟨hlarge, -, -⟩ | ⟨-, -, _, ho⟩
      · omega
      · cases ho

/-- The end of the request, whatever else can be said of it. -/
def EndsRequest (exc : Exc) : Prop :=
  exc = .cancelledError ∨ ∃ name, exc = .retryBudgetExceeded name

/-- What the `try` of the attempt `k` emits: one call of the provider. -/
inductive Tried {α : Type} (retries : α → Nat) (k : Nat) (es : List Event) : Except Raised α → Prop
  | done {a : α} (count : retries a = k) (tally : Tally es 0 0 1) : Tried retries k es (.ok a)
  | failed {exc : ProviderError} (tally : Tally es 0 0 1) :
      Tried retries k es (.error ⟨.provider exc, none⟩)
  | ended {r : Raised} (ends : EndsRequest r.exc) : Tried retries k es (.error r)

/-- What a call emits, from its attempt `k` on: one sleep and one record for each retry, and one
call of the provider more. An error says how many, unless it ends the request. -/
inductive Accounts {α : Type} (retries : α → Nat) (k : Nat) (es : List Event) :
    Except Raised α → Prop
  | served {a : α} {n : Nat} (count : retries a = k + n) (tally : Tally es n n (n + 1)) :
      Accounts retries k es (.ok a)
  | failed {r : Raised} {n : Nat} (count : r.polygateRetries = some (k + n))
      (tally : Tally es n n (n + 1)) : Accounts retries k es (.error r)
  | ended {r : Raised} (ends : EndsRequest r.exc) : Accounts retries k es (.error r)

theorem tried_callAttempt {o : Except Raised AdapterResult}
    (h : Prog.Emits (callAttempt call k) es o) : Tried AdapterResult.retries k es o := by
  rw [callAttempt_eq] at h
  rcases Prog.emits_bind.mp h with ⟨es₁, es₂, remaining, rfl, h₁, h₂⟩ | ⟨e, h₁, rfl⟩
  · have hstart := tally_aside only_startAttempt h₁
    obtain ⟨x, es₃, rfl, h₃⟩ := h₂
    cases x with
    | ok result =>
      obtain ⟨x, _, rfl, rfl, rfl⟩ := h₃
      exact .done rfl (hstart.append ⟨rfl, rfl, rfl⟩)
    | error exc =>
      obtain ⟨rfl, rfl⟩ := h₃
      exact .failed (hstart.append ⟨rfl, rfl, rfl⟩)
  · rcases emits_start h₁ with ⟨_, ho, -⟩ | ⟨ho, -⟩
    · cases ho
    · cases ho
      exact .ended (Or.inr ⟨_, rfl⟩)

theorem tried_openAttempt {o : Except Raised OpenedProviderStream}
    (h : Prog.Emits (openAttempt call k) es o) : Tried OpenedProviderStream.retries k es o := by
  rw [openAttempt_eq] at h
  rcases Prog.emits_bind.mp h with ⟨es₁, es₂, remaining, rfl, h₁, h₂⟩ | ⟨e, h₁, rfl⟩
  · have hstart := tally_aside only_startAttempt h₁
    obtain ⟨x, es₃, rfl, h₃⟩ := h₂
    cases x with
    | opened stream =>
      obtain ⟨rfl, rfl⟩ := h₃
      exact .done rfl (hstart.append ⟨rfl, rfl, rfl⟩)
    | cancelled =>
      obtain ⟨rfl, rfl⟩ := h₃
      exact .ended (Or.inl rfl)
    | failed exc =>
      by_cases hexc : exc = .timeoutError
      · subst hexc
        have hexpired : Prog.Emits (recordTerminalFailure call.name .timeoutError >>= fun _ =>
          (.raise ((budgetExceeded call.name).attachRetryCount k) : Gw OpenedProviderStream))
          es₃ o := h₃
        rcases Prog.emits_bind.mp hexpired with ⟨_, _, _, rfl, -, -, ho⟩ | ⟨_, h₄, -⟩
        · cases ho
          exact .ended (Or.inr ⟨_, rfl⟩)
        · obtain ⟨_, _, _, ho⟩ := emits_recordTerminalFailure h₄
          cases ho
      · have hraise : Prog.Emits (afterOpening call k (.failed exc)) es₃ o := h₃
        rw [afterOpening_failed hexc] at hraise
        obtain ⟨rfl, rfl⟩ := hraise
        exact .failed (hstart.append ⟨rfl, rfl, rfl⟩)
  · rcases emits_start h₁ with ⟨_, ho, -⟩ | ⟨ho, -⟩
    · cases ho
    · cases ho
      exact .ended (Or.inr ⟨_, rfl⟩)

/-- A sleep counts once, and one that is cut short ends the request. -/
def Rests (sleeper : ℚ → Gw Unit) : Prop :=
  ∀ delay es o, Prog.Emits (sleeper delay) es o →
    o = .ok () ∧ Tally es 0 1 0 ∨ ∃ r, o = .error r ∧ EndsRequest r.exc

theorem rests_sleeper : Rests sleeper := by
  intro delay es o ⟨x, _, hes, hempty, ho⟩
  subst hempty hes ho
  exact Or.inl ⟨rfl, rfl, rfl, rfl⟩

theorem rests_asyncSleeper : Rests asyncSleeper := by
  intro delay es o h
  obtain ⟨x, es', rfl, h⟩ := h
  cases x with
  | woke =>
    obtain ⟨rfl, rfl⟩ := h
    exact Or.inl ⟨rfl, rfl, rfl, rfl⟩
  | cancelled =>
    obtain ⟨rfl, rfl⟩ := h
    exact Or.inr ⟨_, rfl, Or.inl rfl⟩

/-- One retry before the attempts that account from the next on. -/
theorem Accounts.after {α : Type} {retries : α → Nat} {es' : List Event} {o : Except Raised α}
    (hone : Tally es 1 1 1) (h : Accounts retries (k + 1) es' o) :
    Accounts retries k (es ++ es') o := by
  have hcount {n : Nat} (h : Tally es' n n (n + 1)) :
      Tally (es ++ es') (1 + n) (1 + n) (1 + n + 1) := by
    have happend := hone.append h
    rwa [← Nat.add_assoc] at happend
  cases h with
  | @served a n count tally => exact .served (by rw [count, Nat.add_assoc]) (hcount tally)
  | @failed r n count tally => exact .failed (by rw [count, Nat.add_assoc]) (hcount tally)
  | ended ends => exact .ended ends

/-- An error that ends the request passes the handler. -/
theorem Accounts.of_endsRequest {α : Type} {retries : α → Nat} {sleeper : ℚ → Gw Unit}
    {again : ProviderError → Gw α} {r : Raised} (hends : EndsRequest r.exc) {es' : List Event}
    {o : Except Raised α} (h : Prog.Emits (afterTry call sleeper k again (.error r)) es' o) :
    Accounts retries k es o := by
  obtain ⟨exc, polygateRetries⟩ := r
  rcases hends with hcancelled | ⟨name, hbudget⟩
  · cases hcancelled
    obtain ⟨rfl, rfl⟩ := h
    exact .ended (Or.inl rfl)
  · cases hbudget
    obtain ⟨rfl, rfl⟩ := h
    exact .ended (Or.inr ⟨name, rfl⟩)

/-- **The loop accounts for itself**, by induction on the attempts to go. -/
theorem accounts_attempts {α : Type} {retries : α → Nat} {sleeper : ℚ → Gw Unit}
    {body : Nat → Gw α} {exhausted : Option ProviderError → Gw α} (hsl : Rests sleeper)
    (hbody : ∀ k es o, Prog.Emits (body k) es o → Tried retries k es o)
    (hmax : call.maxRetries ≤ 1024) {last : Option ProviderError} {o : Except Raised α}
    (hn : (k : Int) + n = call.maxRetries + 1) (hpos : 0 < n)
    (h : Prog.Emits (attempts call sleeper body exhausted n k last) es o) :
    Accounts retries k es o := by
  induction n generalizing k last es with
  | zero => omega
  | succ n ih =>
    rw [attempts_succ, Prog.emits_andThen] at h
    obtain ⟨es₁, es₂, o₁, rfl, h₁, h₂⟩ := h
    cases hbody _ _ _ h₁ with
    | done count tally =>
      obtain ⟨rfl, rfl⟩ := h₂
      rw [List.append_nil]
      exact .served (n := 0) count tally
    | ended ends => exact .of_endsRequest ends h₂
    | @failed exc tally =>
      have h₂ : Prog.Emits (backoff call k exc >>= fun delay => sleeper delay >>= fun _ =>
        attempts call sleeper body exhausted n (k + 1) (some exc)) es₂ o := h₂
      rcases Prog.emits_bind.mp h₂ with ⟨es₃, es₄, delay, rfl, h₃, h₄⟩ | ⟨r, h₃, rfl⟩
      · rcases emits_backoff (by omega) hmax h₃ with ⟨_, ho, -⟩ | ⟨_, -, hne, hback⟩
        · cases ho
        · rcases Prog.emits_bind.mp h₄ with ⟨es₅, es₆, _, rfl, h₅, h₆⟩ | ⟨r, h₅, rfl⟩
          · rcases hsl _ _ _ h₅ with ⟨-, hsleep⟩ | ⟨_, ho, -⟩
            · -- one retry: the attempts from `k + 1` on count the others
              have hrest := ih (by omega) (by omega) h₆
              have happend : es₁ ++ (es₃ ++ (es₅ ++ es₆)) = es₁ ++ (es₃ ++ es₅) ++ es₆ := by simp
              rw [happend]
              exact .after (tally.append (hback.append hsleep)) hrest
            · cases ho
          · rcases hsl _ _ _ h₅ with ⟨ho, -⟩ | ⟨_, ho, hends⟩
            · cases ho
            · cases ho
              exact .ended hends
      · rcases emits_backoff (by omega) hmax h₃ with ⟨_, ho, hcount, hback⟩ | ⟨_, ho, -⟩
        · cases ho
          exact .failed (n := 0) hcount (tally.append hback)
        · cases ho

/-- A call that the breaker refuses counts as nothing. -/
theorem accounts_admitted {α : Type} {retries : α → Nat} {loop : Gw α} {o : Except Raised α}
    (hloop : ∀ es, Prog.Emits loop es o → Accounts retries 0 es o)
    (h : Prog.Emits (admitted call loop) es o) : Accounts retries 0 es o ∨
      ∃ r, o = .error r ∧ r.polygateRetries = none ∧ Tally es 0 0 0 := by
  have hask (allowed : Bool) : Tally [⟨.breaker (.allowRequest call.name), allowed⟩] 0 0 0 :=
    ⟨rfl, rfl, rfl⟩
  obtain ⟨allowed, es', rfl, h⟩ := h
  cases allowed with
  | true =>
    refine Or.inl ?_
    have hcount {a b c : Nat} (h : Tally es' a b c) :
        Tally (⟨.breaker (.allowRequest call.name), true⟩ :: es') a b c := by
      have happend := (hask true).append h
      rwa [Nat.zero_add, Nat.zero_add, Nat.zero_add] at happend
    cases hloop es' h with
    | served count tally => exact .served count (hcount tally)
    | failed count tally => exact .failed count (hcount tally)
    | ended ends => exact .ended ends
  | false =>
    obtain ⟨rfl, rfl⟩ := h
    exact Or.inr ⟨_, rfl, rfl, hask false⟩

theorem accounts_call {o : Except Raised AdapterResult} (hmin : 0 ≤ call.maxRetries)
    (hmax : call.maxRetries ≤ 1024) (h : Prog.Emits (callProviderWithResilience call) es o) :
    Accounts AdapterResult.retries 0 es o ∨
      ∃ r, o = .error r ∧ r.polygateRetries = none ∧ Tally es 0 0 0 :=
  accounts_admitted (fun _ hloop => accounts_attempts rests_sleeper
    (fun _ _ _ h => tried_callAttempt h) hmax (by omega) (by omega) hloop) h

theorem accounts_stream {o : Except Raised OpenedProviderStream} (hmin : 0 ≤ call.maxRetries)
    (hmax : call.maxRetries ≤ 1024)
    (h : Prog.Emits (openProviderStreamWithResilience call) es o) :
    Accounts OpenedProviderStream.retries 0 es o ∨
      ∃ r, o = .error r ∧ r.polygateRetries = none ∧ Tally es 0 0 0 :=
  accounts_admitted (fun _ hloop => accounts_attempts rests_asyncSleeper
    (fun _ _ _ h => tried_openAttempt h) hmax (by omega) (by omega) hloop) h

end Call

/-! ## The loops, with their calls written out -/

/-- `ResilienceSettings`, as far as the loops use them, with what `from_env` checks. -/
structure ResilienceSettings where
  providerTimeoutSeconds : ℚ
  streamIdleTimeoutSeconds : ℚ
  maxRetries : Int
  retryBaseDelaySeconds : ℚ
  retryMaxBackoffSeconds : ℚ
  timeouts_pos : 0 < providerTimeoutSeconds ∧ 0 < streamIdleTimeoutSeconds
  maxRetries_bounds : 0 ≤ maxRetries ∧ maxRetries ≤ 10
  delays_nonneg : 0 ≤ retryBaseDelaySeconds ∧ 0 ≤ retryMaxBackoffSeconds

inductive Command
  /-- a command of the loop itself -/
  | loop (c : Failover.Cmd)
  /-- a command of a resilient call for `p` -/
  | call (p : Provider) (c : Cmd)

@[reducible] def Command.Reply : Command → Type
  | .loop c => c.Reply
  | .call _ c => c.Reply

abbrev Loop (α : Type) := Prog Command Command.Reply Failover.HandlerExc α

abbrev LoopEvent := Prog.Event Command Command.Reply

/-- The arguments of a resilient call for `p`. -/
def ResilienceSettings.call (settings : ResilienceSettings) (timeoutS deadline : ℚ) (p : Provider) :
    ResilientCall :=
  ⟨p.name, timeoutS, settings.maxRetries, settings.retryBaseDelaySeconds,
    settings.retryMaxBackoffSeconds, some deadline⟩

/-- A resilient call for `p`, each of its commands written out. -/
def writtenOut {α : Type} (p : Provider) (call : Gw α) : Loop (Except Raised α) :=
  call.outcome fun c => Prog.perform (Command.call p c)

/-- What a command of a loop comes to. -/
def into (settings : ResilienceSettings) (deadline : ℚ) : (c : Failover.Cmd) → Loop c.Reply
  | .callProvider p => writtenOut p (callProviderWithResilience
      (settings.call settings.providerTimeoutSeconds deadline p))
  | .openStream p => writtenOut p (openProviderStreamWithResilience
      (settings.call settings.streamIdleTimeoutSeconds deadline p))
  | c => Prog.perform (Command.loop c)

/-- `_call_non_stream`, down to the clocks, the sleeps and the metrics of its calls. -/
def callNonStream (settings : ResilienceSettings) (deadline : ℚ) (ctx : Failover.Context)
    (chosen : Provider) (reason : Reason) : Loop (Failover.Served AdapterResult) :=
  (Failover.callNonStream ctx chosen reason).embed (into settings deadline) id

/-- The loop of `_stream_response`, likewise. -/
def streamResponse (settings : ResilienceSettings) (deadline : ℚ) (ctx : Failover.Context)
    (chosen : Provider) (reason : Reason) : Loop (Failover.Served OpenedProviderStream) :=
  (Failover.streamResponse ctx chosen reason).embed (into settings deadline) id

def Command.recordsRetry : Command → Bool
  | .call _ c => Cmd.recordsRetry c
  | .loop _ => false

def Command.sleeps : Command → Bool
  | .call _ c => (Cmd.delay c).isSome
  | .loop _ => false

/-- The name of the provider that is called. -/
def Command.attempted : Command → Option String
  | .call p c => if Cmd.isAttempt c then some p.name else none
  | .loop _ => none

/-- The `record_provider_retry` increments. -/
def increments (es : List LoopEvent) : Nat := es.countP fun e => e.1.recordsRetry

def sleeps (es : List LoopEvent) : Nat := es.countP fun e => e.1.sleeps

/-- The provider attempts, by name. -/
def attempted (es : List LoopEvent) : List String := es.filterMap fun e => e.1.attempted

/-- The retries of a request, as everyone counts them. -/
structure Accounted (retries : Nat) (es : List LoopEvent) : Prop where
  recorded : increments es = retries
  slept : sleeps es = retries
  /-- the attempts are the retries and one for each provider attempted -/
  attempts : (attempted es).length = retries + (attempted es).toFinset.card

/-! ## A piece of a loop -/

section Pieces

variable {settings : ResilienceSettings} {deadline : ℚ} {p : Provider}

theorem increments_append (es es' : List LoopEvent) :
    increments (es ++ es') = increments es + increments es' := List.countP_append

theorem sleeps_append (es es' : List LoopEvent) : sleeps (es ++ es') = sleeps es + sleeps es' :=
  List.countP_append

theorem attempted_append (es es' : List LoopEvent) :
    attempted (es ++ es') = attempted es ++ attempted es' := List.filterMap_append

/-- An event of a call, as one of the loop. -/
def lift (p : Provider) (e : Event) : LoopEvent := ⟨.call p e.1, e.2⟩

theorem counts_lift {es : List Event} {a b c : Nat} (h : Tally es a b c) :
    increments (es.map (lift p)) = a ∧ sleeps (es.map (lift p)) = b ∧
      attempted (es.map (lift p)) = List.replicate c p.name := by
  refine ⟨?_, ?_, ?_⟩
  · rw [← h.recorded_eq, increments, List.countP_map]
    rfl
  · rw [← h.slept_eq, sleeps, delays, List.length_filterMap_eq_countP, List.countP_map]
    rfl
  · rw [← h.attempted_eq]
    clear h
    induction es with
    | nil => rfl
    | cons e es ih =>
      unfold attempted attemptCount at ih ⊢
      rw [List.map_cons, List.filterMap_cons, List.countP_cons, ih]
      cases hattempt : Cmd.isAttempt e.1 with
      | true => simp [lift, Command.attempted, hattempt, List.replicate_succ]
      | false => simp [lift, Command.attempted, hattempt]

/-- What the answer to a call says of its retries, as the loop adds it up. -/
def replyRetries {α : Type} (retries : α → Nat) : Except Raised α → Nat
  | .ok a => retries a
  | .error r => r.polygateRetries.getD 0

def callRetries : Failover.Event → Nat
  | ⟨.callProvider _, reply⟩ => replyRetries AdapterResult.retries reply
  | ⟨.openStream _, reply⟩ => replyRetries OpenedProviderStream.retries reply
  | _ => 0

/-- The request goes on after the event. -/
def GoesOn : Failover.Event → Prop
  | ⟨.callProvider _, reply⟩ => ∀ r, reply = .error r → ¬ EndsRequest r.exc
  | ⟨.openStream _, reply⟩ => ∀ r, reply = .error r → ¬ EndsRequest r.exc
  | _ => True

/-- What the loop's own event comes to: nothing that is counted, or a call that accounts for
itself. -/
structure Piece (f : Failover.Event) (es : List LoopEvent) : Prop where
  recorded : increments es = callRetries f
  slept : sleeps es = callRetries f
  attempts : attempted es = [] ∧ callRetries f = 0 ∨
    ∃ p, f.1.called = some p ∧ attempted es = List.replicate (callRetries f + 1) p.name

theorem piece_loop {f : Failover.Event} (hf : callRetries f = 0) :
    Piece f [⟨.loop f.1, f.2⟩] where
  recorded := hf.symm
  slept := hf.symm
  attempts := Or.inl ⟨rfl, hf⟩

/-- A call with its own events, which accounts for what the loop adds up. -/
theorem piece_call {α : Type} {retries : α → Nat} {f : Failover.Event} {es : List Event}
    {reply : Except Raised α} (hcalled : f.1.called = some p)
    (hf : callRetries f = replyRetries retries reply)
    (hgoes : ∀ r, reply = .error r → ¬ EndsRequest r.exc)
    (h : Accounts retries 0 es reply ∨
      ∃ r, reply = .error r ∧ r.polygateRetries = none ∧ Tally es 0 0 0) :
    Piece f (es.map (lift p)) := by
  have hmade {n : Nat} (hn : replyRetries retries reply = n) (tally : Tally es n n (n + 1)) :
      Piece f (es.map (lift p)) := by
    obtain ⟨hrecorded, hslept, hattempted⟩ := @counts_lift p _ _ _ _ tally
    have hcount : callRetries f = n := hf.trans hn
    exact ⟨hrecorded.trans hcount.symm, hslept.trans hcount.symm,
      Or.inr ⟨p, hcalled, by rw [hattempted, hcount]⟩⟩
  rcases h with h | ⟨r, rfl, hnone, tally⟩
  · cases h with
    | served count tally => exact hmade (count.trans (Nat.zero_add _)) tally
    | @failed r n count tally =>
      refine hmade ?_ tally
      show r.polygateRetries.getD 0 = n
      rw [count, Option.getD_some, Nat.zero_add]
    | ended ends => exact absurd ends (hgoes _ rfl)
  · obtain ⟨hrecorded, hslept, hattempted⟩ := @counts_lift p _ _ _ _ tally
    have hcount : callRetries f = 0 := by
      rw [hf]
      show r.polygateRetries.getD 0 = 0
      rw [hnone]
      rfl
    exact ⟨hrecorded.trans hcount.symm, hslept.trans hcount.symm, Or.inl ⟨hattempted, hcount⟩⟩

/-- The events of a call are those of the resilient call, each sent on. -/
theorem emits_writtenOut {α : Type} {call : Gw α} {reply : Except Raised α}
    {es : List LoopEvent} (h : Prog.Emits (writtenOut p call) es (.ok reply)) :
    ∃ fs, Prog.Emits call fs reply ∧ es = fs.map (lift p) := by
  obtain ⟨fs, ess, hcall, rfl, hpieces⟩ := Prog.emits_outcome h
  refine ⟨fs, hcall, Prog.flatten_singletons (fun f es hf => ?_) hpieces⟩
  obtain ⟨c, y⟩ := f
  obtain ⟨x, _, rfl, rfl, hx⟩ := hf
  cases hx
  rfl

theorem emits_writtenOut_of {α : Type} {call : Gw α} {reply : Except Raised α} {es : List Event}
    (h : Prog.Emits call es reply) :
    Prog.Emits (writtenOut p call) (es.map (lift p)) (.ok reply) := by
  induction call generalizing es with
  | ret a =>
    obtain ⟨rfl, rfl⟩ := h
    exact ⟨rfl, rfl⟩
  | raise r =>
    obtain ⟨rfl, rfl⟩ := h
    exact ⟨rfl, rfl⟩
  | cmd c k ih =>
    obtain ⟨x, es', rfl, h⟩ := h
    exact ⟨x, _, rfl, ih (.ok x) h⟩

/-- **Every piece accounts for itself.** -/
theorem piece_of_into {f : Failover.Event} {es : List LoopEvent} (hgoes : GoesOn f)
    (h : Prog.Emits (into settings deadline f.1) es (.ok f.2)) : Piece f es := by
  have hbounds := settings.maxRetries_bounds
  obtain ⟨c, reply⟩ := f
  cases c with
  | callProvider p =>
    obtain ⟨fs, hcall, rfl⟩ := emits_writtenOut h
    have haccounts := accounts_call hbounds.1 (hbounds.2.trans (by decide)) hcall
    exact piece_call rfl rfl hgoes haccounts
  | openStream p =>
    obtain ⟨fs, hcall, rfl⟩ := emits_writtenOut h
    have haccounts := accounts_stream hbounds.1 (hbounds.2.trans (by decide)) hcall
    exact piece_call rfl rfl hgoes haccounts
  | _ =>
    obtain ⟨x, _, rfl, rfl, hx⟩ := h
    cases hx
    exact piece_loop rfl

/-- The pieces together, no name being called twice. -/
theorem accounted_pieces {fs : List Failover.Event} {ess : List (List LoopEvent)}
    (h : List.Forall₂ (fun f es => Piece f es) fs ess)
    (hnames : ((Failover.called fs).map (·.name)).Nodup) :
    Accounted (fs.map callRetries).sum ess.flatten ∧
      ∀ name ∈ attempted ess.flatten, name ∈ (Failover.called fs).map (·.name) := by
  induction h with
  | nil => exact ⟨⟨rfl, rfl, rfl⟩, fun name hname => absurd hname List.not_mem_nil⟩
  | @cons f es fs ess hpiece _ ih =>
    rw [List.map_cons, List.sum_cons, List.flatten_cons]
    rcases hpiece.attempts with ⟨hnone, hzero⟩ | ⟨p, hcalled, hattempted⟩
    · have hsub : (Failover.called fs).Sublist (Failover.called (f :: fs)) :=
        (List.sublist_cons_self f fs).filterMap _
      obtain ⟨hrest, hmem⟩ := ih ((hsub.map _).nodup hnames)
      have hall : attempted (es ++ ess.flatten) = attempted ess.flatten := by
        rw [attempted_append, hnone, List.nil_append]
      rw [hzero, Nat.zero_add]
      refine ⟨⟨?_, ?_, ?_⟩, fun name hname => ?_⟩
      · rw [increments_append, hpiece.recorded, hzero, hrest.recorded, Nat.zero_add]
      · rw [sleeps_append, hpiece.slept, hzero, hrest.slept, Nat.zero_add]
      · rw [hall]
        exact hrest.attempts
      · rw [hall] at hname
        exact (hsub.map _).subset (hmem name hname)
    · have hcalls : (Failover.called (f :: fs)).map (·.name) =
          p.name :: (Failover.called fs).map (·.name) := by
        simp [Failover.called, hcalled]
      rw [hcalls] at hnames ⊢
      obtain ⟨hfresh, hnodup⟩ := List.nodup_cons.mp hnames
      obtain ⟨hrest, hmem⟩ := ih hnodup
      have hnew : p.name ∉ attempted ess.flatten := fun hname => hfresh (hmem _ hname)
      refine ⟨⟨?_, ?_, ?_⟩, fun name hname => ?_⟩
      · rw [increments_append, hpiece.recorded, hrest.recorded]
      · rw [sleeps_append, hpiece.slept, hrest.slept]
      · -- the attempts of one provider, and those of others
        rw [attempted_append, hattempted, List.toFinset_append,
          List.toFinset_replicate_of_ne_zero (Nat.succ_ne_zero _), Finset.singleton_union,
          Finset.card_insert_of_notMem (by simpa using hnew), List.length_append,
          List.length_replicate, hrest.attempts]
        omega
      · rw [attempted_append, hattempted] at hname
        rcases List.mem_append.mp hname with hname | hname
        · rw [List.eq_of_mem_replicate hname]
          exact List.mem_cons_self
        · exact List.mem_cons_of_mem _ (hmem name hname)

end Pieces

/-! ## What a loop adds up -/

section Loops

open Failover

variable {ctx : Context} {α : Type} {v : Variant α} {retries : α → Nat}

/-- Both loops add what the calls say. -/
structure Counted (v : Variant α) (retries : α → Nat) : Prop where
  attempt : ∀ {p : Provider} {es : List Failover.Event} {o : Except HandlerExc (Except Raised α)},
    Prog.Emits (v.attempt p) es o → ∃ e reply, es = [e] ∧ o = .ok reply ∧
      callRetries e = replyRetries retries reply ∧
      (GoesOn e ↔ ∀ r, reply = .error r → ¬ EndsRequest r.exc)
  addRetries : ∀ (a : α) (n : Nat), retries (v.addRetries a n) = retries a + n

theorem counted_nonStream : Counted nonStream AdapterResult.retries where
  attempt h := by
    obtain ⟨reply, _, rfl, rfl, rfl⟩ := h
    exact ⟨_, reply, rfl, rfl, rfl, Iff.rfl⟩
  addRetries _ _ := rfl

theorem counted_streamOpen : Counted streamOpen OpenedProviderStream.retries where
  attempt h := by
    obtain ⟨reply, _, rfl, rfl, rfl⟩ := h
    exact ⟨_, reply, rfl, rfl, rfl, Iff.rfl⟩
  addRetries _ _ := rfl

/-- Events that call nobody. -/
theorem counts_uncalled {es : List Failover.Event} (h : ∀ e ∈ es, e.1.called = none) :
    (es.map callRetries).sum = 0 ∧ ∀ e ∈ es, GoesOn e := by
  have hnone : ∀ e : Failover.Event, e.1.called = none → callRetries e = 0 ∧ GoesOn e := by
    intro e he
    obtain ⟨c, x⟩ := e
    cases c <;> first | exact ⟨rfl, trivial⟩ | cases he
  refine ⟨?_, fun e he => (hnone e (h e he)).2⟩
  refine List.sum_eq_zero fun n hn => ?_
  obtain ⟨e, he, rfl⟩ := List.mem_map.mp hn
  exact (hnone e (h e he)).1

/-- When the loop goes on from an error, the error does not end the request. -/
theorem goesOn_of_afterFailure (hv : v.Calls) {chosen : Provider} {tried : List String} {exc : Exc}
    {es : List Failover.Event} {fallback : Selected (remaining ctx tried)}
    (h : Prog.Emits (afterFailure ctx v chosen tried exc) es (.ok fallback)) :
    ¬ EndsRequest exc := by
  rintro (hcancelled | ⟨name, hbudget⟩)
  · unfold afterFailure at h
    rw [if_pos hcancelled] at h
    cases h.2
  · obtain ⟨-, ⟨_, ho⟩ | ⟨_, _, _, -, -, -, hin, -⟩⟩ := emits_afterFailure hv h
    · cases ho
    · subst hbudget
      cases hin none

/-- **What a loop returns is the sum of what its calls said**, and no call ended the request. -/
theorem failover_counts (hv : v.Calls) (hc : Counted v retries) {tried : List String}
    {chosen : Provider} {reason : Reason} {failedRetries : Nat} {es : List Failover.Event}
    {s : Served α}
    (h : Prog.Emits (failover ctx v chosen reason tried failedRetries) es (.ok s)) :
    retries s.result = failedRetries + (es.map callRetries).sum ∧ ∀ e ∈ es, GoesOn e := by
  induction hn : (untried ctx (tried ++ [chosen.name])).length using Nat.strong_induction_on
    generalizing tried chosen reason failedRetries es with
  | _ n ih =>
  -- each round tries one more name, so induction on how many are left
  subst hn
  rw [failover] at h
  rcases Prog.emits_bind.mp h with ⟨es₁, es₂, reply, rfl, h₁, h₂⟩ | ⟨exc, -, ho⟩
  · obtain ⟨e, reply', rfl, hr, hcount, hgoes⟩ := hc.attempt h₁
    cases hr
    cases reply with
    | ok result =>
      rcases Prog.emits_bind.mp h₂ with ⟨es₃, es₄, _, rfl, h₃, rfl, ho⟩ | ⟨exc, -, ho⟩
      · cases ho
        obtain ⟨hsum, hrest⟩ := counts_uncalled fun e' he' =>
          ((hv.succeeded chosen).emits h₃ e' he').called
        have hresult : callRetries e = retries result := hcount
        refine ⟨?_, ?_⟩
        · rw [hc.addRetries, List.append_nil, List.singleton_append, List.map_cons, List.sum_cons,
            hsum, hresult]
          omega
        · rw [List.append_nil]
          exact List.forall_mem_cons.mpr ⟨hgoes.mpr fun r hr => (by cases hr), hrest⟩
      · cases ho
    -- the retries of the failed provider are handed on to the next one
    | error raised =>
      rcases Prog.emits_bind.mp h₂ with ⟨es₃, es₄, fallback, rfl, h₃, h₄⟩ | ⟨exc, -, ho⟩
      · obtain ⟨hsum, hquiet⟩ := counts_uncalled (emits_afterFailure hv h₃).1
        have hon := goesOn_of_afterFailure hv h₃
        simp only [Prog.perform_bind, Prog.emits_cmd, Prog.onReply_ok] at h₄
        obtain ⟨x, es₅, rfl, h₅⟩ := h₄
        obtain ⟨hrest, hall⟩ := ih _ (untried_length_lt ctx fallback.mem) h₅ rfl
        have hraised : callRetries e = raised.polygateRetries.getD 0 := hcount
        refine ⟨?_, ?_⟩
        · have hfailover : callRetries ⟨.recordFailover chosen.name fallback.chosen.name, x⟩ = 0 :=
            rfl
          rw [hrest, List.singleton_append, List.map_cons, List.sum_cons, List.map_append,
            List.sum_append, List.map_cons, List.sum_cons, hsum, hraised, hfailover]
          omega
        · intro e' he'
          rcases List.mem_append.mp he' with he' | he'
          · rw [List.mem_singleton.mp he']
            refine hgoes.mpr fun r hr => ?_
            cases hr
            exact hon
          · rcases List.mem_append.mp he' with he' | he'
            · exact hquiet e' he'
            · rcases List.mem_cons.mp he' with rfl | he'
              · trivial
              · exact hall e' he'
      · cases ho
  · cases ho

/-- **Every loop that ends in an answer is accounted for.** -/
theorem accounted_failover {settings : ResilienceSettings} {deadline : ℚ} (hv : v.Calls)
    (hc : Counted v retries) {chosen : Provider} {reason : Reason} {es : List LoopEvent}
    {s : Served α} (h : Prog.Emits
      ((failover ctx v chosen reason [] 0).embed (into settings deadline) id) es (.ok s)) :
    Accounted (retries s.result) es := by
  obtain ⟨fs, ess, hloop, rfl, hpieces⟩ := Prog.emits_embed_ok h
  obtain ⟨hcount, hgoes⟩ := failover_counts hv hc hloop
  have hnames : ((called fs).map (·.name)).Nodup :=
    (rounds_failover hv hloop).names_nodup (List.nodup_singleton _)
  have hall : List.Forall₂ Piece fs ess :=
    ((List.forall₂_and_left _ _).mpr ⟨hgoes, hpieces⟩).imp fun _ _ h => piece_of_into h.1 h.2
  rw [hcount, Nat.zero_add]
  exact (accounted_pieces hall hnames).1

end Loops

/-! ## The card and the record -/

/-- The number on the card and in the record of a served request is what everyone counts. -/
def Recorded {α : Type} (s : Failover.Served α) (retries : Nat) (es : List LoopEvent) : Prop :=
  ∀ costEstimateUsd latencyMs tokens requestId,
    Accounted (s.card costEstimateUsd latencyMs tokens requestId retries).retries es ∧
    ∀ ttl outcome initialProvider stream failoverCount now,
      Accounted (decisionRecord ttl (s.card costEstimateUsd latencyMs tokens requestId retries)
        outcome initialProvider stream failoverCount now).retries es

theorem quickSettings_timeouts : (0 : ℚ) < 10 ∧ (0 : ℚ) < 90 := by norm_num

theorem quickSettings_retries : (0 : Int) ≤ 1 ∧ (1 : Int) ≤ 10 := by decide

theorem quickSettings_delays : (0 : ℚ) ≤ 0 ∧ (0 : ℚ) ≤ 5 := by norm_num

/-- One retry, at once. -/
def quickSettings : ResilienceSettings where
  providerTimeoutSeconds := 10
  streamIdleTimeoutSeconds := 90
  maxRetries := 1
  retryBaseDelaySeconds := 0
  retryMaxBackoffSeconds := 5
  timeouts_pos := quickSettings_timeouts
  maxRetries_bounds := quickSettings_retries
  delays_nonneg := quickSettings_delays

/-- A call of `quickSettings`, with 30 seconds to go. -/
def quickCall : ResilientCall := quickSettings.call 10 30 (Failover.localMock "mock-a")

/-- An attempt that starts now. -/
def startsNow (answer : Except ProviderError AdapterResult) : List Event :=
  [⟨.clock, (0 : ℚ)⟩, ⟨.providerCall (min 10 (30 - 0)), answer⟩]

/-- A backoff on which the clock stands still, and so does the jitter. -/
def backsOffNow : List Event :=
  [⟨.uniform 0, (0 : ℚ)⟩, ⟨.clock, (0 : ℚ)⟩, ⟨.recordProviderRetry "transport", ()⟩]

def noDelay : ℚ := max (min 5 (0 * 2 ^ 0 + 0)) 0

/-- The first attempt fails. -/
def retriedEvents : List Event :=
  ⟨.breaker (.allowRequest "mock-a"), true⟩ :: (startsNow (.error .transportError) ++
    (backsOffNow ++ (⟨.sleep noDelay, ()⟩ :: (startsNow (.ok ⟨"{}", 12, 0⟩) ++
      [⟨.breaker (.recordSuccess "mock-a"), ()⟩]))))

theorem emits_startsNow {k : Nat} {answer : Except ProviderError AdapterResult} {es : List Event}
    {o : Except Raised AdapterResult} (h : Prog.Emits (afterCall quickCall k answer) es o) :
    Prog.Emits (callAttempt quickCall k) (startsNow answer ++ es) o := by
  rw [callAttempt_eq]
  have hintime : ¬ ((30 : ℚ) - 0 ≤ 0) := by norm_num
  have hstart : Prog.Emits (startAttempt quickCall) [⟨.clock, (0 : ℚ)⟩] (.ok (some (30 - 0))) := by
    refine ⟨_, [], rfl, ?_⟩
    show Prog.Emits (if (30 : ℚ) - 0 ≤ 0 then _ else _) [] _
    rw [if_neg hintime]
    exact ⟨rfl, rfl⟩
  refine Prog.emits_bind.mpr (Or.inl ⟨[⟨.clock, (0 : ℚ)⟩],
    ⟨.providerCall (min 10 (30 - 0)), answer⟩ :: es, _, rfl, hstart, ?_⟩)
  exact ⟨answer, es, rfl, h⟩

theorem emits_backsOffNow :
    Prog.Emits (backoff quickCall 0 .transportError) backsOffNow (.ok noDelay) := by
  have hfits : ¬ ((30 : ℚ) - 0 ≤ noDelay) := by norm_num [noDelay]
  have hensure : Prog.Emits (ensureDelayFitsBudget quickCall noDelay) [⟨.clock, (0 : ℚ)⟩]
      (.ok ()) := by
    refine ⟨_, [], rfl, ?_⟩
    show Prog.Emits (if (30 : ℚ) - 0 ≤ noDelay then _ else _) [] _
    rw [if_neg hfits]
    exact ⟨rfl, rfl⟩
  refine Prog.emits_bind.mpr (Or.inl ⟨[⟨.uniform 0, (0 : ℚ)⟩], _, noDelay, rfl,
    ⟨_, _, rfl, rfl, rfl⟩, ?_⟩)
  refine Prog.emits_bind.mpr (Or.inl ⟨[⟨.clock, (0 : ℚ)⟩], _, (), rfl,
    Prog.emits_catch.mpr (Or.inl ⟨(), hensure, rfl⟩), ?_⟩)
  exact ⟨(), [], rfl, rfl, rfl⟩

theorem emits_retried :
    Prog.Emits (callProviderWithResilience quickCall) retriedEvents (.ok ⟨"{}", 12, 1⟩) := by
  refine ⟨true, _, rfl, ?_⟩
  show Prog.Emits (attempts quickCall sleeper (callAttempt quickCall) (callExhausted quickCall)
    2 0 none) _ _
  rw [attempts_succ]
  refine Prog.emits_andThen.mpr ⟨startsNow (.error .transportError), _,
    .error ⟨.provider .transportError, none⟩, rfl, ?_, ?_⟩
  · exact @emits_startsNow _ _ [] _ ⟨rfl, rfl⟩
  refine Prog.emits_bind.mpr (Or.inl ⟨backsOffNow, _, noDelay, rfl, emits_backsOffNow, ?_⟩)
  refine ⟨(), _, rfl, ?_⟩
  show Prog.Emits (attempts quickCall sleeper (callAttempt quickCall) (callExhausted quickCall)
    1 1 (some .transportError)) _ _
  rw [attempts_succ]
  refine Prog.emits_andThen.mpr ⟨_, [], .ok ⟨"{}", 12, 1⟩, (List.append_nil _).symm,
    emits_startsNow ?_, rfl, rfl⟩
  exact ⟨(), [], rfl, rfl, rfl⟩

/-- **Retry accounting is exact**, in both loops. -/
theorem retries_accounted (settings : ResilienceSettings) (deadline : ℚ) (ctx : Failover.Context)
    (chosen : Provider) (reason : Reason) :
    (∀ es s, Prog.Emits (callNonStream settings deadline ctx chosen reason) es (.ok s) →
      Recorded s s.result.retries es) ∧
    ∀ es s, Prog.Emits (streamResponse settings deadline ctx chosen reason) es (.ok s) →
      Recorded s s.result.retries es := by
  constructor
  · intro es s h
    have haccounted := accounted_failover Failover.nonStream_calls counted_nonStream h
    exact fun _ _ _ _ => ⟨haccounted, fun _ _ _ _ _ _ => haccounted⟩
  · intro es s h
    have haccounted := accounted_failover Failover.streamOpen_calls counted_streamOpen h
    exact fun _ _ _ _ => ⟨haccounted, fun _ _ _ _ _ _ => haccounted⟩

theorem retries_accounted_retried : ∃ es s, Prog.Emits (callNonStream quickSettings 30
      Failover.helloContext (Failover.localMock "mock-a") (.forced "mock-a")) es (.ok s) ∧
    s.result.retries = 1 ∧ increments es = 1 ∧ sleeps es = 1 ∧ (attempted es).length = 2 := by
  have hrun : Prog.Emits (callNonStream quickSettings 30
      Failover.helloContext (Failover.localMock "mock-a") (.forced "mock-a"))
      (retriedEvents.map (lift (Failover.localMock "mock-a")) ++
        [⟨.loop (.recordProvider "mock-a" "success"), ()⟩])
      (.ok ⟨⟨"{}", 12, 1⟩, Failover.localMock "mock-a", .forced "mock-a", ["mock-a"]⟩) := by
    unfold callNonStream Failover.callNonStream
    rw [Failover.failover]
    refine Prog.emits_bind.mpr (Or.inl ⟨_, [_], .ok ⟨"{}", 12, 1⟩, rfl, ?_, _, _, rfl, rfl, rfl⟩)
    exact emits_writtenOut_of emits_retried
  refine ⟨_, _, hrun, rfl, ?_⟩
  have hrecorded := (retries_accounted _ _ _ _ _).1 _ _ hrun 0 0 ⟨0, 0⟩ ""
  exact ⟨hrecorded.1.recorded, hrecorded.1.slept, rfl⟩

end PolyGate.Gateway.RetryAccounting
