import Mathlib.Algebra.Order.BigOperators.Group.List
import PolyGate.Gateway.RetryAccounting
import PolyGate.Lib.Timed

/-!
# `Gateway/TimeBudget.lean` — a request and its deadline

The loops of `RetryAccounting`, written out down to the clocks and sleeps, in time. Time passes in
provider calls and backoff sleeps only. What bounds a call differs: the opening of a stream stands
in `asyncio.wait_for` and is over when the rest of the budget is; `httpx.post` takes a timeout that
bounds each of its operations, not their sum.

So every attempt, sleep and failover round starts before the deadline and a stream is opened or
refused by it, and a request without stream is answered by it exactly when each provider call is
over by it: `budget_respected`.

A `Retry-After` of `inf` is here any number of seconds no shorter than the budget: a delay that does
not fit is refused, and its length is used for nothing else. `nan` and `-inf` are 0, which is what
`max(0.0, …)` makes of them.
-/

namespace PolyGate.Gateway.TimeBudget

open Lib Prog RetryAccounting TwinLoops

/-! ## How long a command takes -/

/-- The command of a resilient call, sent at `t`, may be answered by `x` at `t'`. -/
def callTakes (t : ℚ) : (c : Cmd) → c.Reply → ℚ → Prop
  | .clock, (now : ℚ), t' => now = t ∧ t' = t
  -- `httpx`: each connect, write and read takes at most the timeout
  | .providerCall timeoutS, _, t' => ∃ operations : List ℚ,
      (∀ d ∈ operations, 0 ≤ d ∧ d ≤ timeoutS) ∧ t' = t + operations.sum
  | .openStream none, _, t' => t ≤ t'
  -- `asyncio.wait_for(opening, timeout=remaining)`
  | .openStream (some remaining), _, t' => t ≤ t' ∧ t' ≤ t + remaining
  | .sleep delay, _, t' => t' = t + max 0 delay
  | .asyncSleep delay, .woke, t' => t' = t + max 0 delay
  | .asyncSleep delay, .cancelled, t' => t ≤ t' ∧ t' ≤ t + max 0 delay
  | .breaker _, _, t' | .uniform _, _, t' | .utcNow, _, t' | .recordProviderRetry _, _, t' => t' = t

/-- No command takes time back. -/
theorem callTakes_forward {t t' : ℚ} {c : Cmd} {x : c.Reply} (h : callTakes t c x t') : t ≤ t' := by
  have hsleep (delay : ℚ) : t ≤ t + max 0 delay := le_add_of_nonneg_right (le_max_left 0 delay)
  cases c with
  | clock => exact h.2.ge
  | providerCall timeoutS =>
    obtain ⟨operations, hops, rfl⟩ := h
    exact le_add_of_nonneg_right (List.sum_nonneg fun d hd => (hops d hd).1)
  | openStream remaining =>
    cases remaining with
    | none => exact h
    | some remaining => exact h.1
  | sleep delay => exact (hsleep delay).trans_eq (Eq.symm h)
  | asyncSleep delay =>
    cases x with
    | woke => exact (hsleep delay).trans_eq (Eq.symm h)
    | cancelled => exact h.1
  | breaker _ | uniform _ | utcNow | recordProviderRetry _ => exact (Eq.symm h).le

def callPace : Pace Cmd Cmd.Reply := ⟨callTakes, callTakes_forward⟩

/-- The same for a loop with its calls written out; the loop looks at the clock too. -/
def takes (deadline t : ℚ) : (c : Command) → c.Reply → ℚ → Prop
  | .call _ c, x, t' => callTakes t c x t'
  | .loop .deadlineExpired, (expired : Bool), t' => expired = decide (deadline ≤ t) ∧ t' = t
  | .loop _, _, t' => t' = t

theorem takes_forward {deadline t t' : ℚ} {c : Command} {x : c.Reply}
    (h : takes deadline t c x t') : t ≤ t' := by
  cases c with
  | call p c => exact callTakes_forward h
  | loop c =>
    cases c with
    | deadlineExpired => exact h.2.ge
    | _ => exact (Eq.symm h).le

def pace (deadline : ℚ) : Pace Command Command.Reply := ⟨takes deadline, takes_forward⟩

/-! ## What must not begin late, and what may end late -/

def Cmd.begins : Cmd → Prop
  | .providerCall _ | .openStream _ | .sleep _ | .asyncSleep _ => True
  | _ => False

def Cmd.isProviderCall : Cmd → Prop
  | .providerCall _ => True
  | _ => False

/-- An attempt, a sleep, or a failover round, which begins with `record_failover`. -/
def Command.begins : Command → Prop
  | .call _ c => Cmd.begins c
  | .loop (.recordFailover _ _) => True
  | .loop _ => False

/-- The command is one of a call, and `slow`. -/
def Command.within (slow : Cmd → Prop) : Command → Prop
  | .call _ c => slow c
  | .loop _ => False

abbrev Command.isProviderCall : Command → Prop := Command.within Cmd.isProviderCall

/-! ## A resilient call -/

section Call
variable {α : Type} {slow : Cmd → Prop} {call : ResilientCall} {deadline t : ℚ} {k n : Nat}

/-- What is ensured of a resilient call. -/
abbrev InTime (slow : Cmd → Prop) (deadline : ℚ) (p : Gw α) (t : ℚ)
    (Q : Except Raised α → ℚ → Prop) : Prop :=
  Ensures callPace (Deadline deadline Cmd.begins slow) p t Q

/-- Reports and readings take no time. -/
theorem inTime_aside {p : Gw α} (h : Prog.Only Cmd.isAside p) :
    InTime slow deadline p t fun _ t' => t' = t := by
  refine ensures_of_instant h fun t c x t' hc hx => ?_
  have ht : t' = t := by
    cases c with
    | clock => exact hx.2
    | breaker _ | uniform _ | utcNow => exact hx
    | _ => exact hc.elim
  refine ⟨⟨fun hbegins => ?_, Or.inr fun hle => ht ▸ hle⟩, ht⟩
  cases c <;> first | exact hbegins.elim | exact hc.elim

/-- What is left is exact at the moment it is read. -/
theorem inTime_remainingSeconds :
    InTime slow deadline (remainingSeconds (some deadline)) t fun o t' =>
      t' = t ∧ o = .ok (some (deadline - t)) := by
  rintro now t' ⟨rfl, rfl⟩
  exact ⟨⟨False.elim, Or.inr id⟩, rfl, rfl⟩

/-- An attempt goes on before the deadline only. -/
theorem inTime_startAttempt (hcall : call.deadline = some deadline) :
    InTime slow deadline (startAttempt call) t fun o t' =>
      t' = t ∧ ∀ r, o = .ok r → t < deadline ∧ r = some (deadline - t) := by
  unfold startAttempt
  rw [hcall]
  refine inTime_remainingSeconds.bind ?_ ?_
  · rintro r t' - ⟨rfl, hr⟩
    obtain rfl := Except.ok.inj hr
    dsimp only
    split
    · exact ⟨rfl, fun r hr => by cases hr⟩
    · next hleft =>
      refine ⟨rfl, fun r hr => ⟨?_, (Except.ok.inj hr).symm⟩⟩
      exact sub_pos.mp (not_le.mp hleft)
  · rintro e t' - ⟨-, he⟩
    cases he

/-- A timeout is made only while time is left. -/
theorem inTime_attemptTimeout (hcall : call.deadline = some deadline) :
    InTime slow deadline (attemptTimeout call) t fun o t' =>
      t' = t ∧ ∀ timeout, o = .ok timeout → t < deadline := by
  refine (inTime_startAttempt hcall).bind ?_ ?_
  · rintro r t' - ⟨rfl, hr⟩
    obtain ⟨hlt, rfl⟩ := hr r rfl
    exact ⟨rfl, fun _ _ => hlt⟩
  · rintro e t' - ⟨rfl, -⟩
    exact ⟨rfl, fun timeout h => by cases h⟩

/-- A delay passes only if it ends before the deadline. -/
theorem inTime_ensureDelayFitsBudget {delay : ℚ} (hcall : call.deadline = some deadline) :
    InTime slow deadline (ensureDelayFitsBudget call delay) t fun o t' =>
      t' = t ∧ (o = .ok () → delay < deadline - t) := by
  unfold ensureDelayFitsBudget
  rw [hcall]
  refine inTime_remainingSeconds.bind ?_ ?_
  · rintro r t' - ⟨rfl, hr⟩
    obtain rfl := Except.ok.inj hr
    dsimp only
    split
    · exact ⟨rfl, fun h => by cases h⟩
    · next hfits => exact ⟨rfl, fun _ => not_le.mp hfits⟩
  · rintro e t' - ⟨-, he⟩
    cases he

theorem inTime_retryAfterSeconds {exc : ProviderError} :
    InTime slow deadline (retryAfterSeconds exc) t fun o t' =>
      t' = t ∧ ∀ retryAfter, o = .ok retryAfter → 0 ≤ retryAfter.getD 0 := by
  unfold retryAfterSeconds
  split
  · refine ⟨rfl, fun retryAfter h => ?_⟩
    obtain rfl := Except.ok.inj h
    exact le_max_left _ _
  · rintro now t' rfl
    refine ⟨⟨False.elim, Or.inr id⟩, rfl, fun retryAfter h => ?_⟩
    obtain rfl := Except.ok.inj h
    exact le_max_left _ _
  · refine ⟨rfl, fun retryAfter h => ?_⟩
    obtain rfl := Except.ok.inj h
    exact le_rfl

/-- No delay is negative. -/
theorem inTime_retryDelay {exc : ProviderError} :
    InTime slow deadline (retryDelay call exc k) t fun o t' =>
      t' = t ∧ ∀ delay, o = .ok delay → 0 ≤ delay := by
  unfold retryDelay
  split
  · exact ⟨rfl, fun delay h => by cases h⟩
  · rintro jitter t' rfl
    refine ⟨⟨False.elim, Or.inr id⟩, inTime_retryAfterSeconds.bind ?_ ?_⟩
    · rintro retryAfter t' - ⟨rfl, hnonneg⟩
      refine ⟨rfl, fun delay h => ?_⟩
      obtain rfl := Except.ok.inj h
      exact le_max_of_le_right (hnonneg retryAfter rfl)
    · rintro e t' - ⟨rfl, -⟩
      exact ⟨rfl, fun delay h => by cases h⟩

/-- A failure is reported, and something raised. -/
theorem inTime_reportAndRaise {exc : ProviderError} {raised : Raised} :
    InTime slow deadline (recordTerminalFailure call.name exc >>= fun _ => (.raise raised : Gw α)) t
      fun o t' => t' = t ∧ ∃ e, o = .error e := by
  refine (inTime_aside only_recordTerminalFailure).bind ?_ ?_
  · rintro u t' - rfl
    exact ⟨rfl, raised, rfl⟩
  · rintro e t' - rfl
    exact ⟨rfl, e, rfl⟩

theorem inTime_fits {exc : ProviderError} {delay : ℚ} (hcall : call.deadline = some deadline) :
    InTime slow deadline (tryCatch (ensureDelayFitsBudget call delay) fun _ => do
      recordTerminalFailure call.name exc
      throw ((budgetExceeded call.name).attachRetryCount k)) t fun o t' =>
        t' = t ∧ (o = .ok () → delay < deadline - t) := by
  refine (inTime_ensureDelayFitsBudget hcall).catch (fun u t' _ h => h) ?_
  rintro e t' - ⟨rfl, -⟩
  refine inTime_reportAndRaise.imp ?_
  rintro o t' - ⟨rfl, e, rfl⟩
  exact ⟨rfl, fun h => by cases h⟩

/-- A sleep begins before the deadline and is over before it. -/
theorem inTime_backoff {exc : ProviderError} (hcall : call.deadline = some deadline) :
    InTime slow deadline (backoff call k exc) t fun o t' =>
      t' = t ∧ ∀ delay, o = .ok delay → 0 ≤ delay ∧ delay < deadline - t := by
  unfold backoff
  split
  · refine inTime_reportAndRaise.imp ?_
    rintro o t' - ⟨rfl, e, rfl⟩
    exact ⟨rfl, fun delay h => by cases h⟩
  · refine inTime_retryDelay.bind ?_ ?_
    · rintro delay t' - ⟨rfl, hnonneg⟩
      refine (inTime_fits hcall).bind ?_ ?_
      · rintro u t' - ⟨rfl, hfits⟩
        rintro x t' rfl
        refine ⟨⟨False.elim, Or.inr id⟩, rfl, fun delay' h => ?_⟩
        obtain rfl := Except.ok.inj h
        exact ⟨hnonneg delay rfl, hfits rfl⟩
      · rintro e t' - ⟨rfl, -⟩
        exact ⟨rfl, fun delay h => by cases h⟩
    · rintro e t' - ⟨rfl, -⟩
      exact ⟨rfl, fun delay h => by cases h⟩

/-- A sleep that fits ends in time. -/
theorem inTime_sleeper {delay : ℚ} (hdelay : 0 ≤ delay ∧ delay < deadline - t) :
    InTime slow deadline (sleeper delay) t fun _ _ => True := by
  have hbegins : t < deadline := sub_pos.mp (hdelay.1.trans_lt hdelay.2)
  have hends : t + max 0 delay ≤ deadline := by
    rw [max_eq_right hdelay.1]
    exact (lt_sub_iff_add_lt'.mp hdelay.2).le
  rintro x t' rfl
  exact ⟨⟨fun _ => hbegins, Or.inr fun _ => hends⟩, trivial⟩

theorem inTime_asyncSleeper {delay : ℚ} (hdelay : 0 ≤ delay ∧ delay < deadline - t) :
    InTime slow deadline (asyncSleeper delay) t fun _ _ => True := by
  have hbegins : t < deadline := sub_pos.mp (hdelay.1.trans_lt hdelay.2)
  have hends : t + max 0 delay ≤ deadline := by
    rw [max_eq_right hdelay.1]
    exact (lt_sub_iff_add_lt'.mp hdelay.2).le
  intro x t' hx
  cases x with
  | woke =>
    obtain rfl : t' = t + max 0 delay := hx
    exact ⟨⟨fun _ => hbegins, Or.inr fun _ => hends⟩, trivial⟩
  | cancelled => exact ⟨⟨fun _ => hbegins, Or.inr fun _ => hx.2.trans hends⟩, trivial⟩

/-- A call begins in time; what it takes afterwards is not bounded. -/
theorem inTime_callAttempt (hslow : ∀ timeoutS, slow (.providerCall timeoutS))
    (hcall : call.deadline = some deadline) :
    InTime slow deadline (callAttempt call k) t fun _ _ => True := by
  refine (inTime_attemptTimeout hcall).bind ?_ fun _ _ _ _ => trivial
  rintro timeout t' - ⟨rfl, hbegins⟩
  intro answer t'' _
  refine ⟨⟨fun _ => hbegins timeout rfl, Or.inl (hslow timeout)⟩, ?_⟩
  cases answer with
  | error exc => trivial
  | ok result =>
    rintro u t₃ rfl
    exact ⟨⟨False.elim, Or.inr id⟩, trivial⟩

/-- The opening of a stream begins in time too. -/
theorem inTime_openAttempt (hcall : call.deadline = some deadline) :
    InTime slow deadline (openAttempt call k) t fun _ _ => True := by
  refine (inTime_startAttempt hcall).bind ?_ fun _ _ _ _ => trivial
  rintro remaining t' - ⟨rfl, hr⟩
  obtain ⟨hbegins, rfl⟩ := hr remaining rfl
  intro opening t'' hx
  have hends : t'' ≤ deadline := hx.2.trans_eq (add_sub_cancel _ _)
  refine ⟨⟨fun _ => hbegins, Or.inr fun _ => hends⟩, ?_⟩
  cases opening with
  | opened stream => trivial
  | cancelled => trivial
  | failed exc =>
    cases exc with
    | timeoutError => exact inTime_reportAndRaise.imp fun _ _ _ _ => trivial
    | _ => trivial

/-- What the loop does between its attempts, and after the last. -/
theorem inTime_attempts {sleeper : ℚ → Gw Unit} {body : Nat → Gw α}
    {exhausted : Option ProviderError → Gw α} {last : Option ProviderError}
    (hcall : call.deadline = some deadline)
    (hsleeper : ∀ {t delay}, 0 ≤ delay ∧ delay < deadline - t →
      InTime slow deadline (sleeper delay) t fun _ _ => True)
    (hbody : ∀ {t k}, InTime slow deadline (body k) t fun _ _ => True)
    (hexhausted : ∀ {t last}, InTime slow deadline (exhausted last) t fun _ _ => True) :
    InTime slow deadline (attempts call sleeper body exhausted n k last) t fun _ _ => True := by
  induction n generalizing k last t with
  | zero => exact hexhausted
  | succ n ih =>
    rw [attempts_succ]
    refine hbody.andThen fun o t' _ _ => ?_
    unfold afterTry
    split
    · trivial
    · split
      · trivial
      · refine (inTime_backoff hcall).bind ?_ fun _ _ _ _ => trivial
        rintro delay t' - ⟨rfl, hdelay⟩
        refine (hsleeper (hdelay delay rfl)).bind ?_ fun _ _ _ _ => trivial
        exact fun u t' _ _ => ih
      · trivial

theorem inTime_admitted {loop : Gw α}
    (h : ∀ {t}, InTime slow deadline loop t fun _ _ => True) :
    InTime slow deadline (admitted call loop) t fun _ _ => True := by
  rintro allowed t' rfl
  refine ⟨⟨False.elim, Or.inr id⟩, ?_⟩
  cases allowed with
  | true => exact h
  | false => trivial

/-- Every round of the loop. -/
theorem inTime_callProvider (hslow : ∀ timeoutS, slow (.providerCall timeoutS))
    (hcall : call.deadline = some deadline) :
    InTime slow deadline (callProviderWithResilience call) t fun _ _ => True := by
  refine inTime_admitted (inTime_attempts hcall inTime_sleeper
    (inTime_callAttempt hslow hcall) ?_)
  rintro t last u t' rfl
  refine ⟨⟨False.elim, Or.inr id⟩, ?_⟩
  cases last with
  | none => trivial
  | some exc => trivial

theorem inTime_openProviderStream (hcall : call.deadline = some deadline) :
    InTime slow deadline (openProviderStreamWithResilience call) t fun _ _ => True := by
  refine inTime_admitted (inTime_attempts hcall inTime_asyncSleeper (inTime_openAttempt hcall) ?_)
  rintro t last u t' rfl
  refine ⟨⟨False.elim, Or.inr id⟩, ?_⟩
  cases last with
  | none => trivial
  | some exc => trivial

end Call

/-! ## A loop around its calls -/

open Failover (Context Variant HandlerExc Selected)

/-- A loop whose calls take as long as they take. -/
def loopTakes (deadline t : ℚ) : (c : Failover.Cmd) → c.Reply → ℚ → Prop
  | .callProvider _, _, t' | .openStream _, _, t' => t ≤ t'
  | .deadlineExpired, (expired : Bool), t' => expired = decide (deadline ≤ t) ∧ t' = t
  | .healthSnapshot, _, t' | .recordProvider _ _, _, t' | .recordFailover _ _, _, t'
  | .recordBudgetExhausted _, _, t' | .recordStream _, _, t' | .setMetricOutcome _, _, t' => t' = t

theorem loopTakes_forward {deadline t t' : ℚ} {c : Failover.Cmd} {x : c.Reply}
    (h : loopTakes deadline t c x t') : t ≤ t' := by
  cases c with
  | callProvider _ | openStream _ => exact h
  | deadlineExpired => exact h.2.ge
  | _ => exact (Eq.symm h).le

def loopPace (deadline : ℚ) : Pace Failover.Cmd Failover.Cmd.Reply :=
  ⟨loopTakes deadline, loopTakes_forward⟩

/-- A round starts before the deadline; providers are called without stream if `sync` holds. -/
def LoopAllowed (sync : Prop) (deadline : ℚ) : Allowed Failover.Cmd := fun t c _ =>
  match c with
  | .recordFailover _ _ => t < deadline
  | .callProvider _ => sync
  | _ => True

/-- Commands that take no time and start no round. -/
def isBeside : Failover.Cmd → Prop
  | .callProvider _ | .openStream _ | .recordFailover _ _ => False
  | _ => True

section Loop
variable {α : Type} {ctx : Context} {v : Variant α} {sync : Prop} {deadline t : ℚ}

/-- What is ensured of a loop. -/
abbrev RoundsInTime {β : Type} (sync : Prop) (deadline : ℚ) (p : Failover.Gw β) (t : ℚ)
    (Q : Except HandlerExc β → ℚ → Prop) : Prop :=
  Ensures (loopPace deadline) (LoopAllowed sync deadline) p t Q

/-- Between the calls no time passes. -/
theorem rounds_beside {β : Type} {p : Failover.Gw β} (h : Prog.Only isBeside p) :
    RoundsInTime sync deadline p t fun _ t' => t' = t := by
  refine ensures_of_instant h fun t c x t' hc hx => ?_
  cases c with
  | callProvider _ | openStream _ | recordFailover _ _ => exact hc.elim
  | deadlineExpired => exact ⟨trivial, hx.2⟩
  | _ => exact ⟨trivial, hx⟩

/-- The parts of a variant: an attempt takes its time, and what is counted takes none. -/
structure Plain (sync : Prop) (v : Variant α) : Prop where
  attempt : ∀ {p deadline t}, RoundsInTime sync deadline (v.attempt p) t fun _ _ => True
  succeeded : ∀ p, Prog.Only isBeside (v.succeeded p)
  recordStream : ∀ outcome, Prog.Only isBeside (v.recordStream outcome)

theorem plain_nonStream (hsync : sync) : Plain sync Failover.nonStream where
  attempt := fun _ _ _ => ⟨hsync, trivial⟩
  succeeded _ := Prog.only_perform.mpr trivial
  recordStream _ := trivial

theorem plain_streamOpen : Plain sync Failover.streamOpen where
  attempt := fun _ _ _ => ⟨trivial, trivial⟩
  succeeded _ := trivial
  recordStream _ := Prog.only_perform.mpr trivial

theorem rounds_stopOverBudget {β : Type} (hv : Plain sync v) :
    RoundsInTime sync deadline (Failover.stopOverBudget v : Failover.Gw β) t fun o _ =>
      ∃ e, o = .error e := by
  rintro _ t' rfl
  refine ⟨trivial, ?_⟩
  rintro _ t' rfl
  refine ⟨trivial, ?_⟩
  refine (rounds_beside (hv.recordStream "timeout")).bind ?_ ?_
  · exact fun _ _ _ _ => ⟨_, rfl⟩
  · exact fun e _ _ _ => ⟨e, rfl⟩

theorem only_giveUp {β : Type} (hv : Plain sync v) {timedOut : Bool} {exc : Exc} :
    Prog.Only isBeside (Failover.giveUp v timedOut exc : Failover.Gw β) := by
  unfold Failover.giveUp
  split
  · exact Prog.only_perform_bind.mpr ⟨trivial, fun _ => (hv.recordStream _).bind fun _ => trivial⟩
  · exact Prog.only_perform_bind.mpr ⟨trivial, fun _ => (hv.recordStream _).bind fun _ => trivial⟩

theorem only_selectFallback {candidates : List Provider} :
    Prog.Only isBeside (Failover.selectFallback ctx candidates) := by
  have hselect : Prog.Only isBeside (Failover.select ctx candidates) := by
    refine Prog.only_perform_bind.mpr ⟨trivial, fun health => ?_⟩
    split
    · trivial
    · trivial
  have hsome : Prog.Only isBeside (do return some (← Failover.select ctx candidates)) :=
    hselect.bind fun _ => trivial
  refine hsome.catch fun e => ?_
  cases e with
  | _ => trivial

/-- The clock is read after an error, and the loop goes on before the deadline only. -/
theorem rounds_afterFailure (hv : Plain sync v) {chosen : Provider} {tried : List String}
    {exc : Exc} :
    RoundsInTime sync deadline (Failover.afterFailure ctx v chosen tried exc) t fun o t' =>
      ∀ fallback, o = .ok fallback → t' < deadline := by
  have hbudget : RoundsInTime sync deadline (Failover.requestBudgetExhausted exc) t fun o t' =>
      t' = t ∧ (o = .ok false → t < deadline) := by
    unfold Failover.requestBudgetExhausted
    split
    · exact ⟨rfl, fun h => by cases h⟩
    · rintro expired t' ⟨hexpired, rfl⟩
      refine ⟨trivial, rfl, fun h => ?_⟩
      obtain rfl : expired = false := Except.ok.inj h
      exact not_le.mp (of_decide_eq_false hexpired.symm)
  unfold Failover.afterFailure
  split
  · exact fun fallback h => by cases h
  · refine hbudget.bind ?_ ?_
    · rintro exhausted t' - ⟨rfl, hlt⟩
      dsimp only
      rintro u t' rfl
      refine ⟨trivial, ?_⟩
      cases exhausted with
      | true =>
        refine (rounds_stopOverBudget hv).imp ?_
        rintro o t' - ⟨e, rfl⟩ fallback h
        cases h
      | false =>
        -- nothing that follows takes time
        refine (rounds_beside ?_).imp ?_
        · show Prog.Only isBeside (if Failover.remaining ctx tried = [] then _ else _)
          split
          · exact only_giveUp hv
          · refine only_selectFallback.bind fun selection => ?_
            cases selection with
            | none => exact only_giveUp hv
            | some fallback => trivial
        · rintro o t' - rfl fallback -
          exact hlt rfl
    · rintro e t' - - fallback h
      cases h

/-- The loop over the providers: each call of it begins in time. -/
theorem rounds_failover (hv : Plain sync v) {chosen : Provider} {reason : Reason}
    {tried : List String} {failedRetries : Nat} :
    RoundsInTime sync deadline (Failover.failover ctx v chosen reason tried failedRetries) t
      fun _ _ => True := by
  induction hn : (Failover.untried ctx (tried ++ [chosen.name])).length using
    Nat.strong_induction_on generalizing tried chosen reason failedRetries t with
  | _ n ih =>
  subst hn
  rw [Failover.failover]
  refine hv.attempt.bind ?_ fun _ _ _ _ => trivial
  intro reply t' _ _
  cases reply with
  | ok result =>
    exact (rounds_beside (hv.succeeded chosen)).bind (fun _ _ _ _ => trivial) fun _ _ _ _ => trivial
  | error raised =>
    refine (rounds_afterFailure hv).bind ?_ fun _ _ _ _ => trivial
    intro fallback t' _ hlt
    rintro _ t' rfl
    exact ⟨hlt fallback rfl, ih _ (Failover.untried_length_lt ctx fallback.mem) rfl⟩

end Loop

/-! ## A loop with its calls written out -/

section WrittenOut
variable {α : Type} {slow : Cmd → Prop} {deadline t : ℚ} {settings : ResilienceSettings}

abbrev LoopInTime {β : Type} (slow : Cmd → Prop) (deadline : ℚ) (p : Loop β) (t : ℚ)
    (Q : Except HandlerExc β → ℚ → Prop) : Prop :=
  Ensures (pace deadline) (Deadline deadline Command.begins (Command.within slow)) p t Q

theorem loopInTime_writtenOut {p : Provider} {call : Gw α}
    (h : InTime slow deadline call t fun _ _ => True) :
    LoopInTime slow deadline (writtenOut p call) t fun o t' => t ≤ t' ∧ ∃ o', o = .ok o' := by
  refine (h.outcome fun c t hok => ?_).imp fun o t' hle ho => ⟨hle, ?_⟩
  · exact ensures_perform fun x t' hx => ⟨hok x t' hx, x, rfl, hx⟩
  · obtain ⟨o', rfl, -⟩ := ho
    exact ⟨o', rfl⟩

/-- Each command of a loop is done as it was allowed to. -/
theorem loopInTime_into {sync : Prop} (hslow : sync → ∀ timeoutS, slow (.providerCall timeoutS))
    (c : Failover.Cmd)
    (hok : ∀ x t', loopTakes deadline t c x t' → LoopAllowed sync deadline t c t') :
    LoopInTime slow deadline (into settings deadline c) t fun o t' =>
      ∃ x, o = .ok x ∧ loopTakes deadline t c x t' := by
  cases c with
  | callProvider p =>
    have hsync : sync := hok (.error ⟨.typeError, none⟩) t le_rfl
    refine (loopInTime_writtenOut (inTime_callProvider (hslow hsync) rfl)).imp ?_
    rintro o t' - ⟨hle, x, rfl⟩
    exact ⟨x, rfl, hle⟩
  | openStream p =>
    refine (loopInTime_writtenOut (inTime_openProviderStream rfl)).imp ?_
    rintro o t' - ⟨hle, x, rfl⟩
    exact ⟨x, rfl, hle⟩
  | recordFailover failed fallback =>
    rintro x t' rfl
    exact ⟨⟨fun _ => hok () _ rfl, Or.inr id⟩, x, rfl, rfl⟩
  | deadlineExpired =>
    rintro x t' ⟨hx, rfl⟩
    exact ⟨⟨False.elim, Or.inr id⟩, x, rfl, hx, rfl⟩
  | healthSnapshot =>
    rintro x t' rfl
    exact ⟨⟨False.elim, Or.inr id⟩, x, rfl, rfl⟩
  | recordProvider _ _ | recordBudgetExhausted _ | recordStream _ | setMetricOutcome _ =>
    rintro x t' rfl
    exact ⟨⟨False.elim, Or.inr id⟩, x, rfl, rfl⟩

/-- The two loops together. -/
theorem loopInTime_failover {sync : Prop} {v : Variant α} (hv : Plain sync v)
    (hslow : sync → ∀ timeoutS, slow (.providerCall timeoutS)) {ctx : Context} {chosen : Provider}
    {reason : Reason} :
    LoopInTime slow deadline
      ((Failover.failover ctx v chosen reason [] 0).embed (into settings deadline) id) t
      fun _ _ => True :=
  ((rounds_failover hv).embed fun c _ hok => loopInTime_into hslow c hok).imp
    fun _ _ _ _ => trivial

end WrittenOut

/-! ## A request -/

/-- **Requests respect their budget, so far as their provider calls do.** No attempt, sleep or
failover round starts at or past the deadline; a stream is opened, or refused, by it; a request
without stream is at its end by it if and only if every provider call is. -/
theorem budget_respected (settings : ResilienceSettings) (ctx : Context) (chosen : Provider)
    (reason : Reason) {deadline start : ℚ} (hstart : start ≤ deadline) :
    (∀ ss o t, TimedRun (pace deadline) (callNonStream settings deadline ctx chosen reason) start
        ss o t →
      (∀ s ∈ ss, Command.begins s.command → s.sent < deadline) ∧
        (t ≤ deadline ↔ ∀ s ∈ ss, Command.isProviderCall s.command → s.answered ≤ deadline)) ∧
    ∀ ss o t, TimedRun (pace deadline) (streamResponse settings deadline ctx chosen reason) start
        ss o t →
      (∀ s ∈ ss, Command.begins s.command → s.sent < deadline) ∧ t ≤ deadline := by
  constructor
  · intro ss o t hrun
    have hcalls : True → ∀ timeoutS, Cmd.isProviderCall (.providerCall timeoutS) :=
      fun _ _ => trivial
    exact (loopInTime_failover (plain_nonStream trivial) hcalls).inTime hrun hstart
  · intro ss o t hrun
    have hnone : LoopInTime (fun _ => False) deadline
        (streamResponse settings deadline ctx chosen reason) start fun _ _ => True :=
      loopInTime_failover plain_streamOpen False.elim
    obtain ⟨hbegins, hends⟩ := hnone.inTime hrun hstart
    refine ⟨hbegins, hends.mpr fun s _ hslow => ?_⟩
    obtain ⟨c, x, sent, answered⟩ := s
    cases c with
    | call p c => exact False.elim hslow
    | loop c => exact False.elim hslow

/-! ### A call of the length of its operations -/

/-- The first attempt is answered. -/
def answeredEvents : List Event :=
  ⟨.breaker (.allowRequest "mock-a"), true⟩ :: (startsNow (.ok ⟨"{}", 12, 0⟩) ++
    [⟨.breaker (.recordSuccess "mock-a"), ()⟩])

theorem emits_answered :
    Emits (callProviderWithResilience quickCall) answeredEvents (.ok ⟨"{}", 12, 0⟩) := by
  refine ⟨true, _, rfl, ?_⟩
  show Emits (attempts quickCall sleeper (callAttempt quickCall) (callExhausted quickCall)
    2 0 none) _ _
  rw [attempts_succ]
  refine emits_andThen.mpr ⟨_, [], .ok ⟨"{}", 12, 0⟩, (List.append_nil _).symm,
    emits_startsNow ?_, rfl, rfl⟩
  exact ⟨(), [], rfl, rfl, rfl⟩

/-- The run from 0 on, in which the call is over at `t`. -/
def answeredRun (t : ℚ) : List (Stamped Command Command.Reply) :=
  let mock := Failover.localMock "mock-a"
  [⟨.call mock (.breaker (.allowRequest "mock-a")), true, 0, 0⟩,
    ⟨.call mock .clock, (0 : ℚ), 0, 0⟩,
    ⟨.call mock (.providerCall (min 10 (30 - 0))), .ok ⟨"{}", 12, 0⟩, 0, t⟩,
    ⟨.call mock (.breaker (.recordSuccess "mock-a")), (), t, t⟩,
    ⟨.loop (.recordProvider "mock-a" "success"), (), t, t⟩]

theorem timedRun_answered {operations : List ℚ} (h : ∀ d ∈ operations, 0 ≤ d ∧ d ≤ 10) :
    ∃ o, TimedRun (pace 30) (callNonStream quickSettings 30 Failover.helloContext
      (Failover.localMock "mock-a") (.forced "mock-a")) 0 (answeredRun (0 + operations.sum)) o
      (0 + operations.sum) := by
  have hemits : ∃ o, Emits (callNonStream quickSettings 30 Failover.helloContext
      (Failover.localMock "mock-a") (.forced "mock-a"))
      (answeredEvents.map (lift (Failover.localMock "mock-a")) ++
        [⟨.loop (.recordProvider "mock-a" "success"), ()⟩]) o := by
    unfold callNonStream Failover.callNonStream
    rw [Failover.failover]
    refine ⟨_, emits_bind.mpr (Or.inl ⟨_, [_], .ok ⟨"{}", 12, 0⟩, rfl, ?_, _, _, rfl, rfl, rfl⟩)⟩
    exact emits_writtenOut_of emits_answered
  have htimeout : min (10 : ℚ) (30 - 0) = 10 := by norm_num
  obtain ⟨o, hemits⟩ := hemits
  refine ⟨o, timedRun_iff.mpr ⟨hemits, ?_⟩⟩
  refine ⟨rfl, rfl, rfl, ⟨rfl, rfl⟩, rfl, ⟨operations, ?_, rfl⟩, rfl, rfl, rfl, rfl, rfl⟩
  rw [htimeout]
  exact h

/-- A call that is answered, after two operations of one and two seconds. -/
theorem budget_respected_answered : ∃ ss o, TimedRun (pace 30) (callNonStream quickSettings 30
      Failover.helloContext (Failover.localMock "mock-a") (.forced "mock-a")) 0 ss o
      (0 + [1, 2].sum) ∧
    ∀ s ∈ ss, Command.begins s.command → s.sent < 30 := by
  have hoperations : ∀ d ∈ [(1 : ℚ), 2], 0 ≤ d ∧ d ≤ 10 := by
    intro d hd
    rcases List.mem_pair.mp hd with rfl | rfl
    · norm_num
    · norm_num
  obtain ⟨o, hrun⟩ := timedRun_answered hoperations
  have hstart : (0 : ℚ) ≤ 30 := by norm_num
  exact ⟨_, o, hrun, ((budget_respected quickSettings Failover.helloContext _ _ hstart).1 _ _ _
    hrun).1⟩

/-- Four operations of ten seconds, each within its timeout, and a budget of thirty. -/
theorem budget_overrun : ∃ ss o t,
    TimedRun (pace 30) (callNonStream quickSettings 30 Failover.helloContext
      (Failover.localMock "mock-a") (.forced "mock-a")) 0 ss o t ∧ 30 < t := by
  have hoperations : ∀ d ∈ List.replicate 4 (10 : ℚ), 0 ≤ d ∧ d ≤ 10 := by
    intro d hd
    rw [List.eq_of_mem_replicate hd]
    norm_num
  obtain ⟨o, hrun⟩ := timedRun_answered hoperations
  refine ⟨_, o, _, hrun, ?_⟩
  norm_num

end PolyGate.Gateway.TimeBudget
