import PolyGate.Gateway.Retry

/-!
# `Gateway/TwinLoops.lean` — the two retry loops, side by side

`call_provider_with_resilience` and `open_provider_stream_with_resilience` are written out twice in
the source. `Agree` relates two programs that ask the same questions in the same order: what they
share word for word, a provider call against the opening of a stream, a sleep against an awaited
one. It is shown of the two functions once, from the top down, and says of two runs that were
answered alike whatever is to be said of them.

Four things differ. The sync loop reports a success, which the stream leaves to its consumer; the
stream may be cancelled, and reports a built-in `TimeoutError` as its budget's; and when there is no
attempt to make, each ends in an error of its own.
-/

namespace PolyGate.Gateway.TwinLoops

open Lib

/-! ## Reading a run -/

/-- What a run is answered, in the terms of both loops. -/
inductive Answer
  | admission (allowed : Bool)
  | reading (now : ℚ)
  | jitter (u : ℚ)
  | utc (now : Time)
  /-- how an attempt ended: with an error, or well -/
  | attempt (failure : Option ProviderError)
  deriving DecidableEq

def answer : Event → Option Answer
  | ⟨.breaker (.allowRequest _), allowed⟩ => some (.admission allowed)
  | ⟨.clock, now⟩ => some (.reading now)
  | ⟨.uniform _, u⟩ => some (.jitter u)
  | ⟨.utcNow, now⟩ => some (.utc now)
  | ⟨.providerCall _, .ok _⟩ => some (.attempt none)
  | ⟨.providerCall _, .error e⟩ => some (.attempt (some e))
  | ⟨.openStream _, .opened _⟩ => some (.attempt none)
  | ⟨.openStream _, .failed e⟩ => some (.attempt (some e))
  | _ => none

def script (es : List Event) : List Answer := es.filterMap answer

/-- The run is answered by the script, and no await is cancelled. -/
structure Follows (s : List Answer) (es : List Event) : Prop where
  answers : script es = s
  awake : ∀ e ∈ es, isCancelledAwait e = false

/-- No attempt of the script ends in the built-in `TimeoutError`. -/
def NoTimeoutError (s : List Answer) : Prop := .attempt (some .timeoutError) ∉ s

instance (s : List Answer) : Decidable (NoTimeoutError s) :=
  inferInstanceAs (Decidable (.attempt (some .timeoutError) ∉ s))

def Cmd.isAttempt : Cmd → Bool
  | .providerCall _ | .openStream _ => true
  | _ => false

def attemptCount (es : List Event) : Nat := es.countP fun e => Cmd.isAttempt e.1

def Cmd.delay : Cmd → Option ℚ
  | .sleep delay | .asyncSleep delay => some delay
  | _ => none

/-- The sleeps, by their lengths. -/
def delays (es : List Event) : List ℚ := es.filterMap fun e => Cmd.delay e.1

def Cmd.call : Cmd → Option Call
  | .breaker c => some c
  | _ => none

/-- The calls of the breaker. -/
def breakerCalls (es : List Event) : List Call := es.filterMap fun e => Cmd.call e.1

/-- The registry after a run, the breaker's clock showing `clock n` at its `n`-th call. -/
def breakerAfter (r : Registry) (clock : Nat → Time) (es : List Event) : Registry :=
  (breakerCalls es).zipIdx.foldl (fun r c => r.call (clock c.2) c.1) r

/-- How two runs end alike: in the same error with the same count, or with as many retries. -/
inductive SameOutcome : Except Raised AdapterResult → Except Raised OpenedProviderStream → Prop
  | raised (r : Raised) : SameOutcome (.error r) (.error r)
  | served {result : AdapterResult} {opened : OpenedProviderStream}
      (retries : result.retries = opened.retries) : SameOutcome (.ok result) (.ok opened)

/-! ## Programs that agree -/

/-- The commands that both loops use. -/
def Cmd.isShared : Cmd → Prop
  | .breaker _ | .clock | .uniform _ | .utcNow | .recordProviderRetry _ => True
  | _ => False

theorem isShared_of_isAside {c : Cmd} (h : c.isAside) : Cmd.isShared c := by
  cases c <;> trivial

/-- The two programs ask the same in the same order. -/
inductive Agree : Gw AdapterResult → Gw OpenedProviderStream → Prop
  | raise (r : Raised) : Agree (.raise r) (.raise r)
  | same {c : Cmd} {k : Except Raised c.Reply → Gw AdapterResult}
      {k' : Except Raised c.Reply → Gw OpenedProviderStream} (shared : Cmd.isShared c)
      (rest : ∀ x, Agree (k (.ok x)) (k' (.ok x))) : Agree (.cmd c k) (.cmd c k')
  | slept {delay : ℚ} {k : Except Raised Unit → Gw AdapterResult}
      {k' : Except Raised Slept → Gw OpenedProviderStream}
      (rest : Agree (k (.ok ())) (k' (.ok .woke))) :
      Agree (.cmd (.sleep delay) k) (.cmd (.asyncSleep delay) k')
  | tried {timeoutS : ℚ} {remaining : Option ℚ}
      {k : Except Raised (Except ProviderError AdapterResult) → Gw AdapterResult}
      {k' : Except Raised Opening → Gw OpenedProviderStream}
      (failed : ∀ e, e ≠ .timeoutError → Agree (k (.ok (.error e))) (k' (.ok (.failed e))))
      (served : ∀ result opened, ∃ name report result' opened',
        k (.ok (.ok result)) = .cmd (.breaker (.recordSuccess name)) report ∧
        report (.ok ()) = .ret result' ∧ k' (.ok (.opened opened)) = .ret opened' ∧
        result'.retries = opened'.retries) :
      Agree (.cmd (.providerCall timeoutS) k) (.cmd (.openStream remaining) k')

section Agree

/-- What both do first, both do the same. -/
theorem Agree.andThen {β : Type} {p : Gw β} {f : Except Raised β → Gw AdapterResult}
    {g : Except Raised β → Gw OpenedProviderStream} (hp : Prog.Only Cmd.isShared p)
    (h : ∀ o, Agree (f o) (g o)) : Agree (p.andThen f) (p.andThen g) := by
  induction p with
  | ret a => exact h (.ok a)
  | raise r => exact h (.error r)
  | cmd c k ih => exact .same hp.1 fun x => ih (.ok x) (hp.2 (.ok x))

theorem Agree.bind {β : Type} {p : Gw β} {f : β → Gw AdapterResult}
    {g : β → Gw OpenedProviderStream} (hp : Prog.Only Cmd.isShared p)
    (h : ∀ a, Agree (f a) (g a)) : Agree (p >>= f) (p >>= g) := by
  rw [Prog.bind_eq_andThen, Prog.bind_eq_andThen]
  refine .andThen hp fun o => ?_
  cases o with
  | ok a => exact h a
  | error r => exact .raise r

end Agree

/-! ## The loops agree -/

section Loops

variable {call : ResilientCall} {k n : Nat}

/-- `except Exception` up to the sleep: the delay to wait. -/
def backoff (call : ResilientCall) (attempt : Nat) (exc : ProviderError) : Gw ℚ :=
  if !exc.isTransient || decide ((attempt : Int) = call.maxRetries) then do
    recordTerminalFailure call.name exc
    throw ⟨.provider exc, some attempt⟩
  else do
    let delay ← retryDelay call exc attempt
    tryCatch (ensureDelayFitsBudget call delay) fun _ => do
      recordTerminalFailure call.name exc
      throw ((budgetExceeded call.name).attachRetryCount attempt)
    Prog.perform (Cmd.recordProviderRetry exc.retryReason)
    return delay

theorem retryOrRaise_eq {sleeper : ℚ → Gw Unit} {exc : ProviderError} :
    retryOrRaise call sleeper k exc = backoff call k exc >>= sleeper := by
  unfold retryOrRaise backoff
  split
  · rw [Prog.bind_assoc]
    rfl
  · rw [Prog.bind_assoc]
    congr 1
    funext delay
    rw [Prog.bind_assoc]
    congr 1
    funext _
    simp

theorem only_backoff {exc : ProviderError} : Prog.Only Cmd.isShared (backoff call k exc) := by
  have haside {β : Type} {p : Gw β} (h : Prog.Only Cmd.isAside p) : Prog.Only Cmd.isShared p :=
    h.imp fun _ => isShared_of_isAside
  unfold backoff
  split
  · exact (haside only_recordTerminalFailure).bind fun _ => trivial
  · refine (haside only_retryDelay).bind fun delay => Prog.Only.bind (haside ?_) fun _ => ?_
    · exact only_ensureDelayFitsBudget.catch fun _ =>
        only_recordTerminalFailure.bind fun _ => trivial
    · exact Prog.only_perform_bind.mpr ⟨trivial, fun _ => trivial⟩

/-- How the loop goes on from the end of an attempt's `try`. -/
def afterTry {α : Type} (call : ResilientCall) (sleeper : ℚ → Gw Unit) (attempt : Nat)
    (again : ProviderError → Gw α) : Except Raised α → Gw α
  | .ok result => .ret result
  | .error raised =>
    match raised.exc with
    | .retryBudgetExceeded _ => .raise (raised.attachRetryCount attempt)
    | .provider exc => do
      let delay ← backoff call attempt exc
      sleeper delay
      again exc
    | _ => .raise raised

/-- The loop, one attempt unrolled. -/
theorem attempts_succ {α : Type} {sleeper : ℚ → Gw Unit} {body : Nat → Gw α}
    {exhausted : Option ProviderError → Gw α} {last : Option ProviderError} :
    attempts call sleeper body exhausted (n + 1) k last =
      (body k).andThen (afterTry call sleeper k fun exc =>
        attempts call sleeper body exhausted n (k + 1) (some exc)) := by
  rw [attempts, runAttempt, Prog.bind_eq_andThen, Prog.catch_andThen, Prog.bind_andThen]
  congr 1
  funext o
  cases o with
  | ok result => rfl
  | error raised =>
    obtain ⟨exc, retries⟩ := raised
    cases exc with
    | provider exc =>
      show (retryOrRaise call sleeper k exc >>= fun _ => Prog.ret (Except.error exc)).andThen _ =
        (backoff call k exc >>= fun delay => sleeper delay >>= fun _ => _)
      rw [← Prog.bind_eq_andThen, retryOrRaise_eq, Prog.bind_assoc, Prog.bind_assoc]
      rfl
    | _ => rfl

/-- The timeout of an attempt with so much of the budget left. -/
def timeoutOf (call : ResilientCall) : Option ℚ → ℚ
  | none => call.timeoutS
  | some remaining => min call.timeoutS remaining

/-- The rest of the sync `try`, from the answer of the provider on. -/
def afterCall (call : ResilientCall) (attempt : Nat) :
    Except ProviderError AdapterResult → Gw AdapterResult
  | .ok result => do
    Prog.perform (Cmd.breaker (.recordSuccess call.name))
    return { result with retries := attempt }
  | .error exc => throw ⟨.provider exc, none⟩

/-- The rest of the stream's `try`, from the end of its await on. -/
def afterOpening (call : ResilientCall) (attempt : Nat) : Opening → Gw OpenedProviderStream
  | .opened stream => return { stream with retries := attempt }
  | .failed .timeoutError => do
    recordTerminalFailure call.name .timeoutError
    throw ((budgetExceeded call.name).attachRetryCount attempt)
  | .failed exc => throw ⟨.provider exc, none⟩
  | .cancelled => throw ⟨.cancelledError, none⟩

theorem callAttempt_eq : callAttempt call k = startAttempt call >>= fun remaining =>
    Prog.perform (Cmd.providerCall (timeoutOf call remaining)) >>= afterCall call k := by
  unfold callAttempt attemptTimeout
  rw [Prog.bind_assoc]
  congr 1
  funext remaining
  cases remaining with
  | none => exact congrArg (Prog.perform _ >>= ·) (by funext answer; cases answer <;> rfl)
  | some s => exact congrArg (Prog.perform _ >>= ·) (by funext answer; cases answer <;> rfl)

theorem openAttempt_eq : openAttempt call k = startAttempt call >>= fun remaining =>
    Prog.perform (Cmd.openStream remaining) >>= afterOpening call k := rfl

theorem afterOpening_failed {exc : ProviderError} (h : exc ≠ .timeoutError) :
    afterOpening call k (.failed exc) = .raise ⟨.provider exc, none⟩ := by
  cases exc with
  | timeoutError => exact absurd rfl h
  | _ => rfl

/-- **The loops agree**, by induction on the attempts to go. -/
theorem agree_attempts {last : Option ProviderError} (hlast : n = 0 → last ≠ none) :
    Agree (attempts call sleeper (callAttempt call) (callExhausted call) n k last)
      (attempts call asyncSleeper (openAttempt call) (openExhausted call) n k last) := by
  induction n generalizing k last with
  | zero =>
    obtain ⟨exc, rfl⟩ := Option.ne_none_iff_exists'.mp (hlast rfl)
    exact .same trivial fun _ => .raise _
  | succ n ih =>
    rw [attempts_succ, attempts_succ]
    have hfailed (r : Raised) :
        Agree (afterTry call sleeper k (fun exc => attempts call sleeper (callAttempt call)
            (callExhausted call) n (k + 1) (some exc)) (.error r))
          (afterTry call asyncSleeper k (fun exc => attempts call asyncSleeper (openAttempt call)
            (openExhausted call) n (k + 1) (some exc)) (.error r)) := by
      obtain ⟨exc, retries⟩ := r
      cases exc with
      | provider exc =>
        refine .bind only_backoff fun delay => .slept (ih fun _ => ?_)
        simp
      | _ => exact .raise _
    rw [callAttempt_eq, openAttempt_eq, Prog.bind_andThen, Prog.bind_andThen]
    refine .andThen (only_startAttempt.imp fun _ => isShared_of_isAside) fun o => ?_
    cases o with
    | error r => exact hfailed r
    | ok remaining =>
      refine .tried (fun exc hexc => ?_) fun result opened => ?_
      · show Agree _ ((afterOpening call k (.failed exc)).andThen _)
        rw [afterOpening_failed hexc]
        exact hfailed _
      · exact ⟨call.name, _, { result with retries := k }, { opened with retries := k }, rfl, rfl,
          rfl, rfl⟩

theorem agree_admitted {loop : Gw AdapterResult} {loop' : Gw OpenedProviderStream}
    (h : Agree loop loop') : Agree (admitted call loop) (admitted call loop') := by
  refine .bind (Prog.only_perform.mpr trivial) fun (allowed : Bool) => ?_
  cases allowed with
  | true => exact h
  | false => exact .raise _

theorem agree_loops (hlimit : 0 ≤ call.maxRetries) :
    Agree (callProviderWithResilience call) (openProviderStreamWithResilience call) :=
  agree_admitted (agree_attempts fun hnone => by omega)

end Loops

/-! ## Runs of programs that agree -/

section Runs

variable {s : List Answer} {es fs : List Event} {c : Cmd}

/-- Two shared commands answered alike were answered the same. -/
theorem shared_script (hc : Cmd.isShared c) {x y : c.Reply}
    (h : script (⟨c, x⟩ :: es) = script (⟨c, y⟩ :: fs)) : x = y ∧ script es = script fs := by
  unfold script at h ⊢
  cases c with
  | breaker c => cases c <;> simpa [List.filterMap_cons, answer] using h
  | clock => simpa [List.filterMap_cons, answer] using h
  | uniform u => simpa [List.filterMap_cons, answer] using h
  | utcNow => simpa [List.filterMap_cons, answer] using h
  | recordProviderRetry reason => simpa [List.filterMap_cons, answer] using h
  | _ => exact hc.elim

theorem Follows.tail {e : Event} (h : Follows s (e :: es)) : Follows (script es) es :=
  ⟨rfl, fun e' he' => h.awake e' (List.mem_cons_of_mem _ he')⟩

theorem NoTimeoutError.tail {e : Event} (h : NoTimeoutError (script (e :: es))) :
    NoTimeoutError (script es) := by
  intro hmem
  refine h (List.mem_filterMap.mpr ?_)
  obtain ⟨e', he', hans⟩ := List.mem_filterMap.mp hmem
  exact ⟨e', List.mem_cons_of_mem _ he', hans⟩

/-- What is said of two runs. -/
structure Together (es fs : List Event) (o : Except Raised AdapterResult)
    (o' : Except Raised OpenedProviderStream) : Prop where
  attempts : attemptCount es = attemptCount fs
  sleeps : delays es = delays fs
  outcome : SameOutcome o o'
  breaker : ∀ r, o = .error r → breakerCalls es = breakerCalls fs

/-- An event of both runs that both runs start with. -/
theorem Together.cons_shared {o : Except Raised AdapterResult}
    {o' : Except Raised OpenedProviderStream} (x : c.Reply) (h : Together es fs o o') :
    Together (⟨c, x⟩ :: es) (⟨c, x⟩ :: fs) o o' where
  attempts := by
    unfold attemptCount
    rw [List.countP_cons, List.countP_cons]
    exact congrArg (· + _) h.attempts
  sleeps := by
    unfold delays
    rw [List.filterMap_cons, List.filterMap_cons]
    have hrest : delays es = delays fs := h.sleeps
    unfold delays at hrest
    rw [hrest]
  outcome := h.outcome
  breaker r hr := by
    have hrest := h.breaker r hr
    unfold breakerCalls at hrest ⊢
    rw [List.filterMap_cons, List.filterMap_cons, hrest]

/-- **Two runs of programs that agree, answered alike.** -/
theorem Agree.together {p : Gw AdapterResult} {q : Gw OpenedProviderStream} (h : Agree p q)
    {o : Except Raised AdapterResult} {o' : Except Raised OpenedProviderStream}
    (hp : Prog.Emits p es o) (hq : Prog.Emits q fs o') (hes : Follows s es) (hfs : Follows s fs)
    (hs : NoTimeoutError s) : Together es fs o o' := by
  induction h generalizing s es fs with
  | raise r =>
    obtain ⟨rfl, rfl⟩ := hp
    obtain ⟨rfl, rfl⟩ := hq
    exact ⟨rfl, rfl, .raised r, fun _ _ => rfl⟩
  | @same c k k' shared rest ih =>
    obtain ⟨x, es', rfl, hp⟩ := hp
    obtain ⟨y, fs', rfl, hq⟩ := hq
    obtain ⟨rfl, htail⟩ := shared_script shared (hes.answers.trans hfs.answers.symm)
    rw [← hes.answers] at hs
    exact (ih x hp hq hes.tail (htail ▸ hfs.tail) hs.tail).cons_shared x
  -- the loop of the streams can be cancelled in its sleep, which the script excludes
  | @slept delay k k' rest ih =>
    obtain ⟨x, es', rfl, hp⟩ := hp
    obtain ⟨y, fs', rfl, hq⟩ := hq
    cases y with
    | cancelled => cases hfs.awake _ List.mem_cons_self
    | woke =>
      have htail : script es' = script fs' := hes.answers.trans hfs.answers.symm
      rw [← hes.answers] at hs
      have hrest := ih hp hq hes.tail (htail ▸ hfs.tail) hs.tail
      refine ⟨hrest.attempts, ?_, hrest.outcome, hrest.breaker⟩
      exact congrArg (delay :: ·) hrest.sleeps
  | @tried timeoutS remaining k k' failed served ih =>
    obtain ⟨x, es', rfl, hp⟩ := hp
    obtain ⟨y, fs', rfl, hq⟩ := hq
    have hboth := hes.answers.trans hfs.answers.symm
    cases y with
    | cancelled => cases hfs.awake _ List.mem_cons_self
    | opened stream =>
      cases x with
      | error exc => cases (List.cons.inj hboth).1
      | ok result =>
        obtain ⟨name, report, result', opened', hk, hreport, hk', hretries⟩ := served result stream
        rw [hk] at hp
        rw [hk'] at hq
        obtain ⟨u, es'', rfl, hp⟩ := hp
        rw [hreport] at hp
        obtain ⟨rfl, rfl⟩ := hp
        obtain ⟨rfl, rfl⟩ := hq
        exact ⟨rfl, rfl, .served hretries, fun r hr => by cases hr⟩
    | failed exc =>
      cases x with
      | ok result => cases (List.cons.inj hboth).1
      | error exc' =>
        obtain ⟨hhead, htail⟩ := List.cons.inj hboth
        -- the same failure of both, and not a `TimeoutError`, which only one of them can meet
        cases hhead
        rw [← hes.answers] at hs
        have hexc : exc ≠ .timeoutError := by
          intro heq
          subst heq
          exact hs List.mem_cons_self
        have htail : script es' = script fs' := htail
        have hrest := ih exc hexc hp hq hes.tail (htail ▸ hfs.tail) hs.tail
        refine ⟨?_, hrest.sleeps, hrest.outcome, hrest.breaker⟩
        unfold attemptCount
        rw [List.countP_cons, List.countP_cons]
        exact congrArg (· + 1) hrest.attempts

/-- Whatever answers a run of the sync loop had, the stream's loop can be given them. -/
theorem Agree.exists_stream {p : Gw AdapterResult} {q : Gw OpenedProviderStream} (h : Agree p q)
    {o : Except Raised AdapterResult} (hp : Prog.Emits p es o)
    (hs : NoTimeoutError (script es)) : ∃ fs o', Prog.Emits q fs o' ∧ Follows (script es) fs := by
  induction h generalizing es with
  | raise r =>
    obtain ⟨rfl, rfl⟩ := hp
    exact ⟨[], .error r, ⟨rfl, rfl⟩, rfl, by simp⟩
  | @same c k k' shared rest ih =>
    obtain ⟨x, es', rfl, hp⟩ := hp
    obtain ⟨fs, o', hq, hfs⟩ := ih x hp hs.tail
    refine ⟨⟨c, x⟩ :: fs, o', ⟨x, fs, rfl, hq⟩, ?_, List.forall_mem_cons.mpr ⟨?_, hfs.awake⟩⟩
    · have hrest : script fs = script es' := hfs.answers
      unfold script at hrest ⊢
      rw [List.filterMap_cons, List.filterMap_cons, hrest]
    · cases c <;> first | rfl | exact shared.elim
  | @slept delay k k' rest ih =>
    obtain ⟨x, es', rfl, hp⟩ := hp
    obtain ⟨fs, o', hq, hfs⟩ := ih hp hs.tail
    refine ⟨⟨.asyncSleep delay, .woke⟩ :: fs, o', ⟨.woke, fs, rfl, hq⟩, hfs.answers, ?_⟩
    exact List.forall_mem_cons.mpr ⟨rfl, hfs.awake⟩
  | @tried timeoutS remaining k k' failed served ih =>
    obtain ⟨x, es', rfl, hp⟩ := hp
    cases x with
    | ok result =>
      obtain ⟨name, report, result', opened', hk, hreport, hk', -⟩ := served result ⟨"", 0, 0⟩
      rw [hk] at hp
      obtain ⟨u, es'', rfl, hp⟩ := hp
      rw [hreport] at hp
      obtain ⟨rfl, rfl⟩ := hp
      refine ⟨[⟨.openStream remaining, .opened ⟨"", 0, 0⟩⟩], .ok opened', ⟨_, [], rfl, ?_⟩, rfl, ?_⟩
      · rw [hk']
        exact ⟨rfl, rfl⟩
      · simp [isCancelledAwait]
    | error exc =>
      have hexc : exc ≠ .timeoutError := by
        intro heq
        subst heq
        exact hs List.mem_cons_self
      obtain ⟨fs, o', hq, hfs⟩ := ih exc hexc hp hs.tail
      refine ⟨⟨.openStream remaining, .failed exc⟩ :: fs, o', ⟨_, fs, rfl, hq⟩,
        congrArg (Answer.attempt (some exc) :: ·) hfs.answers, ?_⟩
      exact List.forall_mem_cons.mpr ⟨rfl, hfs.awake⟩

/-- And the other way round, as long as nothing is cancelled. -/
theorem Agree.exists_call {p : Gw AdapterResult} {q : Gw OpenedProviderStream} (h : Agree p q)
    {o' : Except Raised OpenedProviderStream} (hq : Prog.Emits q fs o')
    (hfs : Follows (script fs) fs) (hs : NoTimeoutError (script fs)) :
    ∃ es o, Prog.Emits p es o ∧ Follows (script fs) es := by
  induction h generalizing fs with
  | raise r =>
    obtain ⟨rfl, rfl⟩ := hq
    exact ⟨[], .error r, ⟨rfl, rfl⟩, rfl, by simp⟩
  | @same c k k' shared rest ih =>
    obtain ⟨x, fs', rfl, hq⟩ := hq
    obtain ⟨es, o, hp, hes⟩ := ih x hq hfs.tail hs.tail
    refine ⟨⟨c, x⟩ :: es, o, ⟨x, es, rfl, hp⟩, ?_, List.forall_mem_cons.mpr ⟨?_, hes.awake⟩⟩
    · have hrest : script es = script fs' := hes.answers
      unfold script at hrest ⊢
      rw [List.filterMap_cons, List.filterMap_cons, hrest]
    · exact hfs.awake _ List.mem_cons_self
  | @slept delay k k' rest ih =>
    obtain ⟨x, fs', rfl, hq⟩ := hq
    cases x with
    | cancelled => cases hfs.awake _ List.mem_cons_self
    | woke =>
      obtain ⟨es, o, hp, hes⟩ := ih hq hfs.tail hs.tail
      refine ⟨⟨.sleep delay, ()⟩ :: es, o, ⟨(), es, rfl, hp⟩, hes.answers, ?_⟩
      exact List.forall_mem_cons.mpr ⟨rfl, hes.awake⟩
  | @tried timeoutS remaining k k' failed served ih =>
    obtain ⟨x, fs', rfl, hq⟩ := hq
    cases x with
    | cancelled => cases hfs.awake _ List.mem_cons_self
    | opened stream =>
      -- any answer will do where the stream was opened
      obtain ⟨name, report, result', opened', hk, hreport, hk', -⟩ := served ⟨"", 0, 0⟩ stream
      rw [hk'] at hq
      obtain ⟨rfl, rfl⟩ := hq
      refine ⟨[⟨.providerCall timeoutS, .ok ⟨"", 0, 0⟩⟩, ⟨.breaker (.recordSuccess name), ()⟩],
        .ok result', ⟨_, _, rfl, ?_⟩, rfl, by simp [isCancelledAwait]⟩
      rw [hk]
      refine ⟨(), [], rfl, ?_⟩
      rw [hreport]
      exact ⟨rfl, rfl⟩
    | failed exc =>
      have hexc : exc ≠ .timeoutError := by
        intro heq
        subst heq
        exact hs List.mem_cons_self
      obtain ⟨es, o, hp, hes⟩ := ih exc hexc hq hfs.tail hs.tail
      refine ⟨⟨.providerCall timeoutS, .error exc⟩ :: es, o, ⟨_, es, rfl, hp⟩,
        congrArg (Answer.attempt (some exc) :: ·) hes.answers, ?_⟩
      exact List.forall_mem_cons.mpr ⟨rfl, hes.awake⟩

end Runs

/-! ## The two functions -/

/-- One retry, no deadline. -/
def oneRetry : ResilientCall := ⟨"mock-a", 10, 1, 1, 5, none⟩

/-- Not even a first attempt. -/
def noAttempt : ResilientCall := ⟨"mock-a", 10, -1, 1, 5, none⟩

/-- A connection is refused, and then not. -/
def refusedOnce : List Answer :=
  [.admission true, .attempt (some .transportError), .jitter 0, .attempt none]

/-- **The two retry loops agree.** -/
theorem loops_agree {call : ResilientCall} {s : List Answer} (hlimit : 0 ≤ call.maxRetries)
    (hs : NoTimeoutError s) :
    ((∃ es o, Prog.Emits (callProviderWithResilience call) es o ∧ Follows s es) ↔
      ∃ fs o', Prog.Emits (openProviderStreamWithResilience call) fs o' ∧ Follows s fs) ∧
    ∀ es fs o o', Prog.Emits (callProviderWithResilience call) es o →
      Prog.Emits (openProviderStreamWithResilience call) fs o' → Follows s es → Follows s fs →
      attemptCount es = attemptCount fs ∧ delays es = delays fs ∧ SameOutcome o o' ∧
        ∀ r, o = .error r → ∀ registry clock,
          breakerAfter registry clock es = breakerAfter registry clock fs := by
  have hagree := agree_loops hlimit
  refine ⟨⟨?_, ?_⟩, ?_⟩
  · intro ⟨es, o, hp, hes⟩
    obtain ⟨rfl, -⟩ := hes
    exact hagree.exists_stream hp hs
  · intro ⟨fs, o', hq, hfs⟩
    obtain ⟨rfl, hawake⟩ := hfs
    exact hagree.exists_call hq ⟨rfl, hawake⟩ hs
  · intro es fs o o' hp hq hes hfs
    have htogether := hagree.together hp hq hes hfs hs
    refine ⟨htogether.attempts, htogether.sleeps, htogether.outcome, fun r hr registry clock => ?_⟩
    unfold breakerAfter
    rw [htogether.breaker r hr]

theorem loops_agree_refusedOnce : ∃ fs o',
    Prog.Emits (openProviderStreamWithResilience oneRetry) fs o' ∧ Follows refusedOnce fs := by
  refine (loops_agree (by decide) (by decide)).1.mp ⟨
    [⟨.breaker (.allowRequest "mock-a"), true⟩, ⟨.providerCall 10, .error .transportError⟩,
      ⟨.uniform 1, 0⟩, ⟨.recordProviderRetry "transport", ()⟩,
      ⟨.sleep (max (min 5 (1 * 2 ^ 0 + 0)) 0), ()⟩,
      ⟨.providerCall 10, .ok ⟨"", 0, 0⟩⟩, ⟨.breaker (.recordSuccess "mock-a"), ()⟩],
    .ok ⟨"", 0, 1⟩, ?_, rfl, by simp [isCancelledAwait]⟩
  exact ⟨_, _, rfl, _, _, rfl, _, _, rfl, _, _, rfl, _, _, rfl, _, _, rfl, _, _, rfl, rfl, rfl⟩

/-- **Without an attempt to make, the loops part**: one raises a `TypeError`, the other fails its
assertion. -/
theorem negative_limit_parts : NoTimeoutError [.admission true] ∧ ∃ es fs o o',
    Prog.Emits (callProviderWithResilience noAttempt) es o ∧
      Prog.Emits (openProviderStreamWithResilience noAttempt) fs o' ∧
      Follows [.admission true] es ∧ Follows [.admission true] fs ∧ ¬ SameOutcome o o' := by
  refine ⟨by decide, [⟨.breaker (.allowRequest "mock-a"), true⟩,
      ⟨.breaker (.recordFailure "mock-a"), ()⟩],
    [⟨.breaker (.allowRequest "mock-a"), true⟩, ⟨.breaker (.recordFailure "mock-a"), ()⟩],
    .error ⟨.typeError, none⟩, .error ⟨.assertionError, none⟩, ⟨_, _, rfl, _, _, rfl, rfl, rfl⟩,
    ⟨_, _, rfl, _, _, rfl, rfl, rfl⟩, ⟨rfl, by simp [isCancelledAwait]⟩,
    ⟨rfl, by simp [isCancelledAwait]⟩, ?_⟩
  intro h
  cases h

end PolyGate.Gateway.TwinLoops
