import PolyGate.Lib.RelyGuarantee
import PolyGate.Gateway.Retry

/-!
# `Gateway/Probe.lean` — the probe slot of a half-open breaker

A half-open breaker lets one request through and holds its slot until that request reports.
Here any number of resilient calls, of both kinds and for any providers, share one registry,
each command one step, in any order.

The slot is always held by somebody who owes a report (`Inv.slot`), so once nothing is in flight
it is free — provided every call kept to its schedule. `reports_once` puts this together with
what a single call reports; `late_start_reports_nothing` is a call that breaks the promise.
-/

namespace PolyGate.Gateway

open Lib

/-! ## Calls that share a registry -/

/-- A call of one of the two functions. -/
inductive Request
  | call (c : ResilientCall)
  | stream (c : ResilientCall)

def Request.args : Request → ResilientCall
  | .call c | .stream c => c

/-- What runs for a request; the value says whether the request is still in flight, a stream
having been handed out. -/
def Request.program : Request → Gw Bool
  | .call c => do
    let _ ← callProviderWithResilience c
    return false
  | .stream c => do
    let _ ← openProviderStreamWithResilience c
    return true

/-- The registry, and what each request has done so far. -/
structure Host (ι : Type) where
  registry : Registry
  events : ι → List Event

variable {ι : Type}

/-- The breaker answers from the registry; everything else may be answered anything. -/
def answers [DecidableEq ι] (i : ι) (h : Host ι) (c : Cmd) (x : c.Reply) (h' : Host ι) : Prop :=
  h'.events = Function.update h.events i (h.events i ++ [⟨c, x⟩]) ∧
  match c, x with
  | .breaker (.allowRequest name), (allowed : Bool) => ∃ now,
      allowed = (h.registry.allowRequest name now).1 ∧
      h'.registry = h.registry.call now (.allowRequest name)
  | .breaker call, _ => ∃ now, h'.registry = h.registry.call now call
  | _, _ => h'.registry = h.registry

abbrev Requests (ι : Type) := Pool ι (Host ι) Cmd Cmd.Reply Raised Bool

def Requests.step [DecidableEq ι] : Requests ι → ι × Cmd → Requests ι → Prop :=
  Pool.Step fun i => .ofAnswers (answers i)

def Requests.start (defaults : BreakerConfig) (requests : ι → Request) : Requests ι where
  shared := { registry := .new defaults, events := fun _ => [] }
  threads i := (requests i).program

/-! ## Who holds the slot -/

/-- The breaker of `name` is half open with its slot taken. -/
def Registry.ProbeTaken (r : Registry) (name : String) : Prop :=
  (r.get name).state = .halfOpen ∧ (r.get name).halfOpenProbeInFlight = true

def Call.name : Call → String
  | .allowRequest name | .recordSuccess name | .recordFailure name | .recordCancelled name => name

theorem Registry.get_call_of_ne (r : Registry) (now : Time) (c : Call) {name : String}
    (h : name ≠ c.name) : (r.call now c).get name = r.get name := by
  cases c <;> exact r.get_set_of_ne _ h

theorem ProviderBreaker.recordFailure_state (b : ProviderBreaker) (now : Time) :
    (b.recordFailure now).state ≠ .halfOpen := by
  unfold recordFailure
  split
  · simp [reopen]
  · rename_i h
    dsimp only
    split
    · simp
    · simpa [pruneOldFailures] using h

/-- Every report frees the slot. -/
theorem Registry.not_probeTaken_of_report (r : Registry) (now : Time) {c : Call}
    (h : ∀ name, c ≠ .allowRequest name) : ¬ (r.call now c).ProbeTaken c.name := by
  rintro ⟨hs, -⟩
  cases c with
  | allowRequest name => exact h name rfl
  | recordSuccess name =>
    simp [Registry.call, Registry.recordSuccess, ProviderBreaker.recordSuccess, Call.name] at hs
  | recordFailure name =>
    simp only [Registry.call, Registry.recordFailure, Call.name, Registry.get_set_self] at hs
    exact ProviderBreaker.recordFailure_state _ _ hs
  | recordCancelled name =>
    simp only [Registry.call, Registry.recordCancelled, Call.name, Registry.get_set_self,
      ProviderBreaker.recordCancelled] at hs
    split at hs
    · simp [ProviderBreaker.reopen] at hs
    · contradiction

/-- A slot that is taken after an `allow_request` was given to it, or taken before. -/
theorem Registry.probeTaken_of_allowRequest (r : Registry) (now : Time) {name : String}
    (h : (r.call now (.allowRequest name)).ProbeTaken name) :
    (r.allowRequest name now).1 = true ∨ r.ProbeTaken name := by
  have hcall : (r.call now (.allowRequest name)).get name = ((r.get name).allowRequest now).2 :=
    r.get_set_self _ _
  have hallow : (r.allowRequest name now).1 = ((r.get name).allowRequest now).1 := rfl
  rw [Registry.ProbeTaken, hcall] at h
  rw [hallow, Registry.ProbeTaken]
  generalize r.get name = b at h
  unfold ProviderBreaker.allowRequest at h ⊢
  cases hs : b.state with
  | closed => exact Or.inl rfl
  | opened =>
    rw [hs] at h
    cases hcool : b.cooldownOver now with
    | true => simp [ProviderBreaker.admitProbe]
    | false =>
      simp [hcool, hs] at h
  | halfOpen =>
    cases hp : b.halfOpenProbeInFlight with
    | true => exact Or.inr ⟨rfl, rfl⟩
    | false => simp [ProviderBreaker.admitProbe, hp]

/-- A slot that is taken after any call was taken before, or has just been given out. -/
theorem Registry.probeTaken_of_call (r : Registry) (now : Time) (c : Call) {name : String}
    (h : (r.call now c).ProbeTaken name) :
    r.ProbeTaken name ∧ (c.name = name → c = .allowRequest name) ∨
      c = .allowRequest name ∧ (r.allowRequest name now).1 = true := by
  rcases eq_or_ne name c.name with rfl | hne
  · by_cases hc : ∀ name, c ≠ .allowRequest name
    · exact absurd h (r.not_probeTaken_of_report now hc)
    · push Not at hc
      obtain ⟨name, rfl⟩ := hc
      rcases r.probeTaken_of_allowRequest now h with ha | ht
      · exact Or.inr ⟨rfl, ha⟩
      · exact Or.inl ⟨ht, fun _ => rfl⟩
  · refine Or.inl ⟨?_, fun he => absurd he.symm hne⟩
    rwa [Registry.ProbeTaken, r.get_call_of_ne now c hne] at h

/-! ## Only the first command asks for the slot -/

/-- Not an `allow_request`. -/
def Cmd.AsksNothing (c : Cmd) : Prop := ∀ name, c ≠ .breaker (.allowRequest name)

/-- Neither an `allow_request` nor a `record_success`. -/
def Cmd.IsQuiet (c : Cmd) : Prop := c.AsksNothing ∧ ∀ name, c ≠ .breaker (.recordSuccess name)

section

variable {call : ResilientCall} {k : Nat}

theorem isQuiet_of_isAside {c : Cmd} (h : c.isAside) : c.IsQuiet := by
  refine ⟨?_, ?_⟩ <;> rintro name rfl <;> exact h

/-- What goes on around an attempt is quiet. -/
theorem quiet_of_aside {α : Type} {p : Gw α} (h : Prog.Only Cmd.isAside p) :
    Prog.Only Cmd.IsQuiet p :=
  h.imp fun _ => isQuiet_of_isAside

theorem only_retryOrRaise {sleeper : ℚ → Gw Unit} {exc : ProviderError}
    (hsl : ∀ d, Prog.Only Cmd.IsQuiet (sleeper d)) :
    Prog.Only Cmd.IsQuiet (retryOrRaise call sleeper k exc) := by
  unfold retryOrRaise
  split
  · exact (quiet_of_aside only_recordTerminalFailure).bind fun _ => trivial
  · refine (quiet_of_aside only_retryDelay).bind fun delay => ?_
    refine Prog.Only.bind ((quiet_of_aside only_ensureDelayFitsBudget).catch fun _ => ?_)
      fun _ => ?_
    · exact (quiet_of_aside only_recordTerminalFailure).bind fun _ => trivial
    · refine Prog.Only.bind (Prog.only_perform.mpr ?_) fun _ => hsl delay
      simp [Cmd.IsQuiet, Cmd.AsksNothing]

/-- The loop adds nothing loud to what its attempts send. -/
theorem only_attempts {α : Type} {P : Cmd → Prop} {sleeper : ℚ → Gw Unit} {body : Nat → Gw α}
    {exhausted : Option ProviderError → Gw α} (hquiet : ∀ c, c.IsQuiet → P c)
    (hsl : ∀ d, Prog.Only Cmd.IsQuiet (sleeper d)) (hbody : ∀ k, Prog.Only P (body k))
    (hexhausted : ∀ last, Prog.Only P (exhausted last)) (n : Nat)
    {last : Option ProviderError} :
    Prog.Only P (attempts call sleeper body exhausted n k last) := by
  induction n generalizing k last with
  | zero => exact hexhausted last
  | succ n ih =>
    refine Prog.Only.bind (Prog.Only.catch ((hbody k).bind fun _ => trivial) fun raised => ?_)
      fun result => ?_
    · split
      · trivial
      · exact ((only_retryOrRaise hsl).imp hquiet).bind fun _ => trivial
      · trivial
    · cases result with
      | ok result => trivial
      | error exc => exact ih

theorem only_callAttempt : Prog.Only Cmd.AsksNothing (callAttempt call k) := by
  have hstart : Prog.Only Cmd.AsksNothing (startAttempt call) :=
    only_startAttempt.imp fun _ h => (isQuiet_of_isAside h).1
  refine Prog.Only.bind (hstart.bind fun remaining => ?_) fun timeout => ?_
  · cases remaining <;> trivial
  · refine Prog.Only.bind (Prog.only_perform.mpr (by simp [Cmd.AsksNothing])) fun answer => ?_
    cases answer with
    | ok result =>
      exact Prog.Only.bind (Prog.only_perform.mpr (by simp [Cmd.AsksNothing])) fun _ => trivial
    | error exc => trivial

theorem only_openAttempt : Prog.Only Cmd.IsQuiet (openAttempt call k) := by
  refine (quiet_of_aside only_startAttempt).bind fun remaining => ?_
  refine Prog.Only.bind (Prog.only_perform.mpr (by simp [Cmd.IsQuiet, Cmd.AsksNothing]))
    fun opening => ?_
  split
  · trivial
  · exact (quiet_of_aside only_recordTerminalFailure).bind fun _ => trivial
  · trivial
  · trivial

end

/-- A resilient call asks for its slot once, to begin with, and for nothing else afterwards. -/
theorem call_eq (call : ResilientCall) : ∃ loop,
    callProviderWithResilience call = admitted call loop ∧ Prog.Only Cmd.AsksNothing loop := by
  refine ⟨_, rfl, only_attempts (fun _ h => h.1) (fun d => ?_) (fun k => only_callAttempt)
    (fun last => ?_) _⟩
  · exact Prog.only_perform.mpr (by simp [Cmd.IsQuiet, Cmd.AsksNothing])
  · refine Prog.Only.bind (Prog.only_perform.mpr (by simp [Cmd.AsksNothing])) fun _ => ?_
    cases last <;> trivial

/-- The stream does so too, and never reports a success. -/
theorem stream_eq (call : ResilientCall) : ∃ loop,
    openProviderStreamWithResilience call = admitted call loop ∧ Prog.Only Cmd.IsQuiet loop := by
  refine ⟨_, rfl, only_attempts (fun _ h => h) (fun d => ?_) (fun k => only_openAttempt)
    (fun last => ?_) _⟩
  · refine Prog.Only.bind (Prog.only_perform.mpr (by simp [Cmd.IsQuiet, Cmd.AsksNothing]))
      fun slept => ?_
    cases slept <;> trivial
  · refine Prog.Only.bind (Prog.only_perform.mpr (by simp [Cmd.IsQuiet, Cmd.AsksNothing]))
      fun _ => ?_
    cases last <;> trivial

theorem Request.program_eq (request : Request) : ∃ rest,
    request.program = .cmd (.breaker (.allowRequest request.args.name)) (Prog.onReply rest) ∧
      ∀ allowed, Prog.Only Cmd.AsksNothing (rest allowed) := by
  have hadmitted {α : Type} {c : ResilientCall} {loop : Gw α} {b : Bool}
      (hloop : Prog.Only Cmd.AsksNothing loop) : ∃ rest,
      (admitted c loop >>= fun _ => (pure b : Gw Bool)) =
          .cmd (.breaker (.allowRequest c.name)) (Prog.onReply rest) ∧
        ∀ allowed, Prog.Only Cmd.AsksNothing (rest allowed) := by
    simp only [admitted, Prog.perform_bind, Prog.cmd_bind, Prog.onReply_bind]
    refine ⟨_, rfl, fun allowed => Prog.Only.bind ?_ fun _ => trivial⟩
    split
    · exact hloop
    · trivial
  cases request with
  | call c =>
    obtain ⟨loop, heq, hloop⟩ := call_eq c
    rw [program, heq]
    exact hadmitted hloop
  | stream c =>
    obtain ⟨loop, heq, hloop⟩ := stream_eq c
    rw [program, heq]
    exact hadmitted (hloop.imp fun _ h => h.1)

/-! ## The slot is always somebody's -/

/-- What each request has done so far leads to what it has left, and a taken slot was given to a
request that has not reported since. -/
structure Requests.Inv (requests : ι → Request) (w : Requests ι) : Prop where
  fresh : ∀ i, w.threads i = (requests i).program ∧ w.shared.events i = [] ∨
    Prog.Only Cmd.AsksNothing (w.threads i)
  follows : ∀ i es o, Prog.Emits (w.threads i) es o →
    Prog.Emits (requests i).program (w.shared.events i ++ es) o
  slot : ∀ name, w.shared.registry.ProbeTaken name → ∃ i, (requests i).args.name = name ∧
    Admitted (requests i).args (w.shared.events i) ∧ reports name (w.shared.events i) = 0

theorem Requests.Inv.start (defaults : BreakerConfig) (requests : ι → Request) :
    (Requests.start defaults requests).Inv requests where
  fresh _ := Or.inl ⟨rfl, rfl⟩
  follows _ _ _ h := h
  slot name := by
    rintro ⟨hs, -⟩
    simp [Requests.start, Registry.get, Registry.new, ProviderBreaker.new] at hs

section

variable [DecidableEq ι] {requests : ι → Request} {w w' : Requests ι} {l : ι × Cmd}

/-- What the registry is left as, whatever the command. -/
theorem answers_registry {i : ι} {h h' : Host ι} {c : Cmd} {x : c.Reply}
    (ha : answers i h c x h') :
    h'.registry = h.registry ∧ (∀ name, c.isReport name = false) ∨ ∃ call now, c = .breaker call ∧
      h'.registry = h.registry.call now call ∧
      ∀ name, call = .allowRequest name → (h.registry.allowRequest name now).1 = true →
        (⟨c, x⟩ : Event) = ⟨.breaker (.allowRequest name), true⟩ := by
  obtain ⟨-, ha⟩ := ha
  cases c with
  | breaker call =>
    cases call with
    | allowRequest name =>
      obtain ⟨now, hx, hr⟩ := ha
      refine Or.inr ⟨_, now, rfl, hr, fun _ he hallow => ?_⟩
      cases he
      rw [hx, hallow]
    | recordSuccess name =>
      obtain ⟨now, hr⟩ := ha
      exact Or.inr ⟨_, now, rfl, hr, fun _ he => by cases he⟩
    | recordFailure name =>
      obtain ⟨now, hr⟩ := ha
      exact Or.inr ⟨_, now, rfl, hr, fun _ he => by cases he⟩
    | recordCancelled name =>
      obtain ⟨now, hr⟩ := ha
      exact Or.inr ⟨_, now, rfl, hr, fun _ he => by cases he⟩
  | clock | providerCall | openStream | uniform | utcNow | recordProviderRetry | sleep
  | asyncSleep => exact Or.inl ⟨ha, fun _ => rfl⟩

theorem reports_of_not_isReport {name : String} {es : List Event} {e : Event}
    (h : e.1.isReport name = false) : reports name (es ++ [e]) = reports name es := by
  rw [reports_append]
  simp [reports, h]

theorem Cmd.isReport_breaker {call : Call} {name : String}
    (h : call.name = name → call = .allowRequest name) :
    (Cmd.breaker call).isReport name = false := by
  cases call with
  | allowRequest n => rfl
  | recordSuccess n | recordFailure n | recordCancelled n =>
    have hne : n ≠ name := fun he => by cases h he
    simpa [Cmd.isReport] using hne

theorem Requests.Inv.step (hst : Requests.step w l w') (hw : w.Inv requests) :
    w'.Inv requests := by
  obtain ⟨i, c⟩ := l
  cases hst with
  | @run _ _ k v s next does =>
  obtain ⟨x, rfl, ha⟩ := does
  have hevents : s.events = Function.update w.shared.events i (w.shared.events i ++ [⟨c, x⟩]) :=
    ha.1
  have hself : s.events i = w.shared.events i ++ [⟨c, x⟩] := by
    rw [hevents, Function.update_self]
  have hother : ∀ j, j ≠ i → s.events j = w.shared.events j := fun j hj => by
    rw [hevents, Function.update_of_ne hj]
  refine ⟨fun j => ?_, fun j es o h => ?_, fun name htaken => ?_⟩
  · dsimp only
    rcases eq_or_ne j i with rfl | hj
    · refine Or.inr ?_
      rw [Function.update_self]
      rcases hw.fresh j with ⟨hp, -⟩ | honly
      · obtain ⟨rest, hprog, hrest⟩ := (requests j).program_eq
        rw [next, hprog] at hp
        cases hp
        exact hrest x
      · rw [next] at honly
        exact honly.2 _
    · rw [hother j hj, Function.update_of_ne hj]
      exact hw.fresh j
  · dsimp only at h ⊢
    rcases eq_or_ne j i with rfl | hj
    · rw [Function.update_self] at h
      rw [hself, List.append_assoc]
      refine hw.follows j _ _ ?_
      rw [next]
      exact ⟨x, es, rfl, h⟩
    · rw [Function.update_of_ne hj] at h
      rw [hother j hj]
      exact hw.follows j es o h
  · dsimp only at htaken ⊢
    -- a slot taken before is still its holder's, if this step is no report to `name`
    have hkeep (hr : w.shared.registry.ProbeTaken name) (hc : c.isReport name = false) :
        ∃ i, (requests i).args.name = name ∧ Admitted (requests i).args (s.events i) ∧
          reports name (s.events i) = 0 := by
      obtain ⟨j, hname, ⟨es, hes⟩, hnone⟩ := hw.slot name hr
      refine ⟨j, hname, ?_⟩
      rcases eq_or_ne j i with rfl | hj
      · rw [hself, reports_of_not_isReport hc]
        exact ⟨⟨es ++ [⟨c, x⟩], by rw [hes, List.cons_append]⟩, hnone⟩
      · rw [hother j hj]
        exact ⟨⟨es, hes⟩, hnone⟩
    rcases answers_registry ha with ⟨hreg, hc⟩ | ⟨call, now, rfl, hreg, hallowed⟩
    · rw [hreg] at htaken
      exact hkeep htaken (hc name)
    · rw [hreg] at htaken
      rcases Registry.probeTaken_of_call _ now call htaken with ⟨hr, hc⟩ | ⟨rfl, hallow⟩
      · exact hkeep hr (Cmd.isReport_breaker hc)
      · -- this request has just been given the slot
        refine ⟨i, ?_⟩
        rcases hw.fresh i with ⟨hp, hnil⟩ | honly
        · obtain ⟨rest, hprog, -⟩ := (requests i).program_eq
          rw [next, hprog] at hp
          cases hp
          rw [hself, hnil, List.nil_append, hallowed _ rfl hallow]
          exact ⟨rfl, ⟨[], rfl⟩, rfl⟩
        · rw [next] at honly
          exact absurd rfl (honly.1 name)

theorem Requests.Inv.run {defaults : BreakerConfig}
    {ts : List (Requests ι × (ι × Cmd) × Requests ι)}
    (h : Run Requests.step (Requests.start defaults requests) ts w) : w.Inv requests :=
  h.invariant (.start defaults requests) fun _ _ _ hw hst => hw.step hst

end

/-! ## Every admitted call reports once -/

/-- The request has begun and is not over, or has handed out a stream. -/
def Requests.InFlight (w : Requests ι) (i : ι) : Prop :=
  w.shared.events i ≠ [] ∧ w.threads i ≠ .ret false ∧ ∀ r, w.threads i ≠ .raise r

/-- A request that kept to its schedule and is over has reported. -/
theorem Request.reports_of_emits {request : Request} {es : List Event} {o : Except Raised Bool}
    (h : Prog.Emits request.program es o) (hover : o ≠ .ok true) (ha : Admitted request.args es)
    (hok : OnSchedule request.args 0 es) : reports request.args.name es = 1 := by
  cases request with
  | call c =>
    rcases Prog.emits_bind.mp h with ⟨es₁, _, result, rfl, hc, rfl, -⟩ | ⟨e, hc, -⟩
    · rw [List.append_nil] at ha hok ⊢
      exact (call_reports_once hc ha).mpr hok
    · exact (call_reports_once hc ha).mpr hok
  | stream c =>
    rcases Prog.emits_bind.mp h with ⟨_, _, _, _, _, _, ho⟩ | ⟨e, hc, -⟩
    · exact absurd ho hover
    · exact (stream_reports_once hc ha).mpr hok

/-- Nobody is in flight, so nobody holds a slot. -/
theorem Requests.Inv.not_probeTaken {requests : ι → Request} {w : Requests ι}
    (hw : w.Inv requests) (hover : ∀ i, ¬ w.InFlight i)
    (hok : ∀ i, OnSchedule (requests i).args 0 (w.shared.events i)) (name : String) :
    ¬ w.shared.registry.ProbeTaken name := by
  intro htaken
  obtain ⟨i, rfl, ha, hnone⟩ := hw.slot name htaken
  have hbegun : w.shared.events i ≠ [] := by
    obtain ⟨es, hes⟩ := ha
    rw [hes]
    exact List.cons_ne_nil _ _
  have hend : ∃ o, Prog.Emits (w.threads i) [] o ∧ o ≠ .ok true := by
    by_contra hend
    push Not at hend
    refine hover i ⟨hbegun, fun hret => ?_, fun r hraise => ?_⟩
    · exact absurd (hend (.ok false) (by simp [hret])) (by simp)
    · exact absurd (hend (.error r) (by simp [hraise])) (by simp)
  obtain ⟨o, ho, hne⟩ := hend
  have hfollows := hw.follows i [] o ho
  rw [List.append_nil] at hfollows
  have hone := Request.reports_of_emits hfollows hne ha (hok i)
  omega

/-- **Every admitted call that keeps to its schedule reports once, and no other does.** And where
all calls kept to theirs, no half-open breaker is left with its slot taken once nothing is in
flight. -/
theorem reports_once (call : ResilientCall) :
    (∀ es o, Prog.Emits (callProviderWithResilience call) es o → Admitted call es →
      (reports call.name es = 1 ↔ OnSchedule call 0 es)) ∧
    (∀ es o, Prog.Emits (openProviderStreamWithResilience call) es o → Admitted call es →
      (reports call.name es = owed 0 o ↔ OnSchedule call 0 es) ∧
        ∀ e ∈ es, ∀ name, e.1 ≠ .breaker (.recordSuccess name)) ∧
    ∀ (ι : Type) [DecidableEq ι] (defaults : BreakerConfig) (requests : ι → Request) ts w,
      Run Requests.step (Requests.start defaults requests) ts w → (∀ i, ¬ w.InFlight i) →
        (∀ i, OnSchedule (requests i).args 0 (w.shared.events i)) →
          ∀ name, ¬ w.shared.registry.ProbeTaken name := by
  refine ⟨fun es o h ha => call_reports_once h ha, fun es o h ha =>
    ⟨stream_reports_once h ha, ?_⟩, fun ι _ defaults requests ts w hrun hover hok =>
    (Requests.Inv.run hrun).not_probeTaken hover hok⟩
  obtain ⟨loop, heq, hquiet⟩ := stream_eq call
  rw [heq] at h
  obtain ⟨es', rfl, hloop⟩ := emits_admitted h ha
  refine List.forall_mem_cons.mpr ⟨by simp, fun e he name => ?_⟩
  exact (hquiet.emits hloop e he).2 name

/-- One attempt, with the given deadline. -/
def oneAttempt (deadline : Option ℚ) : ResilientCall where
  name := "mock-a"
  timeoutS := 5
  maxRetries := 0
  baseDelayS := 1 / 10
  maxBackoffS := 2
  deadline := deadline

/-- A call that succeeds at once. -/
theorem reports_once_success :
    reports "mock-a" [⟨.breaker (.allowRequest "mock-a"), true⟩,
      ⟨.providerCall 5, .ok ⟨"answer", 1, 0⟩⟩, ⟨.breaker (.recordSuccess "mock-a"), ()⟩] = 1 := by
  refine ((reports_once (oneAttempt none)).1 _ (.ok ⟨"answer", 1, 0⟩) ?_ ⟨_, rfl⟩).mpr ⟨?_, ?_, ?_⟩
  · exact ⟨true, _, rfl, _, _, rfl, (), _, rfl, rfl, rfl⟩
  · simp [oneAttempt]
  · simp [oneAttempt]
  · simp [isCancelledAwait]

/-- **An attempt that starts at the deadline reports nothing.** The breaker lets the call in, the
budget check raises, and neither handler tells the breaker. -/
theorem late_start_reports_nothing : ∃ es o,
    Prog.Emits (callProviderWithResilience (oneAttempt (some 0))) es o ∧
      Admitted (oneAttempt (some 0)) es ∧ reports "mock-a" es = 0 := by
  refine ⟨[⟨.breaker (.allowRequest "mock-a"), true⟩, ⟨.clock, (0 : ℚ)⟩],
    .error (budgetExceeded "mock-a"), ?_, ⟨_, rfl⟩, rfl⟩
  simp [callProviderWithResilience, admitted, oneAttempt, attempts, runAttempt, callAttempt,
    attemptTimeout, startAttempt, remainingSeconds, budgetExceeded, Raised.attachRetryCount]

end PolyGate.Gateway
