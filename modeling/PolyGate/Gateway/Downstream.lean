import PolyGate.Gateway.Failover
import PolyGate.Gateway.Sse

/-!
# `Gateway/Downstream.lean` — the generator that relays a stream

`downstream` of `_stream_response` in `gateway/app/main.py`. It is a program over what it awaits,
what it yields and what it tells the breaker, the metrics and the decision store. The upstream is
given as the events it sends and the way it ends; everything else is an answer to a command: at an
await the task may be cancelled, at a `yield` the generator may be closed.

`finally` is what comes after the loop, whichever way the loop was left (`settle`). A generator
that is discarded before its first event is asked for does nothing at all (`Lifetime`).

The log lines and the durations given to the metrics are left out.
-/

namespace PolyGate.Gateway.Downstream

open Lib

/-! ## The outside -/

/-- What `anext(events)` comes to when it is waited for. -/
inductive Pulled
  | event (event : SseEvent)
  | ended
  | raised
  deriving DecidableEq

/-- How the upstream ends. -/
inductive Ending | finished | raised
  deriving DecidableEq

inductive Waited | came | cancelled
  deriving DecidableEq

/-- `await request.is_disconnected()` -/
inductive Disconnected | no | yes | cancelled
  deriving DecidableEq

/-- What a `yield` comes back with; `closed` is a `GeneratorExit`. -/
inductive Resumed | resumed | closed
  deriving DecidableEq

/-- `await opened.aclose()`; what it raises is an `Exception` unless it is cancelled. -/
inductive Closing | returned | raised | cancelled
  deriving DecidableEq

inductive Saving | returned | raised
  deriving DecidableEq

inductive Counter
  | tokens (provider direction : String)
  | estimatedCost (provider : String)
  deriving DecidableEq

inductive Cmd
  | nextEvent (pulled : Pulled)
  | isDisconnected
  | yieldEvent (event : SseEvent)
  | aclose
  | breaker (c : Call)
  | recordProvider (name outcome : String)
  | inc (counter : Counter) (amount : ℚ)
  | recordRequest (outcome : String)
  | recordStream (outcome : String)
  /-- `int((time.perf_counter() - started) * 1000)` -/
  | latencyMs
  /-- `datetime.now(UTC)` -/
  | utcNow
  | saveDecision (record : DecisionRecord)

@[reducible] def Cmd.Reply : Cmd → Type
  | .nextEvent _ => Waited
  | .isDisconnected => Disconnected
  | .yieldEvent _ => Resumed
  | .aclose => Closing
  | .breaker _ | .recordProvider _ _ | .inc _ _ | .recordRequest _ | .recordStream _ => Unit
  | .latencyMs => Int
  | .utcNow => Time
  | .saveDecision _ => Saving

/-- What is raised in the generator. -/
inductive Exc
  | upstream
  | invalid (e : StreamExc)
  | overflowError
  | valueError
  | store
  | cancelledError
  | generatorExit
  deriving DecidableEq

/-- `isinstance(e, Exception)` -/
def Exc.isException : Exc → Bool
  | .cancelledError | .generatorExit => false
  | _ => true

abbrev Gw (α : Type) := Prog Cmd Cmd.Reply Exc α

abbrev Event := Prog.Event Cmd Cmd.Reply

/-- What the generator has of `_stream_response`. -/
structure Stream where
  served : Failover.Served OpenedEvents
  ending : Ending
  retries : Nat
  includeUsage : Bool
  requestId : String
  ttl : TtlSeconds

/-- `(req.stream_options or {}).get("include_usage") is True` -/
def includeUsage (req : GatewayRequest) : Bool :=
  match req.streamOptions.bind fun options => Obj.get? options "include_usage" with
  | some (.bool true) => true
  | _ => false

namespace Stream

variable (s : Stream)

/-- The name of the provider. -/
def name : String := s.served.chosen.name

/-- `_with_first(opened.first_event, opened.remaining_events)` -/
def events : List SseEvent := s.served.result.firstEvent :: s.served.result.remainingEvents

/-- `tried_names[0]` -/
def initialProvider : String := s.served.triedNames.head?.getD s.name

end Stream

/-! ## The outcome -/

/-- `outcome` -/
inductive Outcome | success | partialError | cancelled
  deriving DecidableEq

namespace Outcome

def value : Outcome → String
  | .success => "success"
  | .partialError => "partial_error"
  | .cancelled => "cancelled"

/-- `provider_outcome` -/
def provider : Outcome → String
  | .success => "success"
  | .partialError => "error"
  | .cancelled => "cancelled"

def decision : Outcome → DecisionOutcome
  | .success => .success
  | .partialError => .partialError
  | .cancelled => .cancelled

/-- What the breaker is told. -/
def call (name : String) : Outcome → Call
  | .success => .recordSuccess name
  | .partialError => .recordFailure name
  | .cancelled => .recordCancelled name

end Outcome

/-- How the loop is left. -/
inductive LoopEnd
  /-- the `else` of the loop -/
  | exhausted
  /-- the `break` -/
  | disconnected
  | raised (e : Exc)
  deriving DecidableEq

/-- The outcome after the loop and the `except` clauses; it is "partial_error" to begin with. -/
def outcomeOf (o : Observation) : LoopEnd → Outcome
  | .exhausted => if o.complete then .success else .partialError
  | .disconnected | .raised .cancelledError => .cancelled
  | .raised _ => .partialError

/-! ## The loop -/

/-- `include_usage or not _is_usage_only_event(event)` -/
def shown (includeUsage : Bool) (event : SseEvent) : Except StreamExc Bool :=
  if includeUsage then .ok true else (isUsageOnlyEvent event).map (!·)

/-- `async for event in events`, with what has been observed. -/
def relay (s : Stream) : List SseEvent → Observation → Gw (Observation × LoopEnd)
  | [], o =>
    match s.ending with
    | .finished => do
      match ← Prog.perform (Cmd.nextEvent .ended) with
      | .cancelled => return (o, .raised .cancelledError)
      | .came => return (o, .exhausted)
    | .raised => do
      match ← Prog.perform (Cmd.nextEvent .raised) with
      | .cancelled => return (o, .raised .cancelledError)
      | .came => return (o, .raised .upstream)
  | event :: events, o => do
    match ← Prog.perform (Cmd.nextEvent (.event event)) with
    | .cancelled => return (o, .raised .cancelledError)
    | .came =>
      match ← Prog.perform Cmd.isDisconnected with
      | .cancelled => return (o, .raised .cancelledError)
      | .yes => return (o, .disconnected)
      | .no =>
        match o.consume event with
        | (o, some e) => return (o, .raised (.invalid e))
        | (o, none) =>
          match shown s.includeUsage event with
          | .error e => return (o, .raised (.invalid e))
          | .ok false => relay s events o
          | .ok true =>
            match ← Prog.perform (Cmd.yieldEvent event) with
            | .closed => return (o, .raised .generatorExit)
            | .resumed => relay s events o

/-! ## What is recorded -/

/-- `float(n)` does not overflow: rounded to 53 bits, `n` is below `2 ** 1024`. -/
@[irreducible] def fitsFloat (n : Int) : Bool := n.natAbs < 2 ^ 1024 - 2 ^ 970

/-- `estimate_cost`, in which both counts are converted to `float`. -/
def costOf (provider : Provider) (inputTokens outputTokens : Int) : Except Exc ℚ :=
  if fitsFloat inputTokens && fitsFloat outputTokens then
    .ok (estimateCost provider inputTokens outputTokens)
  else .error .overflowError

/-- `Counter.inc` -/
def inc (counter : Counter) (amount : ℚ) : Gw Unit :=
  if amount < 0 then throw .valueError else Prog.perform (Cmd.inc counter amount)

/-- `record_usage` -/
def recordUsage (provider : String) (inputTokens outputTokens : Int) (estimatedCostUsd : ℚ) :
    Gw Unit := do
  inc (.tokens provider "input") inputTokens
  inc (.tokens provider "output") outputTokens
  inc (.estimatedCost provider) estimatedCostUsd

/-- `Tokens(input=…, output=…)` -/
def tokensOf (inputTokens outputTokens : Int) : Except Exc Tokens :=
  if 0 ≤ inputTokens ∧ 0 ≤ outputTokens then .ok ⟨inputTokens.toNat, outputTokens.toNat⟩
  else .error .valueError

/-- `_save_decision(_decision_record(…))` -/
def saveDecision (ttl : TtlSeconds) (card : DecisionCard) (outcome : DecisionOutcome)
    (initialProvider : String) (stream : Bool) (failoverCount : Int) : Gw Unit := do
  let now : Time ← Prog.perform Cmd.utcNow
  let record := decisionRecord ttl card outcome initialProvider stream failoverCount now
  match record.validateFailoverFields with
  | .error _ => throw .valueError
  | .ok () =>
    if record.costEstimateUsd < 0 then throw .valueError
    else match ← Prog.perform (Cmd.saveDecision record) with
      | .returned => return ()
      | .raised => throw .store

/-- The part of `finally` up to `record_request`. -/
def account (s : Stream) (o : Observation) (outcome : Outcome) : Gw ℚ := do
  Prog.perform (Cmd.recordProvider s.name outcome.provider)
  let cost ← Prog.ofOutcome (costOf s.served.chosen o.inputTokens o.outputTokens)
  if outcome = .success then recordUsage s.name o.inputTokens o.outputTokens cost
  Prog.perform (Cmd.recordRequest outcome.value)
  return cost

/-- The part of `finally` after `record_request`. -/
def recordDecision (s : Stream) (o : Observation) (outcome : Outcome) (cost : ℚ) : Gw Unit := do
  Prog.perform (Cmd.recordStream outcome.value)
  let latencyMs : Int ← Prog.perform Cmd.latencyMs
  let tokens ← Prog.ofOutcome (tokensOf o.inputTokens o.outputTokens)
  saveDecision s.ttl (s.served.card cost latencyMs tokens s.requestId s.retries) outcome.decision
    s.initialProvider true s.served.failoverCount

/-- The `finally` clause. -/
def settle (s : Stream) (o : Observation) (outcome : Outcome) : Gw Unit := do
  -- `contextlib.suppress(Exception)` lets a cancellation pass
  if (← Prog.perform Cmd.aclose) = .cancelled then throw .cancelledError
  Prog.perform (Cmd.breaker (outcome.call s.name))
  let cost ← account s o outcome
  recordDecision s o outcome cost

/-- What goes on after `finally`. -/
def LoopEnd.reraise : LoopEnd → Gw Unit
  | .raised e => if e.isException then return () else throw e
  | .exhausted | .disconnected => return ()

def downstream (s : Stream) : Gw Unit := do
  let (o, loopEnd) ← relay s s.events .new
  settle s o (outcomeOf o loopEnd)
  loopEnd.reraise

/-- What is seen of the generator, from its creation until it has ended, has been closed or has
been discarded. -/
inductive Lifetime (s : Stream) : List Event → Prop
  | discarded : Lifetime s []
  | ran {es : List Event} {o : Except Exc Unit} (h : Prog.Emits (downstream s) es o) : Lifetime s es

/-! ## Consumed events -/

/-- A value that is consumed is no reason for a `ValueError`. -/
theorem chunksOf_of_consumeAll {o o' : Observation} {values : List PyStr}
    (h : o.consumeAll values = (o', none)) : ∃ chunks, chunksOf values = .ok chunks := by
  induction values generalizing o with
  | nil => exact ⟨some [], rfl⟩
  | cons data values ih =>
    unfold chunksOf
    by_cases hmark : data = [] ∨ data = doneMark
    · exact ⟨none, if_pos hmark⟩
    · rw [if_neg hmark]
      unfold Observation.consumeAll Observation.consumeData at h
      rw [if_neg fun hd => hmark (Or.inr hd)] at h
      cases hl : loads data with
      | error e =>
        cases e with
        | jsonDecodeError => exact ⟨none, rfl⟩
        | valueError =>
          rw [hl] at h
          cases h
      | ok v =>
        cases v with
        | obj chunk =>
          rw [hl] at h
          split at h
          · obtain ⟨chunks, hchunks⟩ := ih h
            rw [hchunks]
            exact ⟨_, rfl⟩
          · cases h
        | _ => exact ⟨none, rfl⟩

/-- An event that is consumed is shown or hidden. -/
theorem shown_of_consume (includeUsage : Bool) {o o' : Observation} {event : SseEvent}
    (h : o.consume event = (o', none)) : ∃ b, shown includeUsage event = .ok b := by
  unfold shown isUsageOnlyEvent
  split
  · exact ⟨true, rfl⟩
  · obtain ⟨chunks, hchunks⟩ := chunksOf_of_consumeAll h
    rw [hchunks]
    exact ⟨_, rfl⟩

/-! ## What is seen of the loop -/

/-- What is next. -/
def Stream.pulled (s : Stream) : List SseEvent → Pulled
  | event :: _ => .event event
  | [] => match s.ending with
    | .finished => .ended
    | .raised => .raised

/-- The loop over `events`, from an observation: what is seen of it, and how it is left. -/
inductive Relays (s : Stream) :
    List SseEvent → Observation → List Event → Observation × LoopEnd → Prop
  | waiting {events : List SseEvent} {o : Observation} :
      Relays s events o [⟨.nextEvent (s.pulled events), .cancelled⟩] (o, .raised .cancelledError)
  | exhausted {o : Observation} (finished : s.ending = .finished) :
      Relays s [] o [⟨.nextEvent .ended, .came⟩] (o, .exhausted)
  | failed {o : Observation} (raised : s.ending = .raised) :
      Relays s [] o [⟨.nextEvent .raised, .came⟩] (o, .raised .upstream)
  | asking {event : SseEvent} {events : List SseEvent} {o : Observation} :
      Relays s (event :: events) o
        [⟨.nextEvent (.event event), .came⟩, ⟨.isDisconnected, .cancelled⟩]
          (o, .raised .cancelledError)
  | left {event : SseEvent} {events : List SseEvent} {o : Observation} :
      Relays s (event :: events) o [⟨.nextEvent (.event event), .came⟩, ⟨.isDisconnected, .yes⟩]
        (o, .disconnected)
  | invalid {event : SseEvent} {events : List SseEvent} {o o' : Observation} {e : StreamExc}
      (raises : o.consume event = (o', some e)) :
      Relays s (event :: events) o [⟨.nextEvent (.event event), .came⟩, ⟨.isDisconnected, .no⟩]
        (o', .raised (.invalid e))
  | hidden {event : SseEvent} {events : List SseEvent} {o o' : Observation} {es : List Event}
      {r : Observation × LoopEnd} (consumed : o.consume event = (o', none))
      (hides : shown s.includeUsage event = .ok false) (rest : Relays s events o' es r) :
      Relays s (event :: events) o
        (⟨.nextEvent (.event event), .came⟩ :: ⟨.isDisconnected, .no⟩ :: es) r
  | closed {event : SseEvent} {events : List SseEvent} {o o' : Observation}
      (consumed : o.consume event = (o', none)) (shows : shown s.includeUsage event = .ok true) :
      Relays s (event :: events) o [⟨.nextEvent (.event event), .came⟩, ⟨.isDisconnected, .no⟩,
        ⟨.yieldEvent event, .closed⟩] (o', .raised .generatorExit)
  | yielded {event : SseEvent} {events : List SseEvent} {o o' : Observation} {es : List Event}
      {r : Observation × LoopEnd} (consumed : o.consume event = (o', none))
      (shows : shown s.includeUsage event = .ok true) (rest : Relays s events o' es r) :
      Relays s (event :: events) o (⟨.nextEvent (.event event), .came⟩ ::
        ⟨.isDisconnected, .no⟩ :: ⟨.yieldEvent event, .resumed⟩ :: es) r

section
variable {s : Stream}

theorem relays_nil {o : Observation} {es : List Event} {r : Except Exc (Observation × LoopEnd)}
    (h : Prog.Emits (relay s [] o) es r) : ∃ x, r = .ok x ∧ Relays s [] o es x := by
  unfold relay at h
  cases hending : s.ending with
  | finished =>
    have hpulled : s.pulled [] = .ended := by rw [Stream.pulled, hending]
    simp only [hending, Prog.perform_bind, Prog.emits_cmd, Prog.onReply_ok] at h
    obtain ⟨waited, es, rfl, h⟩ := h
    cases waited with
    | came =>
      obtain ⟨rfl, rfl⟩ := h
      exact ⟨_, rfl, .exhausted hending⟩
    | cancelled =>
      obtain ⟨rfl, rfl⟩ := h
      exact ⟨_, rfl, hpulled ▸ .waiting⟩
  | raised =>
    have hpulled : s.pulled [] = .raised := by rw [Stream.pulled, hending]
    simp only [hending, Prog.perform_bind, Prog.emits_cmd, Prog.onReply_ok] at h
    obtain ⟨waited, es, rfl, h⟩ := h
    cases waited with
    | came =>
      obtain ⟨rfl, rfl⟩ := h
      exact ⟨_, rfl, .failed hending⟩
    | cancelled =>
      obtain ⟨rfl, rfl⟩ := h
      exact ⟨_, rfl, hpulled ▸ .waiting⟩

theorem relays_relay {events : List SseEvent} {o : Observation} {es : List Event}
    {r : Except Exc (Observation × LoopEnd)} (h : Prog.Emits (relay s events o) es r) :
    ∃ x, r = .ok x ∧ Relays s events o es x := by
  induction events generalizing o es with
  | nil => exact relays_nil h
  | cons event events ih =>
    simp only [relay, Prog.perform_bind, Prog.emits_cmd, Prog.onReply_ok] at h
    obtain ⟨waited, es, rfl, h⟩ := h
    cases waited with
    | cancelled =>
      obtain ⟨rfl, rfl⟩ := h
      exact ⟨_, rfl, .waiting⟩
    | came =>
      obtain ⟨disconnected, es, rfl, h⟩ := h
      cases disconnected with
      | cancelled =>
        obtain ⟨rfl, rfl⟩ := h
        exact ⟨_, rfl, .asking⟩
      | yes =>
        obtain ⟨rfl, rfl⟩ := h
        exact ⟨_, rfl, .left⟩
      | no =>
        obtain ⟨o', e, hconsume⟩ : ∃ o' e, o.consume event = (o', e) := ⟨_, _, rfl⟩
        cases e with
        | some e =>
          simp only [hconsume] at h
          obtain ⟨rfl, rfl⟩ := h
          exact ⟨_, rfl, .invalid hconsume⟩
        | none =>
          obtain ⟨b, hb⟩ := shown_of_consume s.includeUsage hconsume
          simp only [hconsume, hb] at h
          cases b with
          | false =>
            obtain ⟨x, rfl, hx⟩ := ih h
            exact ⟨x, rfl, .hidden hconsume hb hx⟩
          | true =>
            obtain ⟨answer, es, rfl, h⟩ := h
            cases answer with
            | closed =>
              obtain ⟨rfl, rfl⟩ := h
              exact ⟨_, rfl, .closed hconsume hb⟩
            | resumed =>
              obtain ⟨x, rfl, hx⟩ := ih h
              exact ⟨x, rfl, .yielded hconsume hb hx⟩

end

/-! ## What is seen of `finally` -/

/-- The commands that record what has been. -/
def Cmd.isRecord : Cmd → Bool
  | .nextEvent _ | .isDisconnected | .yieldEvent _ | .aclose | .breaker _ => false
  | _ => true

section
variable (s : Stream) (o : Observation) (outcome : Outcome)

theorem only_ofOutcome {α : Type} {P : Cmd → Prop} (x : Except Exc α) :
    Prog.Only P (Prog.ofOutcome x : Gw α) := by
  cases x <;> trivial

theorem only_inc (counter : Counter) (amount : ℚ) :
    Prog.Only (fun c => ∃ n, c = .inc counter n) (inc counter amount) := by
  unfold inc
  split
  · trivial
  · exact Prog.only_perform.mpr ⟨amount, rfl⟩

theorem only_recordUsage (provider : String) (inputTokens outputTokens : Int) (cost : ℚ) :
    Prog.Only (fun c => ∃ counter n, c = .inc counter n)
      (recordUsage provider inputTokens outputTokens cost) := by
  have hinc (counter : Counter) (amount : ℚ) :
      Prog.Only (fun c => ∃ counter n, c = .inc counter n) (inc counter amount) :=
    (only_inc counter amount).imp fun _ h => ⟨counter, h⟩
  exact (hinc _ _).bind fun _ => (hinc _ _).bind fun _ => hinc _ _

theorem only_saveDecision (ttl : TtlSeconds) (card : DecisionCard) (outcome : DecisionOutcome)
    (initialProvider : String) (stream : Bool) (failoverCount : Int) : Prog.Only
    (fun c => c.isRecord = true ∧ ∀ outcome, c ≠ .recordRequest outcome)
    (saveDecision ttl card outcome initialProvider stream failoverCount) := by
  refine Prog.only_perform_bind.mpr ⟨⟨rfl, nofun⟩, fun now => ?_⟩
  dsimp only
  split
  · trivial
  · split
    · trivial
    · refine Prog.only_perform_bind.mpr ⟨⟨rfl, nofun⟩, fun saved => ?_⟩
      cases saved <;> trivial

/-- After `record_request` come the other records. -/
theorem only_recordDecision (cost : ℚ) : Prog.Only
    (fun c => c.isRecord = true ∧ ∀ outcome, c ≠ .recordRequest outcome)
    (recordDecision s o outcome cost) := by
  refine Prog.only_perform_bind.mpr ⟨⟨rfl, nofun⟩, fun _ => ?_⟩
  refine Prog.only_perform_bind.mpr ⟨⟨rfl, nofun⟩, fun latencyMs => ?_⟩
  exact (only_ofOutcome _).bind fun tokens => only_saveDecision ..

theorem only_account : Prog.Only (fun c => c.isRecord = true) (account s o outcome) := by
  unfold account
  refine Prog.only_perform_bind.mpr ⟨rfl, fun _ => ?_⟩
  generalize costOf s.served.chosen o.inputTokens o.outputTokens = estimate
  refine (only_ofOutcome estimate).bind fun cost => ?_
  have hrequest : Prog.Only (fun c : Cmd => c.isRecord = true)
      (do Prog.perform (Cmd.recordRequest outcome.value); return cost : Gw ℚ) :=
    Prog.only_perform_bind.mpr ⟨rfl, fun _ => trivial⟩
  split
  · refine ((only_recordUsage _ _ _ _).imp fun c h => ?_).bind fun _ => hrequest
    obtain ⟨counter, n, rfl⟩ := h
    rfl
  · exact hrequest

variable {s o outcome}

/-- The records of a settled stream. -/
structure Recorded (s : Stream) (o : Observation) (outcome : Outcome) (es : List Event)
    (r : Except Exc Unit) : Prop where
  only : ∀ e ∈ es, e.1.isRecord = true
  emits : Prog.Emits (account s o outcome >>= recordDecision s o outcome) es r

/-- `finally` ends in a cancelled `aclose`, or tells the breaker the outcome and records it. -/
theorem emits_settle {es : List Event} {r : Except Exc Unit}
    (h : Prog.Emits (settle s o outcome) es r) :
    (es = [⟨.aclose, .cancelled⟩] ∧ r = .error .cancelledError) ∨
    ∃ closing rest, closing ≠ .cancelled ∧
      es = ⟨.aclose, closing⟩ :: ⟨.breaker (outcome.call s.name), ()⟩ :: rest ∧
      Recorded s o outcome rest r := by
  unfold settle at h
  simp only [Prog.perform_bind, Prog.emits_cmd, Prog.onReply_ok] at h
  obtain ⟨closing, es, rfl, h⟩ := h
  split at h
  · rename_i hcancelled
    obtain ⟨rfl, rfl⟩ := h
    exact Or.inl ⟨by rw [hcancelled], rfl⟩
  · rename_i hreturned
    obtain ⟨u, rest, rfl, h⟩ := h
    have honly : Prog.Only (fun c => c.isRecord = true)
        (account s o outcome >>= recordDecision s o outcome) :=
      (only_account s o outcome).bind fun cost =>
        (only_recordDecision s o outcome cost).imp fun _ h => h.1
    exact Or.inr ⟨closing, rest, hreturned, rfl, honly.emits h, h⟩

end

section
variable {s : Stream}

/-- The loop, then `finally`. -/
theorem emits_downstream {es : List Event} {r : Except Exc Unit}
    (h : Prog.Emits (downstream s) es r) : ∃ es₁ es₂ o loopEnd r', es = es₁ ++ es₂ ∧
      Relays s s.events .new es₁ (o, loopEnd) ∧
      Prog.Emits (settle s o (outcomeOf o loopEnd)) es₂ r' := by
  rcases Prog.emits_bind.mp h with ⟨es₁, es₂, ⟨o, loopEnd⟩, rfl, hrelay, h⟩ | ⟨e, hrelay, -⟩
  · obtain ⟨x, hx, hrelays⟩ := relays_relay hrelay
    cases hx
    rcases Prog.emits_bind.mp h with ⟨es₂, es₃, u, rfl, hsettle, h⟩ | ⟨e, hsettle, -⟩
    · have hnil : es₃ = [] := by
        unfold LoopEnd.reraise at h
        split at h
        · split at h <;> exact h.1
        all_goals exact h.1
      rw [hnil, List.append_nil]
      exact ⟨es₁, es₂, o, loopEnd, _, rfl, hrelays, hsettle⟩
    · exact ⟨es₁, es₂, o, loopEnd, _, rfl, hrelays, hsettle⟩
  · obtain ⟨x, hx, -⟩ := relays_relay hrelay
    cases hx

end

/-! ## A stream without trouble -/

/-- The answers when nothing goes wrong. -/
def undisturbed : (c : Cmd) → c.Reply
  | .nextEvent _ => Waited.came
  | .isDisconnected => Disconnected.no
  | .yieldEvent _ => Resumed.resumed
  | .aclose => Closing.returned
  | .breaker (.allowRequest _) | .breaker (.recordSuccess _) | .breaker (.recordFailure _)
  | .breaker (.recordCancelled _) | .recordProvider _ _ | .inc _ _ | .recordRequest _
  | .recordStream _ => ()
  | .latencyMs => 12
  | .utcNow => 0
  | .saveDecision _ => Saving.returned

theorem hour : 60 ≤ 3600 ∧ 3600 ≤ 86400 := by decide

/-- A stream of the provider that was asked for. -/
def forcedStream (name : String) (opened : OpenedEvents) (ending : Ending) : Stream where
  served := ⟨opened, ⟨name, none, none, none, none, none, none, none⟩, .forced name, [name]⟩
  ending := ending
  retries := 0
  includeUsage := false
  requestId := "req_0"
  ttl := ⟨3600, hour⟩

end PolyGate.Gateway.Downstream
