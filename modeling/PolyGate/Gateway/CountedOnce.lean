import PolyGate.Gateway.ChatCompletions
import PolyGate.Gateway.Settlement

/-!
# `Gateway/CountedOnce.lean` — which requests are counted once

The middleware counts a request whose response is an answer or an exception, and leaves a stream to
its generator, which counts in `finally`. The handler itself never counts, so a request is counted
at most once, and every answer is. A stream is counted when its generator gets as far as
`record_request`: not when it is discarded before its first event or cancelled while the upstream is
being closed, and not when the counts that the upstream reported raise in `estimate_cost` or
`record_usage`, which come first (`counted_once_iff`).
-/

namespace PolyGate.Gateway.ChatCompletions.CountedOnce

open Lib Downstream.Relay Downstream.Settlement

/-! ## Counting -/

def isRequest (e : Event) : Bool :=
  match e.1 with
  | .record (.recordRequest _) => true
  | _ => false

def isStreamRequest (e : Downstream.Event) : Bool :=
  match e.1 with
  | .recordRequest _ => true
  | _ => false

/-- How often `record_request` is called, by the middleware and by the generator. -/
def counted (es : List Event) (gen : List Downstream.Event) : Nat :=
  es.countP isRequest + gen.countP isStreamRequest

/-- There is a response, or an exception in its place. -/
def Finished : Except Exc Response → Prop
  | .error e => e.isException = true
  | .ok _ => True

/-- What is seen of the generator of the response, if it has one. -/
def Generated : Except Exc Response → List Downstream.Event → Prop
  | .ok (.stream s), gen => Downstream.Lifetime s gen
  | _, gen => gen = []

/-! ## What a stream needs -/

def isConnected (e : Downstream.Event) : Bool :=
  match e with
  | ⟨.isDisconnected, .no⟩ => true
  | _ => false

/-- The events that have been observed. -/
def consumed (gen : List Downstream.Event) : List SseEvent :=
  (received gen).take (gen.countP isConnected)

def observed (gen : List Downstream.Event) : Observation :=
  (consumeEvents .new (consumed gen)).1

/-- Both counts can be converted, and no amount of a success is negative. -/
structure Payable (s : Downstream.Stream) (o : Observation) (success : Prop) : Prop where
  input : Downstream.fitsFloat o.inputTokens = true
  output : Downstream.fitsFloat o.outputTokens = true
  amounts : success → 0 ≤ o.inputTokens ∧ 0 ≤ o.outputTokens ∧
    0 ≤ estimateCost s.served.chosen o.inputTokens o.outputTokens

/-- The first event was asked for, `aclose` was not cancelled, and what the upstream reported can be
accounted for. -/
structure Accountable (s : Downstream.Stream) (gen : List Downstream.Event) : Prop where
  started : gen ≠ []
  notClosing : ⟨.aclose, .cancelled⟩ ∉ gen
  payable : Payable s (observed gen)
    (⟨.nextEvent .ended, .came⟩ ∈ gen ∧ (observed gen).complete = true)

/-! ## The handler does not count -/

def Uncounted (c : Cmd) : Prop := ∀ outcome, c ≠ .record (.recordRequest outcome)

/-- Without a count among the commands there is none among the events. -/
theorem countP_uncounted {es : List Event} (h : ∀ e ∈ es, Uncounted e.1) :
    es.countP isRequest = 0 := by
  rw [List.countP_eq_zero]
  intro e he hrequest
  unfold isRequest at hrequest
  split at hrequest
  · rename_i outcome hcmd
    exact h e he outcome hcmd
  · cases hrequest

theorem only_failover {α : Type} (p : Failover.Gw α) : Prog.Only Uncounted (failover p) := by
  refine (Prog.only_true p).embed fun c _ => Prog.only_perform.mpr ?_
  intro outcome h
  cases h

theorem only_record {α : Type} {p : Downstream.Gw α}
    (h : Prog.Only (fun c => ∀ outcome, c ≠ .recordRequest outcome) p) :
    Prog.Only Uncounted (record p) := by
  refine h.embed fun c hc => Prog.only_perform.mpr ?_
  intro outcome heq
  cases heq
  exact hc outcome rfl

theorem only_saveDecision (ttl : TtlSeconds) (card : DecisionCard) (outcome : DecisionOutcome)
    (initialProvider : String) (stream : Bool) (failoverCount : Int) :
    Prog.Only Uncounted
      (record (Downstream.saveDecision ttl card outcome initialProvider stream failoverCount)) :=
  only_record ((Downstream.only_saveDecision ..).imp fun _ h => h.2)

theorem only_recordUsage (provider : String) (inputTokens outputTokens : Int) (cost : ℚ) :
    Prog.Only Uncounted
      (record (Downstream.recordUsage provider inputTokens outputTokens cost)) := by
  refine only_record ((Downstream.only_recordUsage ..).imp fun c h outcome heq => ?_)
  obtain ⟨counter, n, rfl⟩ := h
  cases heq

theorem only_respond (status : Nat) : Prog.Only Uncounted (respond status) := by
  refine Prog.only_perform_bind.mpr ⟨nofun, fun saving => ?_⟩
  cases saving <;> trivial

theorem only_ofOutcome {α : Type} (x : Except Exc α) :
    Prog.Only Uncounted (Prog.ofOutcome x : Gw α) := by
  cases x <;> trivial

section
variable (g : Deployment)

theorem only_serveCached (entry : CachedEntry) : Prog.Only Uncounted (serveCached g entry) := by
  refine Prog.only_perform_bind.mpr ⟨nofun, fun _ => ?_⟩
  refine Prog.only_perform_bind.mpr ⟨nofun, fun _ => ?_⟩
  refine Prog.only_perform_bind.mpr ⟨nofun, fun latencyMs => ?_⟩
  cases entry.tokens with
  | none => trivial
  | some tokens =>
    refine (only_saveDecision ..).bind fun _ => ?_
    cases entry.answer with
    | none => trivial
    | some answer => exact only_respond 200

theorem only_firstChoice (ctx : Failover.Context) (forced : Option Provider) :
    Prog.Only Uncounted (firstChoice ctx forced) := by
  cases forced with
  | some p => trivial
  | none =>
    refine Prog.Only.catch ((only_failover _).bind fun sel => trivial) fun e => ?_
    dsimp only
    split
    · exact Prog.only_perform_bind.mpr ⟨nofun, fun _ => trivial⟩
    · trivial

/-- Serving an answer counts nothing. -/
theorem only_serve (key : Option String) (served : Failover.Served AdapterResult) :
    Prog.Only Uncounted (serve g key served) := by
  unfold serve
  dsimp only
  generalize Downstream.costOf served.chosen (g.inputTokens served.result)
    (g.outputTokens served.result) = estimate
  refine (only_record (Downstream.only_ofOutcome estimate)).bind fun cost => ?_
  refine Prog.only_perform_bind.mpr ⟨nofun, fun latencyMs => ?_⟩
  refine (only_record (Downstream.only_ofOutcome _)).bind fun tokens => ?_
  refine (only_saveDecision ..).bind fun _ => (only_recordUsage ..).bind fun _ => ?_
  have hrespond : Prog.Only Uncounted (do setMetricOutcome "success"; respond 200) :=
    Prog.only_perform_bind.mpr ⟨nofun, fun _ => only_respond 200⟩
  cases key with
  | none => exact hrespond
  | some key =>
    dsimp only
    split
    · exact Prog.only_perform_bind.mpr ⟨nofun, fun _ => hrespond⟩
    · exact hrespond

theorem only_serveStream (req : GatewayRequest) (served : Failover.Served OpenedProviderStream) :
    Prog.Only Uncounted (serveStream g req served) := by
  refine Prog.only_perform_bind.mpr ⟨nofun, fun _ => ?_⟩
  dsimp only
  split <;> trivial

theorem only_serveRouted (ctx : Failover.Context) (forced : Option Provider) (key : Option String) :
    Prog.Only Uncounted (serveRouted g ctx forced key) := by
  refine (only_firstChoice ctx forced).bind fun choice => ?_
  dsimp only
  split
  · exact (only_failover _).bind fun served => only_serveStream g ctx.req served
  · exact (only_failover _).bind fun served => only_serve g key served

/-- The handler does not count; its middleware does. -/
theorem only_chatCompletions (req : GatewayRequest) :
    Prog.Only Uncounted (chatCompletions g req) := by
  refine (only_failover _).bind fun required => ?_
  refine Prog.only_perform_bind.mpr ⟨nofun, fun snapshot => ?_⟩
  refine (only_failover _).bind fun forced => (only_ofOutcome _).bind fun key => ?_
  cases key with
  | none => exact Prog.only_perform_bind.mpr ⟨nofun, fun _ => only_serveRouted ..⟩
  | some key =>
    refine Prog.only_perform_bind.mpr ⟨nofun, fun cached => ?_⟩
    cases cached with
    | some entry => exact only_serveCached g entry
    | none => exact Prog.only_perform_bind.mpr ⟨nofun, fun _ => only_serveRouted ..⟩

/-- Nor does what the middleware calls. -/
theorem only_callNext : Prog.Only Uncounted (callNext g) := by
  refine Prog.Only.catch (Prog.only_perform_bind.mpr ⟨nofun, fun admitted => ?_⟩) fun e => ?_
  · cases admitted with
    | ok req => exact only_chatCompletions g req
    | error refusal =>
      cases refusal with
      | status status => exact only_respond status
      | raised => trivial
  · split
    · exact only_respond _
    · exact only_respond _
    · trivial

end

/-! ## What the generator has observed -/

section
variable {s : Downstream.Stream}

/-- The events the generator has consumed, one by one. -/
theorem consumed_append (first : List Downstream.Event) {event : SseEvent}
    (hreceived : received first = [event]) (hconnected : first.countP isConnected = 1)
    (es : List Downstream.Event) : consumed (first ++ es) = event :: consumed es := by
  unfold consumed received at *
  rw [List.filterMap_append, hreceived, List.countP_append, hconnected, Nat.add_comm 1]
  rfl

/-- What the generator notes is what the consumed events say. -/
theorem observed_relays {events : List SseEvent} {o : Observation} {es : List Downstream.Event}
    {r : Observation × Downstream.LoopEnd} (h : Downstream.Relays s events o es r) :
    (consumeEvents o (consumed es)).1 = r.1 := by
  induction h with
  | waiting | exhausted | failed | asking | left => rfl
  | @invalid event events o o' e raises =>
    show (consumeEvents o [event]).1 = o'
    rw [consumeEvents, raises]
  | @closed event events o o' consumed shows =>
    show (consumeEvents o [event]).1 = o'
    rw [consumeEvents, consumed]
    rfl
  | @hidden event events o o' es r consumes hides rest ih =>
    have hconsumed := consumed_append ([⟨.nextEvent (.event event), .came⟩,
      ⟨.isDisconnected, .no⟩]) rfl rfl es
    dsimp only [List.cons_append, List.nil_append] at hconsumed
    rw [hconsumed, consumeEvents, consumes]
    exact ih
  | @yielded event events o o' es r consumes shows rest ih =>
    have hconsumed := consumed_append ([⟨.nextEvent (.event event), .came⟩,
      ⟨.isDisconnected, .no⟩, ⟨.yieldEvent event, .resumed⟩]) rfl rfl es
    dsimp only [List.cons_append, List.nil_append] at hconsumed
    rw [hconsumed, consumeEvents, consumes]
    exact ih

/-- The generator sees the end of the provider's stream exactly when its loop runs out. -/
theorem ended_relays {events : List SseEvent} {o : Observation} {es : List Downstream.Event}
    {r : Observation × Downstream.LoopEnd} (h : Downstream.Relays s events o es r) :
    ⟨.nextEvent .ended, .came⟩ ∈ es ↔ r.2 = .exhausted := by
  induction h with
  | waiting | exhausted | failed | asking | left | invalid | closed => simp
  | hidden _ _ _ ih | yielded _ _ _ ih => simpa using ih

/-- Settling observes nothing. -/
theorem consumed_settle {es₁ es₂ : List Downstream.Event}
    (hnext : ∀ e ∈ es₂, ∀ pulled, e.1 ≠ .nextEvent pulled)
    (hconnected : es₂.countP isConnected = 0) :
    consumed (es₁ ++ es₂) = consumed es₁ := by
  rw [consumed, received_append hnext, List.countP_append, hconnected, Nat.add_zero, consumed]

theorem not_connected_settle (closing : Downstream.Closing) (name : String)
    (outcome : Downstream.Outcome) {rest : List Downstream.Event}
    (h : ∀ e ∈ rest, e.1.isRecord = true) :
    (⟨.aclose, closing⟩ :: ⟨.breaker (outcome.call name), ()⟩ :: rest :
      List Downstream.Event).countP
      isConnected = 0 := by
  have hrest : rest.countP isConnected = 0 := by
    rw [List.countP_eq_zero]
    intro e he hconnected
    have hrecord := h e he
    unfold isConnected at hconnected
    split at hconnected
    · cases hrecord
    · cases hconnected
  simpa [isConnected] using hrest

/-- Relaying counts nothing. -/
theorem uncounted_relays {events : List SseEvent} {o : Observation} {es : List Downstream.Event}
    {r : Observation × Downstream.LoopEnd} (h : Downstream.Relays s events o es r) :
    es.countP isStreamRequest = 0 := by
  rw [List.countP_eq_zero]
  induction h with
  | waiting | exhausted | failed | asking | left | invalid | closed => simp [isStreamRequest]
  | hidden _ _ _ ih | yielded _ _ _ ih => simpa [isStreamRequest] using ih

end

/-! ## What the generator counts -/

theorem countP_stream {gen : List Downstream.Event}
    (h : ∀ e ∈ gen, ∀ outcome, e.1 ≠ .recordRequest outcome) : gen.countP isStreamRequest = 0 := by
  rw [List.countP_eq_zero]
  intro e he hrequest
  unfold isStreamRequest at hrequest
  split at hrequest
  · rename_i outcome hcmd
    exact h e he outcome hcmd
  · cases hrequest

/-- `inc` raises for a negative amount, and for no other reason. -/
theorem inc_ok {counter : Downstream.Counter} {amount : ℚ} {es : List Downstream.Event}
    {r : Except Downstream.Exc Unit} (h : Prog.Emits (Downstream.inc counter amount) es r) :
    r = .ok () ↔ 0 ≤ amount := by
  unfold Downstream.inc at h
  split at h
  · rename_i hneg
    obtain ⟨-, rfl⟩ := h
    simpa using hneg
  · rename_i hpos
    obtain ⟨x, es, rfl, -, rfl⟩ := h
    simpa using hpos

/-- So the usage is recorded when none of its three numbers is negative. -/
theorem recordUsage_ok {provider : String} {inputTokens outputTokens : Int} {cost : ℚ}
    {es : List Downstream.Event} {r : Except Downstream.Exc Unit}
    (h : Prog.Emits (Downstream.recordUsage provider inputTokens outputTokens cost) es r) :
    r = .ok () ↔ 0 ≤ inputTokens ∧ 0 ≤ outputTokens ∧ 0 ≤ cost := by
  have hcast (n : Int) : (0 : ℚ) ≤ n ↔ 0 ≤ n := Int.cast_nonneg_iff
  rcases Prog.emits_bind.mp h with ⟨es₁, es₂, u, rfl, hinput, h⟩ | ⟨e, hinput, rfl⟩
  · have hin := (hcast _).mp ((inc_ok hinput).mp rfl)
    rcases Prog.emits_bind.mp h with ⟨es₂, es₃, u, rfl, houtput, h⟩ | ⟨e, houtput, rfl⟩
    · have hout := (hcast _).mp ((inc_ok houtput).mp rfl)
      rw [inc_ok h]
      exact ⟨fun hcost => ⟨hin, hout, hcost⟩, fun hall => hall.2.2⟩
    · have hneg := mt (inc_ok houtput).mpr nofun
      exact ⟨nofun, fun hall => absurd ((hcast _).mpr hall.2.1) hneg⟩
  · have hneg := mt (inc_ok hinput).mpr nofun
    exact ⟨nofun, fun hall => absurd ((hcast _).mpr hall.1) hneg⟩

theorem countP_usage {provider : String} {inputTokens outputTokens : Int} {cost : ℚ}
    {es : List Downstream.Event} {r : Except Downstream.Exc Unit}
    (h : Prog.Emits (Downstream.recordUsage provider inputTokens outputTokens cost) es r) :
    es.countP isStreamRequest = 0 := by
  refine countP_stream fun e he outcome hcmd => ?_
  obtain ⟨counter, n, hinc⟩ := (Downstream.only_recordUsage ..).emits h e he
  rw [hinc] at hcmd
  cases hcmd

section
variable {s : Downstream.Stream} {o : Observation} {outcome : Downstream.Outcome}

/-- `record_request`, the last step of the part that counts. -/
theorem countP_recordRequest {cost : ℚ} {es : List Downstream.Event} {r : Except Downstream.Exc ℚ}
    (h : Prog.Emits (do
      Prog.perform (Downstream.Cmd.recordRequest outcome.value)
      return cost : Downstream.Gw ℚ) es r) : es.countP isStreamRequest = 1 ∧ r = .ok cost := by
  obtain ⟨x, es, rfl, rfl, rfl⟩ := h
  exact ⟨rfl, rfl⟩

/-- Either the stream is counted and what follows is reached, or an amount has raised. -/
theorem emits_account {es : List Downstream.Event} {r : Except Downstream.Exc ℚ}
    (h : Prog.Emits (Downstream.account s o outcome) es r) :
    (es.countP isStreamRequest = 1 ∧ Payable s o (outcome = .success) ∧ ∃ cost, r = .ok cost) ∨
    (es.countP isStreamRequest = 0 ∧ ¬ Payable s o (outcome = .success) ∧ ∃ e, r = .error e) := by
  unfold Downstream.account Downstream.costOf at h
  simp only [Prog.perform_bind, Prog.emits_cmd, Prog.onReply_ok] at h
  obtain ⟨x, es, rfl, h⟩ := h
  rw [List.countP_cons_of_neg (by simp [isStreamRequest])]
  by_cases hfits :
      (Downstream.fitsFloat o.inputTokens && Downstream.fitsFloat o.outputTokens) = true
  · obtain ⟨hinput, houtput⟩ := Bool.and_eq_true_iff.mp hfits
    rw [if_pos hfits] at h
    by_cases hsuccess : outcome = .success
    · simp only [Prog.ofOutcome, Prog.ret_bind, if_pos hsuccess] at h
      rcases Prog.emits_bind.mp h with ⟨es₁, es₂, u, rfl, husage, h⟩ | ⟨e, husage, rfl⟩
      · have hnone : es₁.countP isStreamRequest = 0 := countP_usage husage
        obtain ⟨hone, rfl⟩ := countP_recordRequest h
        rw [List.countP_append, hnone, hone]
        exact Or.inl ⟨rfl, ⟨hinput, houtput, fun _ => (recordUsage_ok husage).mp rfl⟩, _, rfl⟩
      · refine Or.inr ⟨countP_usage husage, fun hpayable => ?_, e, rfl⟩
        have hok := (recordUsage_ok husage).mpr (hpayable.amounts hsuccess)
        cases hok
    · simp only [Prog.ofOutcome, Prog.ret_bind, if_neg hsuccess] at h
      obtain ⟨hone, rfl⟩ := countP_recordRequest h
      exact Or.inl ⟨hone, ⟨hinput, houtput, fun h => absurd h hsuccess⟩, _, rfl⟩
  · rw [if_neg hfits] at h
    obtain ⟨rfl, rfl⟩ := h
    refine Or.inr ⟨rfl, fun hpayable => hfits ?_, _, rfl⟩
    rw [hpayable.input, hpayable.output]
    rfl

/-- The request is counted when the stream is payable. -/
theorem countP_recorded {es : List Downstream.Event} {r : Except Downstream.Exc Unit}
    (h : Downstream.Recorded s o outcome es r) :
    es.countP isStreamRequest = 1 ↔ Payable s o (outcome = .success) := by
  rcases Prog.emits_bind.mp h.emits with ⟨es₁, es₂, cost, rfl, haccount, h⟩ | ⟨e, haccount, rfl⟩
  · have hrest := (Downstream.only_recordDecision s o outcome cost).emits h
    rw [List.countP_append, countP_stream fun e he => (hrest e he).2, Nat.add_zero]
    rcases emits_account haccount with ⟨hone, hpayable, -⟩ | ⟨-, -, e, he⟩
    · exact iff_of_true hone hpayable
    · cases he
  · rcases emits_account haccount with ⟨-, -, cost, hcost⟩ | ⟨hnone, hpayable, -⟩
    · cases hcost
    · exact iff_of_false (by omega) hpayable

end

section
variable {s : Downstream.Stream}

/-- Success takes a stream that came to its end and was complete. -/
theorem outcomeOf_success {o : Observation} {loopEnd : Downstream.LoopEnd} :
    Downstream.outcomeOf o loopEnd = .success ↔ loopEnd = .exhausted ∧ o.complete = true := by
  cases loopEnd with
  | exhausted => simp [Downstream.outcomeOf]
  | disconnected => simp [Downstream.outcomeOf]
  | raised e => cases e <;> simp [Downstream.outcomeOf]

/-- From the first event to the last record. -/
theorem countP_settled {es₁ rest : List Downstream.Event} {o : Observation}
    {loopEnd : Downstream.LoopEnd} {closing : Downstream.Closing} {r : Except Downstream.Exc Unit}
    (hrelays : Downstream.Relays s s.events .new es₁ (o, loopEnd))
    (hrest : Downstream.Recorded s o (Downstream.outcomeOf o loopEnd) rest r) :
    (es₁ ++ ⟨.aclose, closing⟩ :: ⟨.breaker ((Downstream.outcomeOf o loopEnd).call s.name), ()⟩ ::
      rest).countP isStreamRequest = 1 ↔
        Payable s o (loopEnd = .exhausted ∧ o.complete = true) := by
  rw [List.countP_append, uncounted_relays hrelays, Nat.zero_add,
    List.countP_cons_of_neg (by simp [isStreamRequest]),
    List.countP_cons_of_neg (by simp [isStreamRequest]), countP_recorded hrest, outcomeOf_success]

/-- A generator counts its stream if and only if the stream is accountable. -/
theorem countP_generator {gen : List Downstream.Event} (h : Downstream.Lifetime s gen) :
    gen.countP isStreamRequest = 1 ↔ Accountable s gen := by
  cases h with
  | discarded => exact iff_of_false (by simp) fun h => h.started rfl
  | ran h =>
    obtain ⟨es₁, es₂, o, loopEnd, r', hgen, hrelays, hsettle⟩ := Downstream.emits_downstream h
    rcases Downstream.emits_settle hsettle with ⟨rfl, -⟩ | ⟨closing, rest, hclosing, rfl, hrest⟩
    -- the closing of the provider's stream was cancelled, and nothing is recorded after that
    · have hcount : gen.countP isStreamRequest = 0 := by
        rw [hgen, List.countP_append, uncounted_relays hrelays]
        simp [isStreamRequest]
      refine iff_of_false (by omega) fun h => h.notClosing ?_
      rw [hgen]
      exact List.mem_append_right _ List.mem_cons_self
    · have hnext := not_nextEvent_settle closing s.name (Downstream.outcomeOf o loopEnd) hrest.only
      have hobserved : observed gen = o := by
        rw [observed, hgen, consumed_settle hnext (not_connected_settle closing _ _ hrest.only)]
        exact observed_relays hrelays
      have hended : ⟨.nextEvent .ended, .came⟩ ∈ gen ↔ loopEnd = .exhausted := by
        rw [hgen, mem_nextEvent_append hnext]
        exact ended_relays hrelays
      have hcount : gen.countP isStreamRequest = 1 ↔ Payable s (observed gen)
          (⟨.nextEvent .ended, .came⟩ ∈ gen ∧ (observed gen).complete = true) := by
        rw [hobserved, hended, hgen]
        exact countP_settled hrelays hrest
      rw [hcount]
      refine ⟨fun h => ⟨by simp [hgen], fun hmem => ?_, h⟩, fun h => h.payable⟩
      rw [hgen] at hmem
      rcases List.mem_append.mp hmem with hmem | hmem
      · exact (loop_relays hrelays _ hmem).2 rfl
      · rcases List.mem_cons.mp hmem with heq | hmem
        · cases heq
          exact hclosing rfl
        · rcases List.mem_cons.mp hmem with heq | hmem
          · cases heq
          · exact (not_breaker_of_isRecord (hrest.only _ hmem)).2.1 rfl

end

/-! ## What the middleware counts -/

section
variable {g : Deployment}

/-- The `except Exception` of the middleware. -/
theorem emits_reraise {e : Exc} {es : List Event} {r : Except Exc Response}
    (h : Prog.Emits (do
      if e.isException then recordRequest "server_error"
      throw e : Gw Response) es r) :
    es.countP isRequest = (if e.isException then 1 else 0) ∧ r = .error e := by
  cases hexception : e.isException with
  | true =>
    simp only [hexception, if_true] at h
    obtain ⟨u, es, rfl, rfl, rfl⟩ := h
    exact ⟨rfl, rfl⟩
  | false =>
    simp only [hexception] at h
    obtain ⟨rfl, rfl⟩ := h
    exact ⟨rfl, rfl⟩

/-- The middleware counts every request but a stream. -/
theorem countP_middleware {es : List Event} {r : Except Exc Response}
    (h : Prog.Emits (recordChatRequest g) es r) (hfinished : Finished r) :
    (∃ s, r = .ok (.stream s) ∧ es.countP isRequest = 0) ∨
      ((∀ s, r ≠ .ok (.stream s)) ∧ es.countP isRequest = 1) := by
  have honly := only_callNext g
  unfold recordChatRequest at h
  generalize callNext g = next at h honly
  have hquiet {es : List Event} {r : Except Exc Response} (h : Prog.Emits next es r) :
      es.countP isRequest = 0 := countP_uncounted (honly.emits h)
  rcases Prog.emits_bind.mp h with ⟨es₁, es₂, response, rfl, hcall, h⟩ | ⟨e, hcall, rfl⟩
  · rcases Prog.emits_catch.mp hcall with ⟨_, hcall, heq⟩ | ⟨_, es₃, e, -, -, hraise⟩
    · cases heq
      rw [List.countP_append, hquiet hcall, Nat.zero_add]
      cases response with
      | stream s =>
        obtain ⟨rfl, rfl⟩ := h
        exact Or.inl ⟨s, rfl, rfl⟩
      | answer status =>
        obtain ⟨outcome, es, rfl, u, es, rfl, rfl, rfl⟩ := h
        refine Or.inr ⟨?_, by simp [isRequest]⟩
        intro s hs
        cases hs
    · obtain ⟨-, heq⟩ := emits_reraise hraise
      cases heq
  · rcases Prog.emits_catch.mp hcall with ⟨_, -, heq⟩ | ⟨es₁, es₂, e', rfl, hcall, hraise⟩
    · cases heq
    · obtain ⟨hcount, heq⟩ := emits_reraise hraise
      cases heq
      rw [List.countP_append, hquiet hcall, Nat.zero_add, hcount,
        if_pos (show e.isException = true from hfinished)]
      refine Or.inr ⟨?_, rfl⟩
      intro s hs
      cases hs

end

/-! ## Every request -/

/-- **A request is counted once, and a stream if and only if it is accountable.** -/
theorem counted_once_iff (g : Deployment) (es : List Event) (r : Except Exc Response)
    (gen : List Downstream.Event) (h : Prog.Emits (recordChatRequest g) es r)
    (hfinished : Finished r) (hgen : Generated r gen) :
    counted es gen = 1 ↔ ∀ s, r = .ok (.stream s) → Accountable s gen := by
  unfold counted
  rcases countP_middleware h hfinished with ⟨s, rfl, hnone⟩ | ⟨hanswer, hone⟩
  · rw [hnone, Nat.zero_add, countP_generator hgen]
    refine ⟨fun haccountable s' hs => ?_, fun hall => hall s rfl⟩
    cases hs
    exact haccountable
  · have hnil : gen = [] := by
      cases r with
      | error e => exact hgen
      | ok response =>
        cases response with
        | answer status => exact hgen
        | stream s => exact absurd rfl (hanswer s)
    rw [hone, hnil]
    exact iff_of_true rfl fun s hs => absurd hs (hanswer s)

/-! ## A stream that reports its usage -/

/-- A provider that can stream. -/
def streamingMock : Provider where
  name := "mock-a"
  kind := none
  privacy := none
  capabilities := some [(str "streaming", .bool true)]
  typicalLatencyMs := none
  qualityRank := none
  pricePer1kInput := none
  pricePer1kOutput := none

theorem one_le_name : 1 ≤ "mock-a".length := by decide

theorem one_le_messages : 1 ≤ [Message.user (str "hello")].length := by decide

def streaming : GatewayRequest :=
  { GatewayRequest.plain "mock-a" [.user (str "hello")] .default one_le_name one_le_messages with
    stream := true
    streamOptions_stream := fun _ => rfl }

/-- A gateway in front of the mock, which streams the given events. -/
def inFrontOf (opened : OpenedEvents) : Deployment where
  providers := [streamingMock]
  hexdigest _ := ""
  ttl := ⟨3600, Downstream.hour⟩
  requestId := "req_0"
  content _ := []
  inputTokens _ := 0
  outputTokens _ := 0
  sends _ := (opened, .finished)

def streamOf (opened : OpenedEvents) : Downstream.Stream where
  served := ⟨opened, streamingMock, .forced "mock-a", ["mock-a"]⟩
  ending := .finished
  retries := 0
  includeUsage := false
  requestId := "req_0"
  ttl := ⟨3600, Downstream.hour⟩

theorem required_streaming : streaming.requiredCapabilities = .ok ["streaming"] := by
  simp [GatewayRequest.requiredCapabilities, streaming, GatewayRequest.plain, truthyList,
    Message.usesTools]
  rfl

theorem forced_streaming (messages : List Obj) (policy : GatewayRoutingPolicy) :
    Failover.forcedProvider ⟨[streamingMock], streaming, messages, ["streaming"], policy⟩ =
      .ok (some streamingMock) := by
  simp [Failover.forcedProvider, streaming, GatewayRequest.plain, streamingMock,
    missingCapabilities]
  rfl

theorem requestKey_streaming (forced : Option Provider) (version : Nat) :
    requestKey (fun _ => "") streaming forced version = .ok none := by
  have hbypass : streaming.bypassCache = true := by simp [GatewayRequest.bypassCache, streaming]
  rw [requestKey, if_pos hbypass]
  rfl

theorem first_version : 1 ≤ 1 := Nat.le_refl 1

def snapshot : GatewayPolicySnapshot := ⟨1, defaultGatewayPolicy, first_version⟩

def streamingEvents : List Event :=
  [⟨.admitRequest, .ok streaming⟩, ⟨.policySnapshot, snapshot⟩, ⟨.recordCache "bypass", ()⟩,
    ⟨.failover (.openStream streamingMock), .ok ⟨"", 12, 0⟩⟩, ⟨.deferMetricsToStream, ()⟩]

theorem emits_streaming (opened : OpenedEvents) :
    Prog.Emits (recordChatRequest (inFrontOf opened)) streamingEvents
      (.ok (.stream (streamOf opened))) := by
  have hserve (ctx : Failover.Context) (hctx : ctx.req = streaming) :
      Prog.Emits (serveRouted (inFrontOf opened) ctx (some streamingMock) none)
        [⟨.failover (.openStream streamingMock), .ok ⟨"", 12, 0⟩⟩, ⟨.deferMetricsToStream, ()⟩]
        (.ok (.stream (streamOf opened))) := by
    have hopened :
      Prog.Emits (failover (Failover.streamResponse ctx streamingMock (.forced "mock-a")))
        [⟨.failover (.openStream streamingMock), .ok ⟨"", 12, 0⟩⟩]
        (.ok ⟨⟨"", 12, 0⟩, streamingMock, .forced "mock-a", ["mock-a"]⟩) := by
      rw [Failover.streamResponse, Failover.failover]
      exact ⟨_, _, rfl, rfl, rfl⟩
    unfold serveRouted firstChoice
    simp only [hctx, Prog.pure_eq, Prog.ret_bind]
    refine Prog.emits_bind.mpr (Or.inl ⟨_, _, _, rfl, hopened, ?_⟩)
    exact ⟨_, _, rfl, rfl, rfl⟩
  have hhandler : Prog.Emits (chatCompletions (inFrontOf opened) streaming)
      streamingEvents.tail (.ok (.stream (streamOf opened))) := by
    unfold chatCompletions
    rw [required_streaming]
    simp only [failover, Except.mapError, Prog.ofOutcome, Prog.embed, Prog.ret_bind,
      Prog.perform_bind]
    refine ⟨snapshot, _, rfl, ?_⟩
    rw [Prog.onReply_ok, show (inFrontOf opened).providers = [streamingMock] from rfl,
      forced_streaming, show (inFrontOf opened).hexdigest = fun _ => "" from rfl]
    simp only [Prog.embed, Prog.ret_bind]
    rw [requestKey_streaming]
    exact ⟨_, _, rfl, hserve _ rfl⟩
  have hnext : Prog.Emits (callNext (inFrontOf opened)) streamingEvents
      (.ok (.stream (streamOf opened))) :=
    Prog.emits_catch.mpr (Or.inl ⟨_, ⟨_, _, rfl, hhandler⟩, rfl⟩)
  refine Prog.emits_bind.mpr (Or.inl ⟨_, [], .stream (streamOf opened),
    (List.append_nil _).symm, ?_, rfl, rfl⟩)
  exact Prog.emits_catch.mpr (Or.inl ⟨_, hnext, rfl⟩)

/-- The line of a chunk that ends a choice and reports the prompt tokens. -/
def usageLine (promptTokens : String) : PyStr :=
  str "data: \x7b\"choices\":[\x7b\"finish_reason\":\"stop\"\x7d],\"usage\":\x7b\"prompt_tokens\":"
    ++
    str promptTokens ++ str "\x7d\x7d"

def usageLines (promptTokens : String) : List PyStr :=
  [usageLine promptTokens, [], str "data: [DONE]"]

def usageOpened (promptTokens : String) : OpenedEvents where
  firstEvent := usageLine promptTokens ++ str "\n\n"
  remainingEvents := [str "data: [DONE]\n\n"]

/-- Without trouble, the loop goes through the whole stream. -/
theorem relays_undisturbed {s : Downstream.Stream} {events : List SseEvent} {o : Observation}
    {es : List Downstream.Event} {r : Observation × Downstream.LoopEnd}
    (h : Downstream.Relays s events o es r)
    (hanswers : ∀ e ∈ es, e.2 = Downstream.undisturbed e.1) (hending : s.ending = .finished)
    (hvalid : (consumeEvents o events).2 = none) :
    r = ((consumeEvents o events).1, .exhausted) := by
  induction h with
  | @waiting events o => cases hanswers _ List.mem_cons_self
  | exhausted => rfl
  | failed raised => cases hending.symm.trans raised
  | asking | left => cases hanswers _ (List.mem_cons_of_mem _ List.mem_cons_self)
  | invalid raises =>
    rw [consumeEvents, raises] at hvalid
    cases hvalid
  | closed =>
    cases hanswers _ (List.mem_cons_of_mem _ (List.mem_cons_of_mem _ List.mem_cons_self))
  | hidden consumes hides rest ih =>
    rw [consumeEvents, consumes] at hvalid ⊢
    refine ih (fun e he => hanswers e ?_) hvalid
    exact List.mem_cons_of_mem _ (List.mem_cons_of_mem _ he)
  | yielded consumes shows rest ih =>
    rw [consumeEvents, consumes] at hvalid ⊢
    refine ih (fun e he => hanswers e ?_) hvalid
    exact List.mem_cons_of_mem _ (List.mem_cons_of_mem _ (List.mem_cons_of_mem _ he))

/-- A stream that nobody disturbs. -/
theorem countP_undisturbed {s : Downstream.Stream} {gen : List Downstream.Event}
    {r : Except Downstream.Exc Unit} {o : Observation}
    (h : Prog.Emits (Downstream.downstream s) gen r)
    (hanswers : ∀ e ∈ gen, e.2 = Downstream.undisturbed e.1) (hending : s.ending = .finished)
    (hconsumed : consumeEvents .new s.events = (o, none)) :
    gen.countP isStreamRequest = 1 ↔ Payable s o (o.complete = true) := by
  obtain ⟨es₁, es₂, o', loopEnd, r', rfl, hrelays, hsettle⟩ := Downstream.emits_downstream h
  have hloop := relays_undisturbed hrelays
    (fun e he => hanswers e (List.mem_append_left _ he)) hending (by rw [hconsumed])
  rw [hconsumed] at hloop
  cases hloop
  rcases Downstream.emits_settle hsettle with ⟨rfl, -⟩ | ⟨closing, rest, hclosing, rfl, hrest⟩
  · cases hanswers _ (List.mem_append_right _ List.mem_cons_self)
  · rw [countP_settled hrelays hrest, eq_self, true_and]

/-- What is observed of a stream that reports its usage, by evaluation. -/
theorem observed_usage {promptTokens : String} {n : Int}
    (h : (match consumeEvents .new (streamOf (usageOpened promptTokens)).events with
      | (o, none) => decide (o.inputTokens = n ∧ o.outputTokens = 0 ∧ o.complete = true)
      | (_, some _) => false) = true) :
    ∃ o, consumeEvents .new (streamOf (usageOpened promptTokens)).events = (o, none) ∧
      o.inputTokens = n ∧ o.outputTokens = 0 ∧ o.complete = true := by
  split at h
  · rename_i o ho
    exact ⟨o, ho, of_decide_eq_true h⟩
  · cases h

/-- A whole request, from the middleware to the end of its stream. -/
theorem counted_once_usage : ∃ gen, Downstream.Lifetime (streamOf (usageOpened "3")) gen ∧
    counted streamingEvents gen = 1 := by
  obtain ⟨o, ho, hinput, houtput, -⟩ := @observed_usage "3" 3 (by decide +kernel)
  obtain ⟨gen, r, hgen, hanswers⟩ := Prog.emits_exists Downstream.undisturbed
    (Downstream.downstream (streamOf (usageOpened "3")))
  refine ⟨gen, .ran hgen, ?_⟩
  have hiff := counted_once_iff (inFrontOf (usageOpened "3")) streamingEvents
    (.ok (.stream (streamOf (usageOpened "3")))) gen (emits_streaming _) trivial (.ran hgen)
  refine hiff.mpr fun s hs => ?_
  cases hs
  refine (countP_generator (.ran hgen)).mp ((countP_undisturbed hgen hanswers rfl ho).mpr ?_)
  refine ⟨hinput ▸ (by decide +kernel), houtput ▸ (by decide +kernel), fun _ => ?_⟩
  rw [hinput, houtput]
  decide +kernel

/-- A provider that reports a negative number of prompt tokens. -/
theorem negative_usage_uncounted : ∃ gen,
    openEvents "mock-a" (usageLines "-1") = .ok (usageOpened "-1") ∧
    Prog.Emits (recordChatRequest (inFrontOf (usageOpened "-1"))) streamingEvents
      (.ok (.stream (streamOf (usageOpened "-1")))) ∧
    Downstream.Lifetime (streamOf (usageOpened "-1")) gen ∧ counted streamingEvents gen ≠ 1 := by
  obtain ⟨o, ho, hinput, -, hcomplete⟩ := @observed_usage "-1" (-1) (by decide +kernel)
  obtain ⟨gen, r, hgen, hanswers⟩ := Prog.emits_exists Downstream.undisturbed
    (Downstream.downstream (streamOf (usageOpened "-1")))
  refine ⟨gen, openEvents_of_check (by decide +kernel), emits_streaming _, .ran hgen, ?_⟩
  intro hone
  have hcount : gen.countP isStreamRequest = 1 := by
    have hnone : streamingEvents.countP isRequest = 0 := by simp [streamingEvents, isRequest]
    rwa [counted, hnone, Nat.zero_add] at hone
  have hpayable := (countP_undisturbed hgen hanswers rfl ho).mp hcount
  have hpositive := (hpayable.amounts hcomplete).1
  rw [hinput] at hpositive
  exact absurd hpositive (by decide)

end PolyGate.Gateway.ChatCompletions.CountedOnce
