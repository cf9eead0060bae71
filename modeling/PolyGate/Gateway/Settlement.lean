import PolyGate.Gateway.Relay

/-!
# `Gateway/Settlement.lean` — which streams are settled

A stream is settled when the upstream response is closed, the breaker is told one outcome, and the
outcome is a failure only where the upstream is at fault. `finally` does this on every way out of
the loop, but not every stream gets that far: a generator that is discarded before its first event
never runs, and a cancellation at `await opened.aclose()` skips the rest. And a generator that is
closed at a `yield` still has the outcome it started with, which is the failure (`settled_iff`).
-/

namespace PolyGate.Gateway.Downstream.Settlement

open Lib Relay

/-! ## The law, and what it needs -/

/-- The events that came from the upstream. -/
def received (es : List Event) : List SseEvent :=
  es.filterMap fun e => match e with
    | ⟨.nextEvent (.event event), .came⟩ => some event
    | _ => none

/-- The upstream raised, sent invalid data, or ended without a finish reason and `[DONE]`. -/
def AtFault (es : List Event) : Prop :=
  ⟨.nextEvent .raised, .came⟩ ∈ es ∨ (∃ event ∈ received es, isValid event = false) ∨
    (⟨.nextEvent .ended, .came⟩ ∈ es ∧ (consumeEvents .new (received es)).1.complete = false)

/-- An outcome for the breaker of a provider. -/
def isOutcome (name : String) (e : Event) : Bool :=
  match e.1 with
  | .breaker (.recordSuccess n) | .breaker (.recordFailure n) | .breaker (.recordCancelled n) =>
    n = name
  | _ => false

structure Settled (s : Stream) (es : List Event) : Prop where
  closed : ∃ closing, closing ≠ .cancelled ∧ ⟨.aclose, closing⟩ ∈ es
  once : es.countP (isOutcome s.name) = 1
  fault : ⟨.breaker (.recordFailure s.name), ()⟩ ∈ es → AtFault es

/-- The first event was asked for, and the consumer stopped neither at a `yield` nor while the
upstream was being closed. -/
structure LeftInTime (es : List Event) : Prop where
  started : es ≠ []
  notYielding : ∀ event, ⟨.yieldEvent event, .closed⟩ ∉ es
  notClosing : ⟨.aclose, .cancelled⟩ ∉ es

/-! ## Why the loop was left -/

/-- What the events of the loop say of its end. -/
def Explains (o : Observation) (es : List Event) : Observation × LoopEnd → Prop
  | (o', .exhausted) => ⟨.nextEvent .ended, .came⟩ ∈ es ∧ consumeEvents o (received es) = (o', none)
  | (_, .raised .upstream) => ⟨.nextEvent .raised, .came⟩ ∈ es
  | (_, .raised (.invalid _)) => ∃ event ∈ received es, isValid event = false
  | (_, .raised .generatorExit) => (∃ event, ⟨.yieldEvent event, .closed⟩ ∈ es) ∧
      ⟨.nextEvent .raised, .came⟩ ∉ es ∧ ⟨.nextEvent .ended, .came⟩ ∉ es ∧
      ∀ event ∈ received es, isValid event = true
  | (_, .disconnected) | (_, .raised .cancelledError) => True
  | (_, .raised _) => False

/-- The generator is closed at a `yield` only when the loop is left that way. -/
def ClosedBy (es : List Event) (r : Observation × LoopEnd) : Prop :=
  ∀ event, ⟨.yieldEvent event, .closed⟩ ∈ es → r.2 = .raised .generatorExit

theorem isValid_of_consume {o o' : Observation} {event : SseEvent}
    (h : o.consume event = (o', none)) : isValid event = true := by
  rw [isValid_eq o, h]
  rfl

/-- A valid event before the others changes nothing. -/
theorem Explains.cons (first : List Event) {o o' : Observation} {event : SseEvent} {es : List Event}
    {r : Observation × LoopEnd} (h : Explains o' es r) (consumed : o.consume event = (o', none))
    (hreceived : received first = [event]) (hraised : ⟨.nextEvent .raised, .came⟩ ∉ first)
    (hended : ⟨.nextEvent .ended, .came⟩ ∉ first) : Explains o (first ++ es) r := by
  have hall : received (first ++ es) = event :: received es := by
    unfold received at hreceived ⊢
    rw [List.filterMap_append, hreceived, List.singleton_append]
  obtain ⟨o'', loopEnd⟩ := r
  cases loopEnd with
  | exhausted =>
    refine ⟨List.mem_append_right _ h.1, ?_⟩
    rw [hall, consumeEvents, consumed]
    exact h.2
  | disconnected => trivial
  | raised e =>
    cases e with
    | upstream => exact List.mem_append_right _ h
    | invalid e =>
      obtain ⟨event', hmem, hinvalid⟩ := h
      exact ⟨event', by rw [hall]; exact List.mem_cons_of_mem _ hmem, hinvalid⟩
    | generatorExit =>
      obtain ⟨⟨event', hclosed⟩, hno, hno', hvalid⟩ := h
      refine ⟨⟨event', List.mem_append_right _ hclosed⟩, ?_, ?_, ?_⟩
      · exact fun hmem => (List.mem_append.mp hmem).elim hraised hno
      · exact fun hmem => (List.mem_append.mp hmem).elim hended hno'
      · rw [hall]
        exact List.forall_mem_cons.mpr ⟨isValid_of_consume consumed, hvalid⟩
    | cancelledError => trivial
    | overflowError | valueError | store => exact h

theorem explains_relays {s : Stream} {events : List SseEvent} {o : Observation} {es : List Event}
    {r : Observation × LoopEnd} (h : Relays s events o es r) : Explains o es r := by
  induction h with
  | waiting | asking | left => trivial
  | exhausted => exact ⟨List.mem_cons_self, rfl⟩
  | failed => exact List.mem_cons_self
  | @invalid event events o o' e raises =>
    refine ⟨event, List.mem_cons_self, ?_⟩
    rw [isValid_eq o, raises]
    rfl
  | @closed event events o o' consumed shows =>
    refine ⟨⟨event, by simp⟩, by simp, by simp, fun event' hmem => ?_⟩
    rw [List.mem_singleton.mp hmem]
    exact isValid_of_consume consumed
  | @hidden event events o o' es r consumed hides rest ih =>
    exact Explains.cons [⟨.nextEvent (.event event), .came⟩, ⟨.isDisconnected, .no⟩] ih consumed rfl
      (by simp) (by simp)
  | @yielded event events o o' es r consumed shows rest ih =>
    exact Explains.cons [⟨.nextEvent (.event event), .came⟩, ⟨.isDisconnected, .no⟩,
      ⟨.yieldEvent event, .resumed⟩] ih consumed rfl (by simp) (by simp)

theorem closedBy_relays {s : Stream} {events : List SseEvent} {o : Observation} {es : List Event}
    {r : Observation × LoopEnd} (h : Relays s events o es r) : ClosedBy es r := by
  induction h with
  | waiting | asking | left | exhausted | failed | invalid =>
    intro event hmem
    simp at hmem
  | closed => exact fun _ _ => rfl
  | hidden _ _ _ ih | yielded _ _ _ ih =>
    intro event hmem
    exact ih event (by simpa using hmem)

/-- The loop does not close the upstream and does not speak to the breaker. -/
theorem loop_relays {s : Stream} {events : List SseEvent} {o : Observation} {es : List Event}
    {r : Observation × LoopEnd} (h : Relays s events o es r) :
    ∀ e ∈ es, (∀ c, e.1 ≠ .breaker c) ∧ e.1 ≠ .aclose := by
  induction h with
  | waiting | asking | left | exhausted | failed | invalid | closed => simp
  | hidden _ _ _ ih | yielded _ _ _ ih => simpa using ih

/-! ## Settling -/

section
variable {s : Stream} {es es₁ es₂ rest : List Event} {o : Observation} {loopEnd : LoopEnd}

theorem isOutcome_call (name : String) (outcome : Outcome) :
    isOutcome name ⟨.breaker (outcome.call name), ()⟩ = true := by
  cases outcome <;> simp [isOutcome, Outcome.call]

theorem countP_isOutcome (h : ∀ e ∈ es, ∀ c, e.1 ≠ .breaker c) (name : String) :
    es.countP (isOutcome name) = 0 := by
  rw [List.countP_eq_zero]
  intro e he
  have hcmd := h e he
  obtain ⟨c, x⟩ := e
  cases c with
  | breaker c => exact absurd rfl (hcmd c)
  | _ => simp [isOutcome]

theorem not_breaker_of_isRecord {e : Event} (h : e.1.isRecord = true) :
    (∀ c, e.1 ≠ .breaker c) ∧ e.1 ≠ .aclose ∧ ∀ event, e.1 ≠ .yieldEvent event := by
  obtain ⟨c, x⟩ := e
  refine ⟨fun c' hc => ?_, fun hc => ?_, fun event hc => ?_⟩
  all_goals
    dsimp only at hc h
    rw [hc] at h
    cases h

/-- The outcome is the failure where the generator was closed or the upstream is at fault. -/
theorem outcomeOf_failure (hrelays : Relays s s.events .new es₁ (o, loopEnd))
    (h : outcomeOf o loopEnd = .partialError) :
    loopEnd = .raised .generatorExit ∨ AtFault es₁ := by
  have hexplains := explains_relays hrelays
  cases loopEnd with
  | exhausted =>
    obtain ⟨hended, hobserved⟩ := hexplains
    refine Or.inr (Or.inr (Or.inr ⟨hended, ?_⟩))
    rw [hobserved]
    by_contra hcomplete
    rw [outcomeOf, if_pos (Bool.eq_true_of_not_eq_false hcomplete)] at h
    cases h
  | disconnected => cases h
  | raised e =>
    cases e with
    | upstream => exact Or.inr (Or.inl hexplains)
    | invalid e => exact Or.inr (Or.inr (Or.inl hexplains))
    | generatorExit => exact Or.inl rfl
    | cancelledError => cases h
    | overflowError | valueError | store => exact hexplains.elim

theorem received_append (h : ∀ e ∈ es₂, ∀ pulled, e.1 ≠ .nextEvent pulled) :
    received (es₁ ++ es₂) = received es₁ := by
  unfold received
  rw [List.filterMap_append, List.append_right_eq_self, List.filterMap_eq_nil_iff]
  intro e he
  have hcmd := h e he
  obtain ⟨c, x⟩ := e
  cases c with
  | nextEvent pulled => exact absurd rfl (hcmd pulled)
  | _ => rfl

theorem mem_nextEvent_append (h : ∀ e ∈ es₂, ∀ pulled, e.1 ≠ .nextEvent pulled) (pulled : Pulled) :
    ⟨.nextEvent pulled, .came⟩ ∈ es₁ ++ es₂ ↔ (⟨.nextEvent pulled, .came⟩ : Event) ∈ es₁ := by
  rw [List.mem_append]
  exact or_iff_left fun hmem => h _ hmem pulled rfl

/-- Where nothing comes from the upstream, nothing is its fault. -/
theorem atFault_append (h : ∀ e ∈ es₂, ∀ pulled, e.1 ≠ .nextEvent pulled) :
    AtFault (es₁ ++ es₂) ↔ AtFault es₁ := by
  rw [AtFault, AtFault, received_append h, mem_nextEvent_append h, mem_nextEvent_append h]

/-- Settling asks the upstream for nothing. -/
theorem not_nextEvent_settle (closing : Closing) (name : String) (outcome : Outcome)
    (h : ∀ e ∈ rest, e.1.isRecord = true) :
    ∀ e ∈ (⟨.aclose, closing⟩ :: ⟨.breaker (outcome.call name), ()⟩ :: rest : List Event),
      ∀ pulled, e.1 ≠ .nextEvent pulled := by
  intro e he pulled hpulled
  rcases List.mem_cons.mp he with rfl | he
  · cases hpulled
  · rcases List.mem_cons.mp he with rfl | he
    · cases hpulled
    · have hrecord := h e he
      rw [hpulled] at hrecord
      cases hrecord

/-- What a loop that is left, an `aclose` that comes back and the records amount to. -/
theorem settled_run {closing : Closing} {r : Except Exc Unit}
    (hrelays : Relays s s.events .new es₁ (o, loopEnd)) (hclosing : closing ≠ .cancelled)
    (hrest : Recorded s o (outcomeOf o loopEnd) rest r) :
    Settled s (es₁ ++
      ⟨.aclose, closing⟩ :: ⟨.breaker ((outcomeOf o loopEnd).call s.name), ()⟩ :: rest)
      ↔ LeftInTime (es₁ ++ ⟨.aclose, closing⟩ ::
        ⟨.breaker ((outcomeOf o loopEnd).call s.name), ()⟩ :: rest) := by
  have hloop := loop_relays hrelays
  have hrecords : ∀ e ∈ rest, (∀ c, e.1 ≠ .breaker c) ∧ e.1 ≠ .aclose ∧
      ∀ event, e.1 ≠ .yieldEvent event := fun e he => not_breaker_of_isRecord (hrest.only e he)
  have hnext := not_nextEvent_settle closing s.name (outcomeOf o loopEnd) hrest.only
  -- a failure is reported at the end only, and for a partial error only
  have hfailure : (⟨.breaker (.recordFailure s.name), ()⟩ : Event) ∈ (es₁ ++ ⟨.aclose, closing⟩ ::
      ⟨.breaker ((outcomeOf o loopEnd).call s.name), ()⟩ :: rest) ↔
      outcomeOf o loopEnd = .partialError := by
    constructor
    · intro hmem
      rcases List.mem_append.mp hmem with hmem | hmem
      · exact absurd rfl ((hloop _ hmem).1 _)
      · rcases List.mem_cons.mp hmem with heq | hmem
        · cases heq
        · rcases List.mem_cons.mp hmem with heq | hmem
          · cases houtcome : outcomeOf o loopEnd <;> rw [houtcome] at heq <;> cases heq
          · exact absurd rfl ((hrecords _ hmem).1 _)
    · intro houtcome
      rw [houtcome]
      simp [Outcome.call]
  constructor
  · intro hsettled
    refine ⟨by simp, fun event hmem => ?_, fun hmem => ?_⟩
    · have hmem₁ : ⟨.yieldEvent event, .closed⟩ ∈ es₁ := by
        rcases List.mem_append.mp hmem with hmem | hmem
        · exact hmem
        · rcases List.mem_cons.mp hmem with heq | hmem
          · cases heq
          · rcases List.mem_cons.mp hmem with heq | hmem
            · cases heq
            · exact absurd rfl ((hrecords _ hmem).2.2 event)
      -- closed while an event was being sent: the provider is not at fault, yet a failure is
      -- reported
      have hexit : loopEnd = .raised .generatorExit := closedBy_relays hrelays event hmem₁
      have hexplains := explains_relays hrelays
      have hfault := (atFault_append hnext).mp
        (hsettled.fault (hfailure.mpr (by rw [hexit]; rfl)))
      rw [hexit] at hexplains
      obtain ⟨-, hno, hno', hvalid⟩ := hexplains
      rcases hfault with hraised | ⟨event', hmem', hinvalid⟩ | ⟨hended, -⟩
      · exact hno hraised
      · rw [hvalid event' hmem'] at hinvalid
        cases hinvalid
      · exact hno' hended
    · rcases List.mem_append.mp hmem with hmem | hmem
      · exact (hloop _ hmem).2 rfl
      · rcases List.mem_cons.mp hmem with heq | hmem
        · cases heq
          exact hclosing rfl
        · rcases List.mem_cons.mp hmem with heq | hmem
          · cases heq
          · exact (hrecords _ hmem).2.1 rfl
  · intro htime
    refine ⟨⟨closing, hclosing, by simp⟩, ?_, fun hmem => ?_⟩
    · rw [List.countP_append, countP_isOutcome fun e he => (hloop e he).1,
        List.countP_cons_of_neg (by simp [isOutcome]), List.countP_cons_of_pos (isOutcome_call _ _),
        countP_isOutcome fun e he => (hrecords e he).1]
    -- closed in time, so a failure that is reported is the provider's
    · refine (atFault_append hnext).mpr ?_
      rcases outcomeOf_failure hrelays (hfailure.mp hmem) with rfl | hfault
      · obtain ⟨⟨event, hclosed⟩, -⟩ := explains_relays hrelays
        exact absurd (List.mem_append_left _ hclosed) (htime.notYielding event)
      · exact hfault

/-- **A stream is settled if and only if its consumer leaves in time.** -/
theorem settled_iff (s : Stream) (es : List Event) (h : Lifetime s es) :
    Settled s es ↔ LeftInTime es := by
  cases h with
  | discarded =>
    constructor
    · intro hsettled
      obtain ⟨closing, -, hmem⟩ := hsettled.closed
      exact absurd hmem List.not_mem_nil
    · exact fun htime => absurd rfl htime.started
  | ran h =>
    obtain ⟨es₁, es₂, o, loopEnd, r', rfl, hrelays, hsettle⟩ := emits_downstream h
    rcases emits_settle hsettle with ⟨rfl, -⟩ | ⟨closing, rest, hclosing, rfl, hrest⟩
    · constructor
      · intro hsettled
        obtain ⟨closing, hclosing, hmem⟩ := hsettled.closed
        rcases List.mem_append.mp hmem with hmem | hmem
        · exact absurd rfl (loop_relays hrelays _ hmem).2
        · cases List.mem_singleton.mp hmem
          exact absurd rfl hclosing
      · exact fun htime => absurd (by simp) htime.notClosing
    · exact settled_run hrelays hclosing hrest

end

/-! ## Two runs of one stream -/

def helloStream : Stream := forcedStream "mock-a" helloOpened .finished

theorem settled_hello : ∃ es, Lifetime helloStream es ∧ Settled helloStream es := by
  obtain ⟨es, r, hes, hanswers⟩ := Prog.emits_exists undisturbed (downstream helloStream)
  refine ⟨es, .ran hes, (settled_iff helloStream es (.ran hes)).mpr ⟨?_, ?_, ?_⟩⟩
  · obtain ⟨es₁, es₂, o, loopEnd, r', rfl, hrelays, -⟩ := emits_downstream hes
    cases hrelays <;> simp
  · intro event hmem
    cases hanswers _ hmem
  · intro hmem
    cases hanswers _ hmem

/-- The consumer stops at the first chunk. -/
def leaves : (c : Cmd) → c.Reply
  | .yieldEvent _ => Resumed.closed
  | c => undisturbed c

/-- A consumer that leaves at a `yield` is held against the provider. -/
theorem left_at_yield : ∃ es, Lifetime helloStream es ∧ ¬ Settled helloStream es := by
  obtain ⟨es, r, hes, hanswers⟩ := Prog.emits_exists leaves (downstream helloStream)
  refine ⟨es, .ran hes, fun hsettled => ?_⟩
  have hvalid : isValid helloStream.served.result.firstEvent = true := by decide +kernel
  have husage : isUsageOnly helloStream.served.result.firstEvent = false := by decide +kernel
  obtain ⟨es₁, es₂, o, loopEnd, r', rfl, hrelays, hsettle⟩ := emits_downstream hes
  have hclosed : ⟨.yieldEvent helloStream.served.result.firstEvent, .closed⟩ ∈ es₁ := by
    cases hrelays with
    | waiting => cases hanswers _ List.mem_cons_self
    | asking | left => cases hanswers _ (List.mem_cons_of_mem _ List.mem_cons_self)
    | invalid raises =>
      rw [isValid, raises] at hvalid
      cases hvalid
    | hidden consumed hides rest =>
      have hhides := shown_eq hides
      rw [husage, Bool.not_false, Bool.or_true] at hhides
      cases hhides
    | closed => simp
    | yielded =>
      cases hanswers _ (List.mem_cons_of_mem _ (List.mem_cons_of_mem _ List.mem_cons_self))
  rcases emits_settle hsettle with ⟨rfl, -⟩ | ⟨closing, rest, hclosing, rfl, hrest⟩
  · cases hanswers _ (List.mem_append_right _ List.mem_cons_self)
  · have htime := (settled_run hrelays hclosing hrest).mp hsettled
    exact htime.notYielding _ (List.mem_append_left _ hclosed)

end PolyGate.Gateway.Downstream.Settlement
