import Mathlib.Data.List.Perm.Subperm
import PolyGate.Gateway.Failover

/-!
# `Gateway/SafeFailover.lean` — which providers a request is sent to

Every run of the two loops, over every registry, script of provider answers, sequence of health
maps and clock, as a list of events.

`Rounds` says what a round can be: a call and an end, or a call, one look at the health map and
another round for a provider that passed the gates under that map. It is derived from the loop
once, for both loops, and each guarantee is an induction over it.
-/

namespace PolyGate.Gateway.Failover

open Lib

/-! ## Reading a list of events -/

/-- The provider an event is a call of. -/
def Cmd.called : Cmd → Option Provider
  | .callProvider p | .openStream p => some p
  | _ => none

/-- The providers called, in order. -/
def called (es : List Event) : List Provider := es.filterMap fun e => e.1.called

/-- The health map an event read. -/
def snapshot? : Event → Option Health
  | ⟨.healthSnapshot, health⟩ => some health
  | _ => none

/-- The calls, each with the health map that was read last before it. -/
def callsUnder : Option Health → List Event → List (Option Health × Provider)
  | _, [] => []
  | last, e :: es =>
    (e.1.called.toList.map fun p => (last, p)) ++ callsUnder ((snapshot? e).or last) es

/-- The health map read last. -/
def lastSnapshot : Option Health → List Event → Option Health
  | last, [] => last
  | last, e :: es => lastSnapshot ((snapshot? e).or last) es

/-- The error is the retry budget's. -/
def overBudget {α : Type} : Except Raised α → Bool
  | .error ⟨.retryBudgetExceeded _, _⟩ => true
  | _ => false

/-- The event tells the loop that the request budget is exhausted. -/
def exhaustsBudget : Event → Bool
  | ⟨.callProvider _, reply⟩ => overBudget reply
  | ⟨.openStream _, reply⟩ => overBudget reply
  | ⟨.deadlineExpired, expired⟩ => expired
  | _ => false

/-- Commands of a round beside the call: nothing depends on their order. -/
def Cmd.isMetric : Cmd → Prop
  | .recordProvider _ _ | .recordFailover _ _ | .recordBudgetExhausted _ | .recordStream _
  | .setMetricOutcome _ => True
  | _ => False

/-- The providers called in a run. -/
theorem called_append (es es' : List Event) : called (es ++ es') = called es ++ called es' :=
  List.filterMap_append

theorem called_eq_nil {es : List Event} : called es = [] ↔ ∀ e ∈ es, e.1.called = none :=
  List.filterMap_eq_nil_iff

/-- A call is made under the last snapshot before it. -/
theorem callsUnder_append (last : Option Health) (es es' : List Event) :
    callsUnder last (es ++ es') = callsUnder last es ++ callsUnder (lastSnapshot last es) es' := by
  induction es generalizing last with
  | nil => rfl
  | cons e es ih =>
    rw [List.cons_append, callsUnder, callsUnder, lastSnapshot, ih, List.append_assoc]

theorem callsUnder_eq_nil {es : List Event} (h : ∀ e ∈ es, e.1.called = none)
    (last : Option Health) : callsUnder last es = [] := by
  induction es generalizing last with
  | nil => rfl
  | cons e es ih =>
    rw [callsUnder, h e List.mem_cons_self, ih fun e' he' => h e' (List.mem_cons_of_mem _ he')]
    rfl

/-- Metrics take no snapshot. -/
theorem lastSnapshot_of_isMetric {es : List Event} (h : ∀ e ∈ es, e.1.isMetric)
    (last : Option Health) : lastSnapshot last es = last := by
  induction es with
  | nil => rfl
  | cons e es ih =>
    have he : snapshot? e = none := by
      have hm := h e List.mem_cons_self
      obtain ⟨c, x⟩ := e
      cases c <;> first | rfl | exact hm.elim
    rw [lastSnapshot, he]
    exact ih fun e' he' => h e' (List.mem_cons_of_mem _ he')

theorem Cmd.isMetric.called {c : Cmd} (h : c.isMetric) : c.called = none := by
  cases c <;> first | rfl | exact h.elim

theorem exhaustsBudget_of_isMetric {e : Event} (h : e.1.isMetric) : exhaustsBudget e = false := by
  obtain ⟨c, x⟩ := e
  cases c <;> first | rfl | exact h.elim

/-! ## What a round can be -/

/-- What the two loops have in common: an attempt is one call, and all else is counting. -/
structure Variant.Calls {α : Type} (v : Variant α) : Prop where
  attempt : ∀ {p : Provider} {es : List Event} {o : Except HandlerExc (Except Raised α)},
    Prog.Emits (v.attempt p) es o → ∃ e reply, es = [e] ∧ o = .ok reply ∧
      e.1.called = some p ∧ exhaustsBudget e = overBudget reply
  succeeded : ∀ p, Prog.Only Cmd.isMetric (v.succeeded p)
  recordStream : ∀ outcome, Prog.Only Cmd.isMetric (v.recordStream outcome)

theorem nonStream_calls : nonStream.Calls where
  attempt h := by
    obtain ⟨reply, _, rfl, rfl, rfl⟩ := h
    exact ⟨_, reply, rfl, rfl, rfl, rfl⟩
  succeeded _ := Prog.only_perform.mpr trivial
  recordStream _ := trivial

theorem streamOpen_calls : streamOpen.Calls where
  attempt h := by
    obtain ⟨reply, _, rfl, rfl, rfl⟩ := h
    exact ⟨_, reply, rfl, rfl, rfl, rfl⟩
  succeeded _ := trivial
  recordStream _ := Prog.only_perform.mpr trivial

variable {ctx : Context} {α : Type} {v : Variant α}

/-- The candidate passed the gates under the health map. -/
def Passes (ctx : Context) (health : Health) (candidates : List Provider) (p : Provider) : Prop :=
  p ∈ gated candidates ctx.req.polygate health ctx.requiredCapabilities

/-- The events of the loop from the round that tries `chosen`, after `tried`, to its end. -/
inductive Rounds (ctx : Context) : List String → Provider → List Event →
    Except HandlerExc (Served α) → Prop
  /-- the provider answered -/
  | served {tried : List String} {chosen : Provider} {e : Event} {es : List Event} {s : Served α}
      (call : e.1.called = some chosen) (inTime : exhaustsBudget e = false)
      (counting : ∀ e' ∈ es, e'.1.isMetric)
      (isChosen : s.chosen = chosen) (names : s.triedNames = tried ++ [chosen.name]) :
      Rounds ctx tried chosen (e :: es) (.ok s)
  /-- the request ended without an answer -/
  | ended {tried : List String} {chosen : Provider} {e : Event} {es : List Event}
      {exc : HandlerExc} (call : e.1.called = some chosen)
      (noCall : ∀ e' ∈ es, e'.1.called = none) : Rounds ctx tried chosen (e :: es) (.error exc)
  /-- another provider was selected -/
  | next {tried : List String} {chosen fallback : Provider} {e : Event}
      {before after es : List Event} {health : Health} {o : Except HandlerExc (Served α)}
      (call : e.1.called = some chosen) (inTime : exhaustsBudget e = false)
      (noCall : ∀ e' ∈ before, e'.1.called = none ∧ exhaustsBudget e' = false)
      (counting : ∀ e' ∈ after, e'.1.isMetric) (auto : ctx.req.model = "auto")
      (passes : Passes ctx health (untried ctx (tried ++ [chosen.name])) fallback)
      (rest : Rounds ctx (tried ++ [chosen.name]) fallback es o) :
      Rounds ctx tried chosen (e :: before ++ ⟨.healthSnapshot, health⟩ :: after ++ es) o

/-! ## The parts of a round -/

section Parts

variable {es : List Event}

/-- A choice is made from a fresh snapshot, and passes the filters under it. -/
theorem emits_select {candidates : List Provider} {o : Except HandlerExc (Selected candidates)}
    (h : Prog.Emits (select ctx candidates) es o) :
    ∃ health, es = [⟨.healthSnapshot, health⟩] ∧
      ((∃ sel, o = .ok sel ∧ Passes ctx health candidates sel.chosen) ∨
        ∃ e, o = .error (.httpException 503 (.routing e))) := by
  simp only [select, Prog.perform_bind, Prog.emits_cmd, Prog.onReply_ok] at h
  obtain ⟨health, es', rfl, h⟩ := h
  apply Exists.intro health
  split at h
  · rename_i sel hsel
    obtain ⟨rfl, rfl⟩ := h
    exact ⟨rfl, Or.inl ⟨_, rfl, selectProvider_mem hsel⟩⟩
  · rename_i e he
    obtain ⟨rfl, rfl⟩ := h
    exact ⟨rfl, Or.inr ⟨e, rfl⟩⟩

/-- A fallback too, or there is none. -/
theorem emits_selectFallback {candidates : List Provider}
    {o : Except HandlerExc (Option (Selected candidates))}
    (h : Prog.Emits (selectFallback ctx candidates) es o) :
    ∃ health, es = [⟨.healthSnapshot, health⟩] ∧
      (o = .ok none ∨ ∃ sel, o = .ok (some sel) ∧ Passes ctx health candidates sel.chosen) := by
  rcases Prog.emits_catch.mp h with ⟨a, h₀, rfl⟩ | ⟨es₁, es₂, e, rfl, h₁, h₂⟩
  · rcases Prog.emits_bind.mp h₀ with ⟨es₁, es₂, sel, rfl, h₁, h₂⟩ | ⟨e, -, ho⟩
    · obtain ⟨rfl, ha⟩ := h₂
      cases ha
      obtain ⟨health, rfl, ⟨_, ho, hp⟩ | ⟨e, ho⟩⟩ := emits_select h₁
      · cases ho
        exact ⟨health, by simp, Or.inr ⟨sel, rfl, hp⟩⟩
      · cases ho
    · cases ho
  · rcases Prog.emits_bind.mp h₁ with ⟨_, _, _, _, -, -, ho⟩ | ⟨e', h₁, he⟩
    · cases ho
    · cases he
      obtain ⟨health, rfl, ⟨_, ho, -⟩ | ⟨_, ho⟩⟩ := emits_select h₁
      · cases ho
      · cases ho
        obtain ⟨rfl, rfl⟩ := h₂
        exact ⟨health, by simp, Or.inl rfl⟩

/-- A program that only counts, and ends in an exception. -/
structure Stops {β : Type} (p : Gw β) : Prop where
  counting : Prog.Only Cmd.isMetric p
  raises : ∀ {es : List Event} {o : Except HandlerExc β}, Prog.Emits p es o →
    ∃ exc, o = .error exc

theorem stops_raise {β : Type} (exc : HandlerExc) : Stops (.raise exc : Gw β) :=
  ⟨trivial, fun h => ⟨exc, h.2⟩⟩

/-- Recording first changes nothing of that. -/
theorem Stops.after {β : Type} {m : Gw Unit} (hm : Prog.Only Cmd.isMetric m) {p : Gw β}
    (hp : Stops p) : Stops (do m; p) where
  counting := hm.bind fun _ => hp.counting
  raises h := by
    rcases Prog.emits_bind.mp h with ⟨_, _, _, -, -, h⟩ | ⟨exc, -, ho⟩
    · exact hp.raises h
    · exact ⟨exc, ho⟩

theorem stops_stopOverBudget {β : Type} (hv : v.Calls) : Stops (stopOverBudget v : Gw β) := by
  unfold stopOverBudget
  apply Stops.after (Prog.only_perform.mpr trivial)
  apply Stops.after (Prog.only_perform.mpr trivial)
  exact Stops.after (hv.recordStream _) (stops_raise _)

/-- Giving up calls nobody. -/
theorem stops_giveUp {β : Type} (hv : v.Calls) (timedOut : Bool) (exc : Exc) :
    Stops (giveUp v timedOut exc : Gw β) := by
  unfold giveUp
  split
  · apply Stops.after (Prog.only_perform.mpr trivial)
    exact Stops.after (hv.recordStream _) (stops_raise _)
  · apply Stops.after (Prog.only_perform.mpr trivial)
    exact Stops.after (hv.recordStream _) (stops_raise _)

/-- Whether the budget is exhausted is read off the error, or off the clock. -/
theorem emits_requestBudgetExhausted {exc : Exc} {o : Except HandlerExc Bool}
    (h : Prog.Emits (requestBudgetExhausted exc) es o) :
    ∃ exhausted, o = .ok exhausted ∧
      (∀ e ∈ es, e.1.called = none ∧ exhaustsBudget e = exhausted) ∧
      ∀ retries, exhausted = false →
        overBudget (.error ⟨exc, retries⟩ : Except Raised α) = false := by
  unfold requestBudgetExhausted at h
  split at h
  · obtain ⟨rfl, rfl⟩ := h
    exact ⟨true, rfl, by simp, by simp⟩
  · rename_i hexc
    obtain ⟨expired, _, rfl, rfl, rfl⟩ := h
    refine ⟨expired, rfl, by simp [Cmd.called, exhaustsBudget], fun _ _ => ?_⟩
    unfold overBudget
    split
    · rename_i name _ heq
      cases heq
      exact absurd rfl (hexc name)
    · rfl

/-- Only an automatic request has anybody left to try. -/
theorem remaining_eq {tried : List String} (h : remaining ctx tried ≠ []) :
    ctx.req.model = "auto" ∧ remaining ctx tried = untried ctx tried := by
  unfold remaining at h ⊢
  split_ifs at h ⊢ with hm
  · exact absurd rfl h
  · exact ⟨not_not.mp hm, rfl⟩

/-- Nothing in the `except` clause calls a provider. When it goes on, the budget was not exhausted
and the fallback passed the gates under the one health map it read. -/
theorem emits_afterFailure (hv : v.Calls) {chosen : Provider} {tried : List String} {exc : Exc}
    {o : Except HandlerExc (Selected (remaining ctx tried))}
    (h : Prog.Emits (afterFailure ctx v chosen tried exc) es o) :
    (∀ e ∈ es, e.1.called = none) ∧
      ((∃ exc, o = .error exc) ∨
        ∃ fallback health before, o = .ok fallback ∧ es = before ++ [⟨.healthSnapshot, health⟩] ∧
          (∀ e ∈ before, exhaustsBudget e = false) ∧
          (∀ retries, overBudget (.error ⟨exc, retries⟩ : Except Raised α) = false) ∧
          ctx.req.model = "auto" ∧ Passes ctx health (untried ctx tried) fallback.chosen) := by
  have hstop : ∀ {p : Gw (Selected (remaining ctx tried))} {es : List Event}, Stops p →
      Prog.Emits p es o → (∀ e ∈ es, e.1.called = none) ∧ ∃ exc, o = .error exc :=
    fun hp h => ⟨fun e he => (hp.counting.emits h e he).called, hp.raises h⟩
  unfold afterFailure at h
  by_cases hc : exc = .cancelledError
  · rw [if_pos hc] at h
    obtain ⟨rfl, rfl⟩ := h
    exact ⟨by simp, Or.inl ⟨_, rfl⟩⟩
  · rw [if_neg hc] at h
    rcases Prog.emits_bind.mp h with ⟨es₁, es₂, exhausted, rfl, h₁, h₂⟩ | ⟨exc, h₁, rfl⟩
    · obtain ⟨_, ho, hquiet, hin⟩ := emits_requestBudgetExhausted (α := α) h₁
      cases ho
      simp only [Prog.perform_bind, Prog.emits_cmd, Prog.onReply_ok] at h₂
      obtain ⟨x, es₃, rfl, h₃⟩ := h₂
      suffices hsuff : (∀ e ∈ es₃, e.1.called = none) ∧
          ((∃ exc, o = .error exc) ∨ ∃ fallback health, o = .ok fallback ∧
            es₃ = [⟨.healthSnapshot, health⟩] ∧ exhausted = false ∧ ctx.req.model = "auto" ∧
            Passes ctx health (untried ctx tried) fallback.chosen) by
        obtain ⟨hno, hends⟩ := hsuff
        refine ⟨?_, hends.imp id ?_⟩
        · intro e he
          rcases List.mem_append.mp he with he | he
          · exact (hquiet e he).1
          · rcases List.mem_cons.mp he with rfl | he
            · rfl
            · exact hno e he
        · rintro ⟨fallback, health, ho, rfl, hex, hauto, hpass⟩
          refine ⟨fallback, health, es₁ ++ [⟨.recordProvider _ _, x⟩], ho, by simp, ?_,
            fun retries => ?_, hauto, hpass⟩
          · intro e he
            rcases List.mem_append.mp he with he | he
            · exact (hquiet e he).2.trans hex
            · rw [List.mem_singleton] at he
              exact he ▸ rfl
          · exact hin retries hex
      split_ifs at h₃ with hex hrem
      · exact (hstop (stops_stopOverBudget hv) h₃).imp id Or.inl
      · exact (hstop (stops_giveUp hv _ _) h₃).imp id Or.inl
      · obtain ⟨hauto, hremaining⟩ := remaining_eq hrem
        rcases Prog.emits_bind.mp h₃ with ⟨es₄, es₅, selection, rfl, h₄, h₅⟩ | ⟨exc, h₄, rfl⟩
        · obtain ⟨health, rfl, ho | ⟨sel, ho, hpass⟩⟩ := emits_selectFallback h₄
          · cases ho
            obtain ⟨hno, hend⟩ := hstop (stops_giveUp hv _ _) h₅
            refine ⟨?_, Or.inl hend⟩
            simpa [Cmd.called] using hno
          · cases ho
            obtain ⟨rfl, rfl⟩ := h₅
            refine ⟨by simp [Cmd.called],
              Or.inr ⟨sel, health, rfl, rfl, by simpa using hex, hauto, ?_⟩⟩
            exact (congrArg (fun l => Passes ctx health l sel.chosen) hremaining).mp hpass
        · obtain ⟨_, _, ho | ⟨_, ho, _⟩⟩ := emits_selectFallback h₄
          · cases ho
          · cases ho
    · obtain ⟨_, ho, -⟩ := emits_requestBudgetExhausted (α := α) h₁
      cases ho

end Parts

/-- What the loop does is a series of rounds. -/
theorem rounds_failover (hv : v.Calls) {tried : List String} {chosen : Provider} {reason : Reason}
    {failedRetries : Nat} {es : List Event} {o : Except HandlerExc (Served α)}
    (h : Prog.Emits (failover ctx v chosen reason tried failedRetries) es o) :
    Rounds ctx tried chosen es o := by
  induction hn : (untried ctx (tried ++ [chosen.name])).length using Nat.strong_induction_on
    generalizing tried chosen reason failedRetries es o with
  | _ n ih =>
  -- each round has one name fewer left to try
  subst hn
  rw [failover] at h
  rcases Prog.emits_bind.mp h with ⟨es₁, es₂, reply, rfl, h₁, h₂⟩ | ⟨exc, h₁, rfl⟩
  · obtain ⟨e, reply', rfl, hr, hcall, hex⟩ := hv.attempt h₁
    cases hr
    cases reply with
    | ok result =>
      rcases Prog.emits_bind.mp h₂ with ⟨es₃, es₄, _, rfl, h₃, rfl, rfl⟩ | ⟨exc, h₃, rfl⟩
      · refine .served hcall hex ?_ rfl rfl
        simpa using (hv.succeeded chosen).emits h₃
      · refine .ended hcall fun e' he' => ?_
        exact ((hv.succeeded chosen).emits h₃ e' he').called
    | error raised =>
      rcases Prog.emits_bind.mp h₂ with ⟨es₃, es₄, fallback, rfl, h₃, h₄⟩ | ⟨exc, h₃, rfl⟩
      · obtain ⟨hno, ⟨_, ho⟩ | ⟨_, health, before, ho, rfl, hb, hin, hauto, hpass⟩⟩ :=
          emits_afterFailure hv h₃
        · cases ho
        · cases ho
          simp only [Prog.perform_bind, Prog.emits_cmd, Prog.onReply_ok] at h₄
          obtain ⟨x, es₅, rfl, h₅⟩ := h₄
          have hrest := ih _ (untried_length_lt ctx fallback.mem) h₅ rfl
          have hmetric : ∀ e' ∈ ([⟨.recordFailover _ _, x⟩] : List Event), e'.1.isMetric := by
            simp [Cmd.isMetric]
          have hround := Rounds.next hcall (hex.trans (hin _))
            (fun e' he' => ⟨hno e' (by simp [he']), hb e' he'⟩)
            hmetric hauto hpass hrest
          simpa using hround
      · exact .ended hcall (emits_afterFailure hv h₃).1
  · obtain ⟨_, _, _, ho, _⟩ := hv.attempt h₁
    cases ho

/-! ## What follows of the calls -/

namespace Rounds

variable {tried : List String} {chosen : Provider} {es : List Event}
  {o : Except HandlerExc (Served α)}

theorem called_next {e : Event} {before after es : List Event} {health : Health}
    (call : e.1.called = some chosen)
    (noCall : ∀ e' ∈ before, e'.1.called = none ∧ exhaustsBudget e' = false)
    (counting : ∀ e' ∈ after, e'.1.isMetric) :
    called (e :: before ++ ⟨.healthSnapshot, health⟩ :: after ++ es) = chosen :: called es := by
  have hb : called before = [] := called_eq_nil.mpr fun e' he' => (noCall e' he').1
  have ha : called after = [] := called_eq_nil.mpr fun e' he' => (counting e' he').called
  have hcons : ∀ l, called (e :: l) = chosen :: called l := fun l => by
    simp [called, call]
  have hsnap : ∀ l, called (⟨.healthSnapshot, health⟩ :: l) = called l := fun l => by
    simp [called, Cmd.called]
  rw [List.cons_append, List.cons_append, hcons, called_append, called_append, hb, hsnap, ha]
  rfl

theorem called_last {e : Event} {es : List Event} (call : e.1.called = some chosen)
    (noCall : ∀ e' ∈ es, e'.1.called = none) : called (e :: es) = [chosen] := by
  have h := called_eq_nil.mpr noCall
  simp only [called] at h
  simp [called, call, h]

/-- The provider that is chosen is called first. -/
theorem called_cons (h : Rounds ctx tried chosen es o) : ∃ ps, called es = chosen :: ps := by
  cases h with
  | served call _ counting =>
    exact ⟨[], called_last call fun e' he' => (counting e' he').called⟩
  | ended call noCall => exact ⟨[], called_last call noCall⟩
  | next call _ noCall counting => exact ⟨_, called_next call noCall counting⟩

/-- What the first choice has, and every provider that passes the gates, every called one has. -/
theorem forall_called {P : Provider → Prop} (h : Rounds ctx tried chosen es o) (h0 : P chosen)
    (hP : ∀ health candidates p, ctx.req.model = "auto" → candidates ⊆ ctx.providers →
      Passes ctx health candidates p → P p) : ∀ p ∈ called es, P p := by
  induction h with
  | served call _ counting =>
    rw [called_last call fun e' he' => (counting e' he').called]
    simpa using h0
  | ended call noCall =>
    rw [called_last call noCall]
    simpa using h0
  | next call _ noCall counting auto passes _ ih =>
    rw [called_next call noCall counting]
    refine List.forall_mem_cons.mpr ⟨h0, ih (hP _ _ _ auto ?_ passes)⟩
    exact List.filter_subset_self _

/-- No name is called twice. -/
theorem names_nodup (h : Rounds ctx tried chosen es o) (hnew : (tried ++ [chosen.name]).Nodup) :
    (tried ++ (called es).map (·.name)).Nodup := by
  induction h with
  | served call _ counting =>
    rw [called_last call fun e' he' => (counting e' he').called]
    exact hnew
  | ended call noCall =>
    rw [called_last call noCall]
    exact hnew
  | @next tried chosen fallback _ _ _ _ _ _ call _ noCall counting _ passes _ ih =>
    rw [called_next call noCall counting, List.map_cons, List.append_cons]
    apply ih
    have huntried : fallback ∈ untried ctx (tried ++ [chosen.name]) := (mem_gated.mp passes).1
    have hfresh : fallback.name ∉ tried ++ [chosen.name] := by
      simpa using (List.mem_filter.mp huntried).2
    rw [List.nodup_append]
    refine ⟨hnew, List.nodup_singleton _, ?_⟩
    rintro a ha b hb rfl
    rw [List.mem_singleton] at hb
    exact hfresh (hb ▸ ha)

/-- A forced one is the only one. -/
theorem called_forced (h : Rounds ctx tried chosen es o) (hm : ctx.req.model ≠ "auto") :
    called es = [chosen] := by
  cases h with
  | served call _ counting => exact called_last call fun e' he' => (counting e' he').called
  | ended call noCall => exact called_last call noCall
  | next _ _ _ _ auto => exact absurd auto hm

/-- A success lists the names called. -/
theorem triedNames_eq (h : Rounds ctx tried chosen es o) :
    ∀ s, o = .ok s → s.triedNames = tried ++ (called es).map (·.name) := by
  induction h with
  | served call _ counting _ names =>
    intro s hs
    cases hs
    rw [called_last call fun e' he' => (counting e' he').called, names]
    rfl
  | ended => exact fun s hs => nomatch hs
  | next call _ noCall counting _ _ _ ih =>
    intro s hs
    rw [called_next call noCall counting, List.map_cons, List.append_cons]
    exact ih s hs

/-- Every call is of a provider that the health map it was selected under did not exclude. -/
theorem calls_healthy (h : Rounds ctx tried chosen es o) {last : Option Health}
    (h0 : ∃ health, last = some health ∧ healthy chosen.name health = true) :
    ∀ c ∈ callsUnder last es, ∃ health, c.1 = some health ∧ healthy c.2.name health = true := by
  have hone : ∀ {e : Event} {es : List Event} {chosen : Provider} {last : Option Health},
      e.1.called = some chosen → (∀ e' ∈ es, e'.1.called = none) →
      callsUnder last (e :: es) = [(last, chosen)] := by
    intro e es chosen last call noCall
    rw [callsUnder, call, callsUnder_eq_nil noCall]
    rfl
  induction h generalizing last with
  | served call _ counting =>
    rw [hone call fun e' he' => (counting e' he').called]
    simpa using h0
  | ended call noCall =>
    rw [hone call noCall]
    simpa using h0
  | @next _ _ _ e before after _ health _ call _ noCall counting _ passes _ ih =>
    have hfirst : ∀ e' ∈ before ++ ⟨.healthSnapshot, health⟩ :: after, e'.1.called = none := by
      intro e' he'
      rcases List.mem_append.mp he' with he' | he'
      · exact (noCall e' he').1
      · rcases List.mem_cons.mp he' with rfl | he'
        · rfl
        · exact (counting e' he').called
    have hlast : ∀ l last, lastSnapshot last (l ++ ⟨.healthSnapshot, health⟩ :: after) =
        some health := by
      intro l
      induction l with
      | nil =>
        intro last
        rw [List.nil_append, lastSnapshot, lastSnapshot_of_isMetric counting]
        rfl
      | cons e' l ih => exact fun last => ih _
    rw [callsUnder_append, List.cons_append, hone call hfirst, ← List.cons_append, hlast]
    refine List.forall_mem_cons.mpr ⟨h0, ih ⟨health, rfl, ?_⟩⟩
    exact (mem_gated.mp passes).2.2.2

/-- Nothing is called after the budget was found exhausted. -/
theorem budget_final (h : Rounds ctx tried chosen es o) :
    es.Pairwise fun e e' => exhaustsBudget e = true → e'.1.called = none := by
  induction h with
  | served call inTime counting =>
    refine List.pairwise_cons.mpr ⟨fun e' he' _ => (counting e' he').called, ?_⟩
    exact List.pairwise_of_forall_mem_list fun e' _ e'' he'' _ => (counting e'' he'').called
  | ended call noCall =>
    refine List.pairwise_cons.mpr ⟨fun e' he' _ => noCall e' he', ?_⟩
    exact List.pairwise_of_forall_mem_list fun e' _ e'' he'' _ => noCall e'' he''
  | @next _ _ _ e before after _ health _ _ inTime noCall counting _ _ _ ih =>
    have hfirst : ∀ e' ∈ e :: before ++ ⟨.healthSnapshot, health⟩ :: after,
        exhaustsBudget e' = false := by
      intro e' he'
      rcases List.mem_append.mp he' with he' | he'
      · rcases List.mem_cons.mp he' with rfl | he'
        · exact inTime
        · exact (noCall e' he').2
      · rcases List.mem_cons.mp he' with rfl | he'
        · rfl
        · exact exhaustsBudget_of_isMetric (counting e' he')
    have hno : ∀ e' ∈ e :: before ++ ⟨.healthSnapshot, health⟩ :: after, ∀ {P : Prop},
        exhaustsBudget e' = true → P := by
      intro e' he' P hex
      rw [hfirst e' he'] at hex
      cases hex
    refine List.pairwise_append.mpr ⟨?_, ih, fun e' he' _ _ => hno e' he'⟩
    exact List.pairwise_of_forall_mem_list fun e' he' _ _ => hno e' he'

end Rounds

/-! ## The first choice -/

theorem forcedProvider_none (h : forcedProvider ctx = .ok none) : ctx.req.model = "auto" := by
  by_contra hm
  simp only [forcedProvider, if_neg hm] at h
  split at h
  · cases h
  · split_ifs at h
    cases h

/-- A forced provider is one of the registry that has the capabilities. -/
theorem forcedProvider_some {p : Provider} (h : forcedProvider ctx = .ok (some p)) :
    ctx.req.model ≠ "auto" ∧ p.name = ctx.req.model ∧ p ∈ ctx.providers ∧
      missingCapabilities p ctx.requiredCapabilities = [] := by
  unfold forcedProvider at h
  by_cases hm : ctx.req.model = "auto"
  · rw [if_pos hm] at h
    cases h
  rw [if_neg hm] at h
  split at h
  · cases h
  · rename_i forced hfind
    simp only [ne_eq, ite_not] at h
    split_ifs at h with hpriv hmissing
    cases h
    have hname : p.name = ctx.req.model := by simpa using List.find?_some hfind
    exact ⟨hm, hname, List.mem_of_find?_eq_some hfind, hmissing⟩

/-- The first choice, and the events of making it. -/
inductive Routed (ctx : Context) : List Event → Except HandlerExc (Provider × Reason) → Prop
  | forced {p : Provider} {reason : Reason} (h : forcedProvider ctx = .ok (some p)) :
      Routed ctx [] (.ok (p, reason))
  | refused {exc : HandlerExc} (h : forcedProvider ctx = .error exc) : Routed ctx [] (.error exc)
  | selected {p : Provider} {reason : Reason} {health : Health} (auto : ctx.req.model = "auto")
      (passes : Passes ctx health ctx.providers p) :
      Routed ctx [⟨.healthSnapshot, health⟩] (.ok (p, reason))
  | noSelection {health : Health} {exc : HandlerExc} (auto : ctx.req.model = "auto") :
      Routed ctx [⟨.healthSnapshot, health⟩] (.error exc)

/-- The first choice. -/
theorem routed_route {es : List Event} {o : Except HandlerExc (Provider × Reason)}
    (h : Prog.Emits (route ctx) es o) : Routed ctx es o := by
  unfold route at h
  cases hf : forcedProvider ctx with
  | error exc =>
    rw [hf] at h
    obtain ⟨rfl, rfl⟩ := h
    exact .refused hf
  | ok forced =>
    rw [hf] at h
    cases forced with
    | some p =>
      obtain ⟨rfl, rfl⟩ := h
      exact .forced hf
    | none =>
      have hauto := forcedProvider_none hf
      have h' : Prog.Emits (do
          let sel ← select ctx ctx.providers
          return (sel.chosen, .selected sel.reason)) es o := h
      rcases Prog.emits_bind.mp h' with ⟨es₁, es₂, sel, rfl, h₁, rfl, rfl⟩ | ⟨exc, h₁, rfl⟩
      · obtain ⟨health, rfl, ⟨_, ho, hp⟩ | ⟨_, ho⟩⟩ := emits_select h₁
        · cases ho
          exact .selected hauto hp
        · cases ho
      · obtain ⟨health, rfl, -⟩ := emits_select h₁
        exact .noSelection hauto

/-! ## The guarantee -/

/-- What holds of the events of a request and of how it ended. -/
structure Safe (ctx : Context) (es : List Event) (o : Except HandlerExc (Served α)) : Prop where
  /-- each name once -/
  once : ((called es).map (·.name)).Nodup
  /-- at most one round for each registered provider -/
  finite : (called es).length ≤ ctx.providers.length
  private_ : ctx.req.model = "auto" → ctx.req.polygate.privacy = .high →
    ∀ p ∈ called es, p.privacy = some (.str (str "internal"))
  capable : ∀ p ∈ called es, missingCapabilities p ctx.requiredCapabilities = []
  /-- not down in the health map it was selected under -/
  notDown : ctx.req.model = "auto" →
    ∀ c ∈ callsUnder none es, ∃ health, c.1 = some health ∧ healthy c.2.name health = true
  forced : ctx.req.model ≠ "auto" →
    (∃ exc, forcedProvider ctx = .error exc ∧ called es = []) ∨
      ∃ p, forcedProvider ctx = .ok (some p) ∧ p.name = ctx.req.model ∧ called es = [p]
  /-- no call after the request budget was exhausted -/
  budget : es.Pairwise fun e e' => exhaustsBudget e = true → e'.1.called = none
  /-- what a success says of the failovers, and that a record of it is accepted -/
  success : ∀ s, o = .ok s → ∃ first ∈ (called es).head?,
    s.triedNames.head? = some first.name ∧
    s.failoverCount = (called es).length - 1 ∧
    s.failoverFrom = (if 0 < s.failoverCount then some first.name else none) ∧
    ∀ ttl cost latencyMs tokens requestId retries outcome stream now,
      (decisionRecord ttl (s.card cost latencyMs tokens requestId retries) outcome first.name
        stream s.failoverCount now).validateFailoverFields = .ok ()

/-- A request that fails before any call is safe. -/
theorem safe_of_no_call {es : List Event} {exc : HandlerExc}
    (h : ∀ e ∈ es, e.1.called = none) (hf : ctx.req.model ≠ "auto" →
      ∃ exc, forcedProvider ctx = .error exc) : Safe ctx es (.error exc : Except _ (Served α)) := by
  have hnil : called es = [] := called_eq_nil.mpr h
  refine ⟨by simp [hnil], by simp [hnil], by simp [hnil], by simp [hnil], ?_, ?_, ?_,
    fun s hs => nomatch hs⟩
  · simp [callsUnder_eq_nil h]
  · intro hm
    obtain ⟨exc, hexc⟩ := hf hm
    exact Or.inl ⟨exc, hexc, hnil⟩
  · exact List.pairwise_of_forall_mem_list fun e _ e' he' _ => h e' he'

/-- The two fields of a success, from the names it tried. -/
theorem failoverFrom_cons {s : Served α} {name : String} {names : List String}
    (h : s.triedNames = name :: names) :
    s.failoverFrom = (if 0 < s.failoverCount then some name else none) ∧
      (s.failoverFrom.isSome = true ↔ 0 < s.failoverCount) := by
  unfold Served.failoverFrom Served.failoverCount
  rw [h]
  cases names with
  | nil => simp
  | cons other names => simp

/-- A series of rounds is safe: no provider twice, each one healthy when it was chosen, and none
after an answer. -/
theorem safe_of_rounds {before es : List Event} {o : Except HandlerExc (Served α)}
    {chosen : Provider} {reason : Reason} (hr : Routed ctx before (.ok (chosen, reason)))
    (h : Rounds ctx [] chosen es o) : Safe ctx (before ++ es) o := by
  -- what the first choice is known to have
  have hfirst : chosen ∈ ctx.providers ∧ missingCapabilities chosen ctx.requiredCapabilities = [] ∧
      (ctx.req.model = "auto" → ctx.req.polygate.privacy = .high →
        chosen.privacy = some (.str (str "internal"))) ∧
      (ctx.req.model ≠ "auto" → forcedProvider ctx = .ok (some chosen)) ∧
      (∀ e ∈ before, e.1.called = none ∧ exhaustsBudget e = false) ∧
      (ctx.req.model = "auto" → ∃ health, lastSnapshot none before = some health ∧
        healthy chosen.name health = true) := by
    cases hr with
    | forced hf =>
      obtain ⟨hm, -, hmem, hcap⟩ := forcedProvider_some hf
      exact ⟨hmem, hcap, fun ha => absurd ha hm, fun _ => hf, by simp, fun ha => absurd ha hm⟩
    | selected hauto hp =>
      obtain ⟨hmem, hpriv, hcap, hh⟩ := mem_gated.mp hp
      refine ⟨hmem, hcap, fun _ => hpriv, fun hm => absurd hauto hm, ?_, fun _ => ⟨_, rfl, hh⟩⟩
      simp [Cmd.called, exhaustsBudget]
  obtain ⟨hmem, hcap, hpriv, hforced, hquiet, hhealth⟩ := hfirst
  have hnil : called before = [] := called_eq_nil.mpr fun e he => (hquiet e he).1
  have hcalled : called (before ++ es) = called es := by rw [called_append, hnil, List.nil_append]
  have hgates := h.forall_called (P := fun p => p ∈ ctx.providers ∧
      missingCapabilities p ctx.requiredCapabilities = [] ∧
      (ctx.req.model = "auto" → ctx.req.polygate.privacy = .high →
        p.privacy = some (.str (str "internal")))) ⟨hmem, hcap, hpriv⟩ <| by
    intro health candidates p _ hsub hp
    obtain ⟨hmem, hpriv, hcap, -⟩ := mem_gated.mp hp
    exact ⟨hsub hmem, hcap, fun _ => hpriv⟩
  have hnodup : ((called es).map (·.name)).Nodup := by
    simpa using h.names_nodup (by simp)
  refine ⟨hcalled ▸ hnodup, ?_, ?_, ?_, ?_, ?_, ?_, ?_⟩
  · rw [hcalled]
    exact (hnodup.of_map.subperm fun p hp => (hgates p hp).1).length_le
  · intro hm hhigh p hp
    exact (hgates p (hcalled ▸ hp)).2.2 hm hhigh
  · intro p hp
    exact (hgates p (hcalled ▸ hp)).2.1
  · intro hm c hc
    rw [callsUnder_append, callsUnder_eq_nil fun e he => (hquiet e he).1, List.nil_append] at hc
    exact h.calls_healthy (hhealth hm) c hc
  · intro hm
    refine Or.inr ⟨chosen, hforced hm, (forcedProvider_some (hforced hm)).2.1, ?_⟩
    rw [hcalled, h.called_forced hm]
  · refine List.pairwise_append.mpr ⟨?_, h.budget_final, fun e he _ _ hex => ?_⟩
    · exact List.pairwise_of_forall_mem_list fun _ _ e' he' _ => (hquiet e' he').1
    · rw [(hquiet e he).2] at hex
      cases hex
  · intro s hs
    have hnames := h.triedNames_eq s hs
    rw [List.nil_append] at hnames
    obtain ⟨ps, hps⟩ := h.called_cons
    rw [hcalled, hps]
    rw [hps] at hnames
    refine ⟨chosen, rfl, by rw [hnames]; rfl, ?_, ?_, ?_⟩
    · simp [Served.failoverCount, hnames]
    · exact (failoverFrom_cons hnames).1
    · intro ttl cost latencyMs tokens requestId retries outcome stream now
      exact decisionRecord_valid (failoverFrom_cons hnames).2

theorem safe_of_emits (hv : v.Calls) {es : List Event} {o : Except HandlerExc (Served α)}
    (h : Prog.Emits (do
      let (chosen, reason) ← route ctx
      failover ctx v chosen reason [] 0) es o) : Safe ctx es o := by
  rcases Prog.emits_bind.mp h with ⟨es₁, es₂, ⟨chosen, reason⟩, rfl, h₁, h₂⟩ | ⟨exc, h₁, rfl⟩
  · exact safe_of_rounds (routed_route h₁) (rounds_failover hv h₂)
  · cases routed_route h₁ with
    | refused hf => exact safe_of_no_call (by simp) fun _ => ⟨_, hf⟩
    | noSelection hauto => exact safe_of_no_call (by simp [Cmd.called]) fun hm => absurd hauto hm

/-- **Failover is safe and finite**, in both loops: whatever the registry, the request, the policy,
the health maps read and the answers of the providers. A request whose capabilities cannot be
computed calls nobody. -/
theorem failover_safe (providers : List Provider) (req : GatewayRequest)
    (policy : GatewayRoutingPolicy) :
    (∀ es o, Prog.Emits (chatNonStream providers req policy) es o →
      (∃ exc, o = .error exc ∧ es = []) ∨
        ∃ ctx, context providers req policy = .ok ctx ∧ Safe ctx es o) ∧
    ∀ es o, Prog.Emits (chatStream providers req policy) es o →
      (∃ exc, o = .error exc ∧ es = []) ∨
        ∃ ctx, context providers req policy = .ok ctx ∧ Safe ctx es o := by
  cases hctx : context providers req policy with
  | error exc =>
    constructor
    · intro es o h
      rw [chatNonStream, hctx] at h
      exact Or.inl ⟨exc, h.2, h.1⟩
    · intro es o h
      rw [chatStream, hctx] at h
      exact Or.inl ⟨exc, h.2, h.1⟩
  | ok ctx =>
    constructor
    · intro es o h
      rw [chatNonStream, hctx] at h
      exact Or.inr ⟨ctx, rfl, safe_of_emits nonStream_calls h⟩
    · intro es o h
      rw [chatStream, hctx] at h
      exact Or.inr ⟨ctx, rfl, safe_of_emits streamOpen_calls h⟩

/-! ### A request that fails over -/

def localMock (name : String) : Provider where
  name := name
  kind := some (.str (str "mock"))
  privacy := some (.str (str "internal"))
  capabilities := none
  typicalLatencyMs := some 100
  qualityRank := none
  pricePer1kInput := some (1 / 10000)
  pricePer1kOutput := some (1 / 5000)

def twoMocks : List Provider := [localMock "mock-a", localMock "mock-b"]

def hello : GatewayRequest :=
  .plain "auto" [.user (str "hello")] .default (by decide) (by decide)

def helloContext : Context := ⟨twoMocks, hello, hello.messageDicts, [], defaultGatewayPolicy⟩

/-- The health map that excludes one provider. -/
def onlyDown (name : String) : Health := fun n => if n = name then some "down" else none

/-- A selection among the mocks that are not down. -/
theorem emits_select_hello (candidates : List Provider) (health : Health)
    (h : (selectProvider candidates hello.messageDicts hello.polygate health []
      defaultGatewayPolicy).isOk = true) :
    ∃ sel, Passes helloContext health candidates sel.chosen ∧
      Prog.Emits (select helloContext candidates) [⟨.healthSnapshot, health⟩] (.ok sel) := by
  simp only [select, Prog.perform_bind, Prog.emits_cmd, Prog.onReply_ok]
  cases hsel : selectProvider candidates hello.messageDicts hello.polygate health []
      defaultGatewayPolicy with
  | error e =>
    rw [hsel] at h
    cases h
  | ok sel =>
    refine ⟨⟨sel.chosen, sel.reason, (mem_gated.mp (selectProvider_mem hsel)).1⟩,
      selectProvider_mem hsel, health, [], rfl, ?_⟩
    split
    · rename_i sel' hsel'
      cases hsel.symm.trans hsel'
      exact ⟨rfl, rfl⟩
    · rename_i e he
      cases hsel.symm.trans he

def answer : AdapterResult := ⟨"{}", 12, 0⟩

/-- One mock fails in time, the other answers. -/
def helloEvents : List Event :=
  [⟨.healthSnapshot, onlyDown "mock-b"⟩,
   ⟨.callProvider (localMock "mock-a"), .error ⟨.provider .transportError, some 1⟩⟩,
   ⟨.deadlineExpired, false⟩,
   ⟨.recordProvider "mock-a" "error", ()⟩,
   ⟨.healthSnapshot, onlyDown "mock-a"⟩,
   ⟨.recordFailover "mock-a" "mock-b", ()⟩,
   ⟨.callProvider (localMock "mock-b"), .ok answer⟩,
   ⟨.recordProvider "mock-b" "success", ()⟩]

theorem remaining_hello : remaining helloContext ["mock-a"] = [localMock "mock-b"] := by
  simp [remaining, untried, helloContext, twoMocks, localMock, hello, GatewayRequest.plain]

/-- A request that fails over once. -/
theorem emits_hello : ∃ s : Served AdapterResult, s.triedNames = ["mock-a", "mock-b"] ∧
    Prog.Emits (chatNonStream twoMocks hello defaultGatewayPolicy) helloEvents (.ok s) := by
  obtain ⟨sel, hsel, hrun⟩ := emits_select_hello twoMocks (onlyDown "mock-b")
    (by decide +kernel)
  obtain ⟨sel₂, hsel₂, hrun₂⟩ := emits_select_hello (remaining helloContext ["mock-a"])
    (onlyDown "mock-a") (by rw [remaining_hello]; decide +kernel)
  have ha : sel.chosen = localMock "mock-a" := by
    obtain ⟨hmem, -, -, hh⟩ := mem_gated.mp hsel
    rcases List.mem_pair.mp hmem with h | h
    · exact h
    · rw [h] at hh
      exact absurd hh (by decide)
  have hb : sel₂.chosen = localMock "mock-b" := by
    have hsub : remaining helloContext ["mock-a"] ⊆ [localMock "mock-b"] :=
      remaining_hello ▸ List.Subset.refl _
    exact List.mem_singleton.mp (hsub sel₂.mem)
  refine ⟨⟨{ answer with retries := 1 }, sel₂.chosen,
    .failedOver (.selected sel.reason) "mock-a" "mock-b" sel₂.reason, ["mock-a", "mock-b"]⟩, rfl,
      ?_⟩
  have hroute : Prog.Emits (route helloContext) [⟨.healthSnapshot, onlyDown "mock-b"⟩]
      (.ok (sel.chosen, .selected sel.reason)) := by
    show Prog.Emits (do
      let sel ← select helloContext twoMocks
      return (sel.chosen, Reason.selected sel.reason)) _ _
    exact Prog.emits_bind.mpr (Or.inl ⟨_, [], sel, (List.append_nil _).symm, hrun, rfl, rfl⟩)
  have hfallback : Prog.Emits (selectFallback helloContext (remaining helloContext ["mock-a"]))
      [⟨.healthSnapshot, onlyDown "mock-a"⟩] (.ok (some sel₂)) := by
    refine Prog.emits_catch.mpr (Or.inl ⟨_, ?_, rfl⟩)
    exact Prog.emits_bind.mpr (Or.inl ⟨_, [], sel₂, (List.append_nil _).symm, hrun₂, rfl, rfl⟩)
  have hrem : remaining helloContext ["mock-a"] ≠ [] := by
    rw [remaining_hello]
    exact List.cons_ne_nil _ _
  refine Prog.emits_bind.mpr (Or.inl ⟨[], helloEvents, helloContext, rfl, ⟨rfl, rfl⟩, ?_⟩)
  refine Prog.emits_bind.mpr (Or.inl ⟨_, helloEvents.tail, _, rfl, hroute, ?_⟩)
  show Prog.Emits (failover helloContext nonStream sel.chosen _ [] 0) _ _
  rw [ha, failover]
  -- the first attempt fails in time
  refine Prog.emits_bind.mpr (Or.inl ⟨[_], _, .error ⟨.provider .transportError, some 1⟩, rfl,
    ⟨_, _, rfl, rfl, rfl⟩, ?_⟩)
  refine Prog.emits_bind.mpr (Or.inl ⟨[⟨.deadlineExpired, false⟩,
    ⟨.recordProvider "mock-a" "error", ()⟩, ⟨.healthSnapshot, onlyDown "mock-a"⟩], _, sel₂, rfl,
    ?_, ?_⟩)
  · refine Prog.emits_bind.mpr (Or.inl ⟨[_], _, false, rfl, ⟨_, _, rfl, rfl, rfl⟩, ?_⟩)
    refine ⟨(), _, rfl, ?_⟩
    dsimp only [Prog.onReply, Prog.bind, List.nil_append]
    rw [if_neg Bool.false_ne_true,
      if_neg (show ¬ remaining helloContext [(localMock "mock-a").name] = [] from hrem)]
    exact Prog.emits_bind.mpr (Or.inl ⟨_, [], _, rfl, hfallback, rfl, rfl⟩)
  · rw [hb]
    refine ⟨(), _, rfl, ?_⟩
    show Prog.Emits (failover helloContext nonStream (localMock "mock-b") _ ["mock-a"] 1) _ _
    rw [failover]
    refine Prog.emits_bind.mpr (Or.inl ⟨[_], _, .ok answer, rfl, ⟨_, _, rfl, rfl, rfl⟩, ?_⟩)
    exact ⟨(), [], rfl, rfl, rfl⟩

/-- The guarantee at that request. -/
theorem failover_safe_hello : ∃ s : Served AdapterResult,
    Safe helloContext helloEvents (.ok s) ∧ s.failoverFrom = some "mock-a" := by
  obtain ⟨s, hs, hrun⟩ := emits_hello
  rcases (failover_safe twoMocks hello defaultGatewayPolicy).1 _ _ hrun
    with ⟨_, ho, _⟩ | ⟨_, hctx, hsafe⟩
  · cases ho
  · cases hctx
    refine ⟨s, hsafe, ?_⟩
    simp [Served.failoverFrom, hs]

end PolyGate.Gateway.Failover
