import PolyGate.Gateway.Relay

/-!
# `Gateway/FirstChunk.lean` — the check before the response and the check after it

`_is_completion_event` decides whether a stream is opened, `_StreamObservation.consume` reads what
was opened. The first asks that the choices are a list with something in it; the second asks each of
them for its `finish_reason`, and reads the usage. `firstChunk_iff` says which accepted payloads the
second takes, and when the counts it reads are counts.
-/

namespace PolyGate.Gateway.FirstChunk

open Lib Downstream.Relay

/-! ## The law -/

/-- The joined events are consumed without an exception, and their tokens are counted. -/
def Consumed (events : List SseEvent) : Prop :=
  ∃ o, Observation.new.consume events.flatten = (o, none) ∧
    (∃ b, isUsageOnlyEvent events.flatten = .ok b) ∧ 0 ≤ o.inputTokens ∧ 0 ≤ o.outputTokens

/-! ## When it holds -/

/-- The field is missing, or `int` makes a natural number of it. -/
def IsCount (usage : Obj) (key : String) : Prop :=
  ∀ v ∈ Obj.get? usage key, ∃ n : Nat, v.toInt = .ok n

structure Consumable (payload : Obj) : Prop where
  /-- the usage is missing, falsy or an object -/
  usage : ∃ usage, Observation.dictOrEmpty (Obj.get? payload "usage") = .ok usage ∧
    IsCount usage "prompt_tokens" ∧ IsCount usage "completion_tokens"
  choices : ∀ choices, Obj.get? payload "choices" = some (.arr choices) →
    ∀ choice ∈ choices, ∃ fields, choice = .obj fields

/-- What the event holds can be consumed. -/
def Tame (event : SseEvent) : Prop :=
  ∀ data payload, eventData event = some data → loads data = .ok (.obj payload) → Consumable payload

/-! ## One chunk -/

section Chunk
variable {o o' : Observation} {choices : List Json} {payload usage : Obj} {key : String}

/-- The choices leave the counts as they are. -/
theorem observeChoices_tokens (o : Observation) (choices : List Json) :
    (o.observeChoices choices).1.inputTokens = o.inputTokens ∧
      (o.observeChoices choices).1.outputTokens = o.outputTokens := by
  induction choices generalizing o with
  | nil => exact ⟨rfl, rfl⟩
  | cons choice choices ih =>
    cases choice with
    | obj fields =>
      unfold Observation.observeChoices
      split
      · exact ih o
      · exact ih o
      · exact ih { o with finishReason := some _ }
    | _ => exact ⟨rfl, rfl⟩

theorem observeChoices_ok_iff (o : Observation) (choices : List Json) :
    (o.observeChoices choices).2 = none ↔ ∀ choice ∈ choices, ∃ fields, choice = .obj fields := by
  induction choices generalizing o with
  | nil => simp [Observation.observeChoices]
  | cons choice choices ih =>
    rw [List.forall_mem_cons]
    cases choice with
    | obj fields =>
      rw [and_iff_right ⟨fields, rfl⟩]
      unfold Observation.observeChoices
      split
      · exact ih o
      · exact ih o
      · exact ih { o with finishReason := some _ }
    | _ => simp [Observation.observeChoices]

/-- A count that is read for the first time. -/
theorem tokens_isCount : (∃ n : Nat, Observation.tokens usage key 0 = .ok n) ↔
    IsCount usage key := by
  unfold Observation.tokens IsCount
  cases Obj.get? usage key with
  | none => exact ⟨fun _ v hv => (by cases hv), fun _ => ⟨0, rfl⟩⟩
  | some v =>
    simp only [mapError_eq_ok, Option.mem_some_iff, forall_eq']

/-- A chunk that is consumed: its usage, its two counts, and its choices. -/
theorem observeChunk_ok_iff : o.observeChunk payload = (o', none) ↔
    ∃ usage inputTokens outputTokens choices,
      Observation.dictOrEmpty (Obj.get? payload "usage") = .ok usage ∧
      Observation.tokens usage "prompt_tokens" o.inputTokens = .ok inputTokens ∧
      Observation.tokens usage "completion_tokens" o.outputTokens = .ok outputTokens ∧
      Observation.choicesOf (Obj.get? payload "choices") = .ok choices ∧
      Observation.observeChoices { o with inputTokens, outputTokens } choices = (o', none) := by
  unfold Observation.observeChunk
  cases Observation.dictOrEmpty (Obj.get? payload "usage") with
  | error e => simp
  | ok usage =>
    dsimp only
    cases hinput : Observation.tokens usage "prompt_tokens" o.inputTokens with
    | error e => simp [hinput]
    | ok inputTokens =>
      dsimp only
      cases houtput : Observation.tokens usage "completion_tokens" o.outputTokens with
      | error e => simp [houtput]
      | ok outputTokens =>
        dsimp only
        cases Observation.choicesOf (Obj.get? payload "choices") with
        | error e => simp
        | ok choices => simp [hinput, houtput]

theorem observeChunk_iff (hchoices : Obj.get? payload "choices" = some (.arr choices))
    (hne : choices ≠ []) :
    (∃ o, Observation.new.observeChunk payload = (o, none) ∧ 0 ≤ o.inputTokens ∧
      0 ≤ o.outputTokens) ↔ Consumable payload := by
  have hlist : Observation.choicesOf (Obj.get? payload "choices") = .ok choices := by
    rw [hchoices]
    cases choices with
    | nil => exact absurd rfl hne
    | cons choice choices => rfl
  constructor
  · rintro ⟨o, ho, hinput, houtput⟩
    obtain ⟨usage, i, n, choices', husage, hi, hn, hchoices', hobserve⟩ :=
      observeChunk_ok_iff.mp ho
    obtain rfl := Except.ok.inj (hlist.symm.trans hchoices')
    -- the choices do not change the counts
    have htokens := observeChoices_tokens
      { Observation.new with inputTokens := i, outputTokens := n } choices
    rw [hobserve] at htokens
    obtain ⟨k, rfl⟩ := Int.eq_ofNat_of_zero_le (htokens.1 ▸ hinput)
    obtain ⟨l, rfl⟩ := Int.eq_ofNat_of_zero_le (htokens.2 ▸ houtput)
    refine ⟨⟨usage, husage, tokens_isCount.mp ⟨k, hi⟩, tokens_isCount.mp ⟨l, hn⟩⟩, ?_⟩
    intro choices' h'
    obtain rfl := Json.arr.inj (Option.some.inj (hchoices.symm.trans h'))
    exact (observeChoices_ok_iff _ choices).mp (congrArg Prod.snd hobserve)
  · rintro ⟨⟨usage, husage, hinput, houtput⟩, hobjects⟩
    obtain ⟨k, hk⟩ := tokens_isCount.mpr hinput
    obtain ⟨l, hl⟩ := tokens_isCount.mpr houtput
    have hnone := (observeChoices_ok_iff
      { Observation.new with inputTokens := (k : Int), outputTokens := (l : Int) } choices).mpr
      (hobjects choices hchoices)
    have htokens := observeChoices_tokens
      { Observation.new with inputTokens := (k : Int), outputTokens := (l : Int) } choices
    refine ⟨_, observeChunk_ok_iff.mpr ⟨usage, k, l, choices, husage, hk, hl, hlist,
      Prod.ext rfl hnone⟩, ?_, ?_⟩
    · rw [htokens.1]
      exact Int.natCast_nonneg k
    · rw [htokens.2]
      exact Int.natCast_nonneg l

end Chunk

/-! ## The first chunk -/

section First
variable {name : String} {prelude : List SseEvent} {event : SseEvent}

/-- An event that is consumed is no reason for `_is_usage_only_event` to raise. -/
theorem isUsageOnlyEvent_of_consume {o o' : Observation} {event : SseEvent}
    (h : o.consume event = (o', none)) : ∃ b, isUsageOnlyEvent event = .ok b := by
  obtain ⟨chunks, hchunks⟩ := Downstream.chunksOf_of_consumeAll h
  rw [isUsageOnlyEvent, hchunks]
  exact ⟨_, rfl⟩

/-- What is consumed is the payload that was accepted. -/
theorem consumed_iff_chunk (hframed : ∀ e ∈ prelude ++ [event], Framed e)
    (hprelude : ∀ e ∈ prelude, eventData e = none) {data : PyStr} {payload : Obj}
    (hdata : eventData event = some data) (hdone : strip data ≠ doneMark)
    (hpayload : loads data = .ok (.obj payload))
    (herror : absentOrNull (Obj.get? payload "error") = true) :
    Consumed (prelude ++ [event]) ↔ ∃ o, Observation.new.observeChunk payload = (o, none) ∧
      0 ≤ o.inputTokens ∧ 0 ≤ o.outputTokens := by
  have hload : loads (strip data) = .ok (.obj payload) := parse_strip hpayload
  have hconsume : Observation.new.consume (prelude ++ [event]).flatten =
      Observation.new.observeChunk payload := by
    rw [Observation.consume, sseDataValues_prefetched hframed hprelude, hdata, Option.map_some,
      Option.toList_some, Observation.consumeAll, Observation.consumeData, if_neg hdone, hload]
    simp only [herror, Bool.not_true, Bool.false_eq_true, if_false]
    rcases Observation.new.observeChunk payload with ⟨o, _ | e⟩ <;> rfl
  unfold Consumed
  rw [← hconsume]
  constructor
  · rintro ⟨o, ho, -, hcounts⟩
    exact ⟨o, ho, hcounts⟩
  · rintro ⟨o, ho, hcounts⟩
    exact ⟨o, ho, isUsageOnlyEvent_of_consume ho, hcounts⟩

/-- **When the check before the response is as strict as the one after it.** -/
theorem firstChunk_iff (hframed : ∀ e ∈ prelude ++ [event], Framed e)
    (hprelude : ∀ e ∈ prelude, eventData e = none)
    (haccepted : isCompletionEvent name event = .ok true) :
    Consumed (prelude ++ [event]) ↔ Tame event := by
  obtain ⟨data, payload, choice, choices, hdata, hdone, hpayload, herror, hchoices⟩ :=
    isCompletionEvent_true haccepted
  rw [consumed_iff_chunk hframed hprelude hdata hdone hpayload herror,
    observeChunk_iff hchoices (List.cons_ne_nil _ _)]
  constructor
  · intro h data' payload' hdata' hpayload'
    obtain rfl := Option.some.inj (hdata.symm.trans hdata')
    obtain rfl := Json.obj.inj (Except.ok.inj (hpayload.symm.trans hpayload'))
    exact h
  · intro h
    exact h data payload hdata hpayload

end First

/-! ## Two first events -/

def comment : SseEvent := eventOf [str ": hi"]

def emptyChoice : SseEvent := eventOf [str "data: \x7b\"choices\":[\x7b\x7d]\x7d"]

def nullChoice : SseEvent := eventOf [str "data: \x7b\"choices\":[null]\x7d"]

theorem framed_emptyChoice : ∀ e ∈ [comment] ++ [emptyChoice], Framed e := by
  have hlines : ∀ line ∈ [str ": hi", [], str "data: \x7b\"choices\":[\x7b\x7d]\x7d"],
      OneLine line := by
    decide +kernel
  have hevents : iterSseEvents [str ": hi", [], str "data: \x7b\"choices\":[\x7b\x7d]\x7d"] =
      [comment] ++ [emptyChoice] := by decide +kernel
  rw [← hevents]
  exact iterSseEvents_framed hlines

theorem comment_dataless : ∀ e ∈ [comment], eventData e = none := by
  intro e he
  obtain rfl := List.mem_singleton.mp he
  decide +kernel

/-- Events that are consumed, by evaluation. -/
theorem consumed_of_check {events : List SseEvent}
    (h : (match Observation.new.consume events.flatten with
      | (o, none) => decide (0 ≤ o.inputTokens ∧ 0 ≤ o.outputTokens)
      | (_, some _) => false) = true) : Consumed events := by
  split at h
  · next o hconsume =>
    exact ⟨o, hconsume, isUsageOnlyEvent_of_consume hconsume, of_decide_eq_true h⟩
  · cases h

theorem emptyChoice_tame : Tame emptyChoice := by
  have haccepted : isCompletionEvent "mock-a" emptyChoice = .ok true := by decide +kernel
  exact (firstChunk_iff framed_emptyChoice comment_dataless haccepted).mp
    (consumed_of_check (by decide +kernel))

/-- **A stream is opened and fails on its first chunk.** -/
theorem nullChoice_raises : isCompletionEvent "mock-a" nullChoice = .ok true ∧
    (Observation.new.consume ([] ++ [nullChoice]).flatten).2 = some .attributeError ∧
    ¬ Consumed ([] ++ [nullChoice]) := by
  have hraises : (Observation.new.consume ([] ++ [nullChoice]).flatten).2 =
      some .attributeError := by
    decide +kernel
  refine ⟨by decide +kernel, hraises, ?_⟩
  rintro ⟨o, ho, -⟩
  rw [ho] at hraises
  cases hraises

end PolyGate.Gateway.FirstChunk
