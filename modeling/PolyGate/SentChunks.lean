import PolyGate.Gateway.SseRoundTrip
import PolyGate.StreamAgreement

/-!
# `SentChunks.lean` — a stream of chunks, from the upstream to the web client

An upstream writes every chunk as one event and then the mark. When the chunks can be written and
read (`Readable`), the Gateway opens the stream, relays all of it but the usage, and calls it a
success, and the web client shows the text of all chunks (`chunks_shown`).
-/

namespace PolyGate.SentChunks

open Lib Gateway StreamAgreement
open SseRoundTrip (JsonObject NoSeparator Kept eventText dataLine)
open Downstream (Stream relay outcomeOf Relays)
open Downstream.Relay (Framed isUsageOnly yields interrupts)

/-! ## The stream -/

/-- A chunk that is a JSON object of the web client and of the Gateway, on one line, and no error
for either. -/
structure Readable (d : Obj) : Prop where
  strict : Plain ecmaJson (.obj d)
  texts : EachText SurrogateFree (.obj d)
  kept : Kept d
  no_error : Obj.get? d "error" = none
  observed : (Observation.new.observeChunk d).2 = none

def doneEvent : SseEvent := str "data: [DONE]\n\n"

/-- What is sent: the chunks, and the mark. -/
def sentText (chunks : List Obj) : PyStr := (chunks.map eventText).flatten ++ doneEvent

def sentEvents (chunks : List Obj) : List SseEvent := chunks.map eventText ++ [doneEvent]

/-- The text of a chunk. -/
def textOf (chunk : Obj) : PyStr := (Web.Collected.contents (.obj chunk)).flatten

/-- A choice of the chunk has come to its end. -/
def Finishes (chunk : Obj) : Prop :=
  ∃ choices choice reason, Obj.get? chunk "choices" = some (.arr choices) ∧
    .obj choice ∈ choices ∧ Obj.get? choice "finish_reason" = some reason ∧ reason ≠ .null

/-! ## One chunk -/

mutual

/-- What one reader reads back, a reader of more reads back. -/
theorem plain_within {d d' : Dialect} (hd : d.Within d') : ∀ {v : Json}, Plain d v → Plain d' v
  | .int n, h => fun m hm => by
    have hall := hd.maxDigits (digitCount (intStr n)) (by
      cases hmax : d.maxDigits with
      | none => rfl
      | some k => simpa [hmax] using h k hmax)
    rw [Option.mem_def.mp hm] at hall
    simpa using hall
  | .float (.finite _ _), h => h
  | .float (.inf _), h | .float .nan, h => hd.constants h
  | .arr elems, h => plainElems_within hd elems h
  | .obj fields, h => ⟨h.1, plainFields_within hd fields h.2⟩
  | .null, _ | .bool _, _ | .str _, _ => trivial

theorem plainElems_within {d d' : Dialect} (hd : d.Within d') : ∀ elems : List Json,
    PlainElems d elems → PlainElems d' elems
  | [], _ => trivial
  | _ :: elems, h => ⟨plain_within hd h.1, plainElems_within hd elems h.2⟩

theorem plainFields_within {d d' : Dialect} (hd : d.Within d') : ∀ fields : List (PyStr × Json),
    PlainFields d fields → PlainFields d' fields
  | [], _ => trivial
  | _ :: fields, h => ⟨plain_within hd h.1, plainFields_within hd fields h.2⟩

end

namespace Readable

variable {d : Obj} (h : Readable d)
include h

theorem object : JsonObject d := ⟨plain_within (within_any ecmaJson) h.strict, h.texts⟩

theorem oneLine : OneLine (dumpsCompact d) := SseRoundTrip.oneLine_dumpsCompact.mpr h.kept.1

theorem loads_eq : loads (dumpsCompact d) = .ok (.obj d) :=
  parse_dumpsSep separators_compact (SseRoundTrip.plain_python h.object.1 h.kept.2)

/-- The web client reads no constant in it. -/
theorem free : constantFree .outside (dumpsCompact d) = true := by
  refine (jsonParse_of_loads h.loads_eq).mp ?_
  exact jsonParse_eq_some.mpr (parse_dumpsSep separators_compact h.strict)

theorem framed : Framed (eventText d) := by
  refine ⟨[dataLine d], List.cons_ne_nil _ _, fun line hline => ?_, ?_⟩
  · rw [List.mem_singleton.mp hline]
    exact ⟨SseRoundTrip.dataLine_ne_nil d, oneLine_append.mpr ⟨by decide, h.oneLine⟩⟩
  · rw [eventOf, SseRoundTrip.joinLines_singleton]
    rfl

theorem eventData_eq : eventData (eventText d) = some (dumpsCompact d) :=
  SseRoundTrip.eventData_eventText h.oneLine

theorem values : sseDataValues (eventText d) = [dumpsCompact d] := by
  rw [Downstream.Relay.sseDataValues_framed h.framed, h.eventData_eq, Option.map_some,
    SseRoundTrip.strip_dumpsCompact]
  rfl

omit h in
theorem ne_done (d : Obj) : dumpsCompact d ≠ doneMark := by
  obtain ⟨t, ht⟩ := SseRoundTrip.dumpsCompact_eq d
  rw [ht]
  intro heq
  exact absurd (List.cons.inj heq).1 (by decide)

theorem contentsIn_eq : contentsIn (eventText d) = Web.Collected.contents (.obj d) := by
  rw [contentsIn, h.values, List.flatMap_singleton, contentsOf, h.loads_eq]

theorem readAlike : ReadAlike (eventText d) := by
  have hpadded : JsonPadded (dumpsCompact d) := jsonPadded_of_parse h.loads_eq
  have herror : hasError (dumpsCompact d) = false := by
    rw [hasError, h.loads_eq]
    exact congrArg Option.isSome h.no_error
  unfold ReadAlike
  rw [h.eventData_eq]
  dsimp only
  rw [SseRoundTrip.strip_dumpsCompact]
  exact ⟨hpadded, h.free, herror⟩

theorem isDone_eq : isDone (eventText d) = false := by
  refine decide_eq_false fun hdone => ?_
  rw [h.eventData_eq, Option.map_some, SseRoundTrip.strip_dumpsCompact] at hdone
  exact ne_done d (Option.some.inj hdone)

/-- The Gateway observes the chunk. -/
theorem consume_eq (o : Observation) :
    o.consume (eventText d) = ((o.observeChunk d).1, none) := by
  have hobserved : (o.observeChunk d).2 = none :=
    (Downstream.Relay.observeChunk_snd o .new d).trans h.observed
  have hdata : o.consumeData (dumpsCompact d) = o.observeChunk d := by
    unfold Observation.consumeData
    rw [if_neg (ne_done d), h.loads_eq]
    dsimp only
    rw [h.no_error]
    rfl
  rw [Observation.consume, h.values, Observation.consumeAll, hdata]
  obtain ⟨o', e, heq⟩ : ∃ o' e, o.observeChunk d = (o', e) := ⟨_, _, rfl⟩
  rw [heq] at hobserved ⊢
  obtain rfl : e = none := hobserved
  rfl

end Readable

/-! ## The run of the Gateway -/

theorem doneEvent_framed : Framed doneEvent := by
  refine ⟨[str "data: [DONE]"], List.cons_ne_nil _ _, fun line hline => ?_, by decide⟩
  rw [List.mem_singleton.mp hline]
  decide

theorem doneEvent_data : eventData doneEvent = some doneMark := by decide

theorem doneEvent_values : sseDataValues doneEvent = [doneMark] := by decide

theorem sentText_eq (chunks : List Obj) : sentText chunks = (sentEvents chunks).flatten := by
  simp [sentText, sentEvents]

theorem sentEvents_framed {chunks : List Obj} (h : ∀ d ∈ chunks, Readable d) :
    ∀ event ∈ sentEvents chunks, Framed event := by
  intro event hevent
  rcases List.mem_append.mp hevent with hevent | hevent
  · obtain ⟨d, hd, rfl⟩ := List.mem_map.mp hevent
    exact (h d hd).framed
  · rw [List.mem_singleton.mp hevent]
    exact doneEvent_framed

/-- An event with choices completes the opening of a stream. -/
theorem Readable.isCompletion {d : Obj} (h : Readable d) {choice : Json} {choices : List Json}
    (hchoices : Obj.get? d "choices" = some (.arr (choice :: choices))) (name : String) :
    isCompletionEvent name (eventText d) = .ok true := by
  have hdone : ¬ strip (dumpsCompact d) = doneMark := by
    rw [SseRoundTrip.strip_dumpsCompact]
    exact ne_done d
  unfold isCompletionEvent
  rw [h.eventData_eq]
  dsimp only
  rw [if_neg hdone, h.loads_eq]
  dsimp only
  rw [h.no_error, hchoices]
  rfl

/-- The observations after some chunks. -/
def observeAll (o : Observation) (chunks : List Obj) : Observation :=
  chunks.foldl (fun o d => (o.observeChunk d).1) o

theorem consumeEvents_sent {chunks : List Obj} (h : ∀ d ∈ chunks, Readable d) (o : Observation) :
    Downstream.Relay.consumeEvents o (sentEvents chunks) =
      ({ observeAll o chunks with sawDone := true }, none) := by
  induction chunks generalizing o with
  | nil =>
    show Downstream.Relay.consumeEvents o [doneEvent] = _
    rw [Downstream.Relay.consumeEvents, Observation.consume, doneEvent_values]
    rfl
  | cons d chunks ih =>
    obtain ⟨hd, hchunks⟩ := List.forall_mem_cons.mp h
    show Downstream.Relay.consumeEvents o (eventText d :: sentEvents chunks) = _
    rw [Downstream.Relay.consumeEvents, hd.consume_eq]
    exact ih hchunks _

/-- The reason of a choice that has come to its end. -/
theorem observeChoices_finished {choice : Obj} {reason : Json}
    (h : Obj.get? choice "finish_reason" = some reason) (hne : reason ≠ .null) (o : Observation)
    (choices : List Json) : o.observeChoices (.obj choice :: choices) =
      { o with finishReason := some reason }.observeChoices choices := by
  rw [Observation.observeChoices, h]
  cases reason with
  | null => exact absurd rfl hne
  | _ => rfl

theorem observeChoices_unfinished {choice : Obj}
    (h : ∀ reason, Obj.get? choice "finish_reason" = some reason → reason = .null)
    (o : Observation) (choices : List Json) :
    o.observeChoices (.obj choice :: choices) = o.observeChoices choices := by
  rw [Observation.observeChoices]
  cases hreason : Obj.get? choice "finish_reason" with
  | none => rfl
  | some reason =>
    obtain rfl := h reason hreason
    rfl

/-- Once a choice has come to its end, an end has been seen. -/
theorem observeChoices_finish {o : Observation} {choices : List Json}
    (hok : (o.observeChoices choices).2 = none)
    (h : o.finishReason.isSome = true ∨ ∃ choice reason, .obj choice ∈ choices ∧
      Obj.get? choice "finish_reason" = some reason ∧ reason ≠ .null) :
    (o.observeChoices choices).1.finishReason.isSome = true := by
  induction choices generalizing o with
  | nil =>
    rcases h with h | ⟨choice, reason, hmem, -⟩
    · exact h
    · cases hmem
  | cons first choices ih =>
    cases first with
    | obj fields =>
      by_cases hreason : ∃ reason, Obj.get? fields "finish_reason" = some reason ∧ reason ≠ .null
      · obtain ⟨reason, hreason, hne⟩ := hreason
        rw [observeChoices_finished hreason hne] at hok ⊢
        exact ih hok (Or.inl rfl)
      · have hnull : ∀ reason, Obj.get? fields "finish_reason" = some reason → reason = .null := by
          intro reason heq
          exact not_not.mp fun hne => hreason ⟨reason, heq, hne⟩
        rw [observeChoices_unfinished hnull] at hok ⊢
        refine ih hok (h.imp_right fun ⟨choice, reason, hmem, heq, hne⟩ => ?_)
        refine ⟨choice, reason, (List.mem_cons.mp hmem).resolve_left fun hfirst => ?_, heq, hne⟩
        obtain rfl := Json.obj.inj hfirst
        exact hreason ⟨reason, heq, hne⟩
    | _ => cases hok

theorem observeChunk_finish {o : Observation} {d : Obj} (hok : (o.observeChunk d).2 = none)
    (h : o.finishReason.isSome = true ∨ Finishes d) :
    (o.observeChunk d).1.finishReason.isSome = true := by
  unfold Observation.observeChunk at hok ⊢
  split
  · rename_i heq
    rw [heq] at hok
    cases hok
  · rename_i usage husage
    rw [husage] at hok
    dsimp only at hok
    split
    · rename_i heq
      rw [heq] at hok
      cases hok
    · rename_i inputTokens hinput
      rw [hinput] at hok
      dsimp only at hok ⊢
      split
      · rename_i heq
        rw [heq] at hok
        cases hok
      · rename_i outputTokens houtput
        rw [houtput] at hok
        dsimp only at hok ⊢
        split
        · rename_i heq
          rw [heq] at hok
          cases hok
        · rename_i choices hchoices
          rw [hchoices] at hok
          refine observeChoices_finish hok (h.imp_right ?_)
          rintro ⟨elems, choice, reason, helems, hmem, heq, hne⟩
          refine ⟨choice, reason, ?_, heq, hne⟩
          rw [helems] at hchoices
          cases elems with
          | nil => cases hmem
          | cons first elems =>
            cases hchoices
            exact hmem

theorem observeAll_finish {chunks : List Obj} (h : ∀ d ∈ chunks, Readable d) {o : Observation}
    (hfinish : o.finishReason.isSome = true ∨ ∃ d ∈ chunks, Finishes d) :
    (observeAll o chunks).finishReason.isSome = true := by
  induction chunks generalizing o with
  | nil =>
    rcases hfinish with hfinish | ⟨d, hd, -⟩
    · exact hfinish
    · cases hd
  | cons d chunks ih =>
    obtain ⟨hd, hchunks⟩ := List.forall_mem_cons.mp h
    have hok : (o.observeChunk d).2 = none :=
      (Downstream.Relay.observeChunk_snd o .new d).trans hd.observed
    refine ih hchunks ?_
    rcases hfinish with hfinish | ⟨d', hd', hfinish⟩
    · exact Or.inl (observeChunk_finish hok (Or.inl hfinish))
    · rcases List.mem_cons.mp hd' with rfl | hd'
      · exact Or.inl (observeChunk_finish hok (Or.inr hfinish))
      · exact Or.inr ⟨d', hd', hfinish⟩

/-- An uninterrupted run over events that can be read comes to the end of them. -/
theorem relays_quiet {s : Stream} {events : List SseEvent} {o o' : Observation}
    {es : List Downstream.Event} {r : Observation × Downstream.LoopEnd}
    (h : Relays s events o es r) (hfinished : s.ending = .finished)
    (hconsumed : Downstream.Relay.consumeEvents o events = (o', none))
    (hquiet : ∀ e ∈ es, interrupts e = false) : r = (o', .exhausted) := by
  have hno {e : Downstream.Event} (hmem : e ∈ es) (he : interrupts e = true) : False := by
    rw [hquiet e hmem] at he
    cases he
  induction h with
  | waiting => exact (hno List.mem_cons_self rfl).elim
  | exhausted =>
    cases hconsumed
    rfl
  | failed raised =>
    rw [hfinished] at raised
    cases raised
  | asking | left => exact (hno (List.mem_cons_of_mem _ List.mem_cons_self) rfl).elim
  | closed =>
    exact (hno (List.mem_cons_of_mem _ (List.mem_cons_of_mem _ List.mem_cons_self)) rfl).elim
  | invalid raises =>
    rw [Downstream.Relay.consumeEvents, raises] at hconsumed
    cases hconsumed
  | hidden consumed hides rest ih =>
    rw [Downstream.Relay.consumeEvents, consumed] at hconsumed
    exact ih hconsumed (fun e he => hquiet e (by simp [he])) fun hmem he => hno (by simp [hmem]) he
  | yielded consumed shows rest ih =>
    rw [Downstream.Relay.consumeEvents, consumed] at hconsumed
    exact ih hconsumed (fun e he => hquiet e (by simp [he])) fun hmem he => hno (by simp [hmem]) he

/-! ## What the web client shows -/

section Shown
variable {s : Stream} {chunks : List Obj}

/-- What is relayed of the chunks, and the mark. -/
theorem shown_marked (h : ∀ d ∈ chunks, Readable d) (f : SseEvent → Bool) :
    Marked ((chunks.map eventText).filter f) doneEvent [] where
  framed := by
    intro event hevent
    refine sentEvents_framed h event ?_
    rcases List.mem_append.mp hevent with hevent | hevent
    · exact List.mem_append_left _ (List.mem_filter.mp hevent).1
    · exact List.mem_append_right _ hevent
  accepted := by
    intro event hevent data hdata
    obtain ⟨d, hd, rfl⟩ := List.mem_map.mp (List.mem_filter.mp hevent).1
    rw [(h d hd).values] at hdata
    rw [List.mem_singleton.mp hdata]
    refine Or.inr ⟨d, (h d hd).loads_eq, ?_⟩
    rw [(h d hd).no_error]
    rfl
  before_done := by
    intro event hevent
    obtain ⟨d, hd, rfl⟩ := List.mem_map.mp (List.mem_filter.mp hevent).1
    exact (h d hd).isDone_eq
  mark_done := by decide

theorem shown_agreed (h : ∀ d ∈ chunks, Readable d) (f : SseEvent → Bool) :
    Agreed ((chunks.map eventText).filter f ++ [doneEvent]).flatten := by
  refine (shown_marked h f).agreed_iff.mpr ⟨?_, ?_, List.forall_mem_nil _⟩
  · intro event hevent
    obtain ⟨d, hd, rfl⟩ := List.mem_map.mp (List.mem_filter.mp hevent).1
    exact (h d hd).readAlike
  · intro data hdata
    rw [doneEvent_data] at hdata
    obtain rfl := Option.some.inj hdata
    decide

/-- Hiding the usage hides no text. -/
theorem shown_contents (h : ∀ d ∈ chunks, Readable d) {f : SseEvent → Bool}
    (hf : ∀ event, f event = false → isUsageOnly event = true) :
    ((chunks.map eventText).filter f).flatMap contentsIn =
      chunks.flatMap fun d => Web.Collected.contents (.obj d) := by
  induction chunks with
  | nil => rfl
  | cons d chunks ih =>
    obtain ⟨hd, hchunks⟩ := List.forall_mem_cons.mp h
    rw [List.map_cons, List.filter_cons, List.flatMap_cons, ← ih hchunks]
    split
    · rw [List.flatMap_cons, hd.contentsIn_eq]
    · rename_i hhidden
      have hnone := hidden_values (hf _ (Bool.eq_false_iff.mpr hhidden)) (dumpsCompact d)
        (by rw [hd.values]; exact List.mem_singleton_self _)
      have hcontents : Web.Collected.contents (.obj d) = [] := by
        have hvalue := hnone.2
        rw [contentsOf, hd.loads_eq] at hvalue
        exact hvalue
      rw [hcontents, List.nil_append]

/-- The mark is shown. -/
theorem doneEvent_shown : isUsageOnly doneEvent = false := by decide

/-- A stream of readable chunks, relayed to its end, is a success. -/
theorem sent_success (hs : s.events = sentEvents chunks) (hfinished : s.ending = .finished)
    (h : ∀ d ∈ chunks, Readable d) (hfinish : ∃ d ∈ chunks, Finishes d)
    {es : List Downstream.Event} {r : Except Downstream.Exc (Observation × Downstream.LoopEnd)}
    (hes : Prog.Emits (relay s s.events .new) es r) (hquiet : ∀ e ∈ es, interrupts e = false) :
    (∃ o, r = .ok (o, .exhausted) ∧ o = { observeAll .new chunks with sawDone := true } ∧
      outcomeOf o .exhausted = .success) ∧
    yields es = (chunks.map eventText).filter (fun event => s.includeUsage || !isUsageOnly event)
      ++ [doneEvent] := by
  have hconsumed := consumeEvents_sent h .new
  rw [← hs] at hconsumed
  obtain ⟨x, rfl, hrelays⟩ := Downstream.relays_relay hes
  obtain rfl := relays_quiet hrelays hfinished hconsumed hquiet
  obtain ⟨-, hyields⟩ := relays_success hrelays rfl
  refine ⟨⟨_, rfl, rfl, if_pos ?_⟩, ?_⟩
  · exact Bool.and_eq_true_iff.mpr ⟨rfl, observeAll_finish h (Or.inr hfinish)⟩
  · rw [hyields, hs, sentEvents, List.filter_append, List.filter_cons, if_pos, List.filter_nil]
    rw [doneEvent_shown, Bool.not_false, Bool.or_true]

/-- The web client reads what is relayed of the chunks, and shows the text of all of them. -/
theorem relayed_shown {T : Web.TextDecoder} (hT : T.Incremental)
    (h : ∀ d ∈ chunks, Readable d) {f : SseEvent → Bool}
    (hf : ∀ event, f event = false → isUsageOnly event = true)
    (htext : chunks.flatMap textOf ≠ []) {bytes : List (List UInt8)}
    (hdecodes : Decodes T bytes ((chunks.map eventText).filter f ++ [doneEvent]).flatten) :
    ∃ c, Web.requestStreamingCompletion T .done bytes = (c, none) ∧
      c.answer = chunks.flatMap textOf := by
  have hmarked := shown_marked h f
  have hcontents := shown_contents h hf
  have hflat : (chunks.flatMap fun d => Web.Collected.contents (.obj d)).flatten =
      chunks.flatMap textOf := by
    rw [List.flatMap, List.flatten_flatten, List.map_map]
    rfl
  have hsome : ((chunks.map eventText).filter f).flatMap contentsIn ≠ [] := by
    intro hnil
    rw [hcontents] at hnil
    rw [← hflat, hnil] at htext
    exact htext rfl
  have haccepted : ∀ event ∈ (chunks.map eventText).filter f ++ [doneEvent],
      ∀ data ∈ sseDataValues event, Accepted data := by
    intro event hevent
    rcases List.mem_append.mp hevent with hevent | hevent
    · exact hmarked.accepted event hevent
    · rw [List.mem_singleton.mp hevent, doneEvent_values]
      intro data hdata
      exact Or.inl (List.mem_singleton.mp hdata)
  have hdone : doneMark ∈
      sseDataValues ((chunks.map eventText).filter f ++ [doneEvent]).flatten := by
    rw [Downstream.Relay.sseDataValues_flatten hmarked.framed, List.flatMap_append]
    refine List.mem_append_right _ ?_
    rw [List.flatMap_singleton, doneEvent_values]
    exact List.mem_singleton_self _
  -- the text begins with `data:`, not with a byte order mark
  have hbom : NoMarkedData ((chunks.map eventText).filter f ++ [doneEvent]).flatten := by
    have hstart : ∀ event ∈ (chunks.map eventText).filter f ++ [doneEvent],
        event.head? = some (codePoint 'd') := by
      intro event hevent
      rcases List.mem_append.mp hevent with hevent | hevent
      · obtain ⟨d, -, rfl⟩ := List.mem_map.mp (List.mem_filter.mp hevent).1
        rfl
      · rw [List.mem_singleton.mp hevent]
        rfl
    intro hhead
    exfalso
    cases hevents : (chunks.map eventText).filter f ++ [doneEvent] with
    | nil => exact List.append_ne_nil_of_right_ne_nil _ (List.cons_ne_nil _ _) hevents
    | cons event events =>
      have hfirst := hstart event (hevents ▸ List.mem_cons_self)
      rw [hevents, List.flatten_cons, List.head?_append, hfirst, Option.some_or] at hhead
      exact absurd hhead (by decide)
  -- the conditions under which the page shows a stream in full
  have hsucceeds := (succeeds_of_events hT hmarked.framed haccepted hdone
    (hmarked.hasContent_of hsome) hdecodes hbom).mpr (shown_agreed h f)
  obtain ⟨c, hc, hanswer⟩ := hsucceeds
  refine ⟨c, hc, ?_⟩
  rw [hanswer, hmarked.contentsIn_eq, hcontents, List.flatMap_nil, List.append_nil, hflat]

end Shown

/-! ## From the upstream to the web client -/

/-- The Gateway opens the stream. -/
theorem openEvents_sent {name : String} {first : Obj} {chunks : List Obj}
    (h : ∀ d ∈ first :: chunks, Readable d) {choice : Json} {choices : List Json}
    (hchoices : Obj.get? first "choices" = some (.arr (choice :: choices)))
    (hsize : utf8Length (eventText first) ≤ 65536) :
    openEvents name (splitlines (sentText (first :: chunks))) =
      .ok ⟨eventText first, sentEvents chunks⟩ := by
  refine Downstream.Relay.openEvents_eq_ok.mpr ⟨[eventText first], ?_, by simp, ?_⟩
  · rw [sentText_eq]
    exact eventsIn_flatten (sentEvents_framed h)
  · refine ⟨⟨[], eventText first, rfl, List.forall_mem_nil _, ?_⟩, Nat.le_add_left 1 31, ?_⟩
    · exact (h first List.mem_cons_self).isCompletion hchoices name
    · simpa using hsize

/-- What an upstream sends that the Gateway takes: readable chunks, the first of them with a choice
and short enough to be read ahead, an end, and some text. -/
structure SentStream where
  first : Obj
  rest : List Obj
  readable : ∀ d ∈ first :: rest, Readable d
  begins : ∃ choice choices, Obj.get? first "choices" = some (.arr (choice :: choices))
  size : utf8Length (eventText first) ≤ 65536
  ends : ∃ d ∈ first :: rest, Finishes d
  speaks : (first :: rest).flatMap textOf ≠ []

namespace SentStream

def chunks (sent : SentStream) : List Obj := sent.first :: sent.rest

/-- The stream that is opened. -/
def opened (sent : SentStream) : OpenedEvents := ⟨eventText sent.first, sentEvents sent.rest⟩

def text (sent : SentStream) : PyStr := sent.chunks.flatMap textOf

/-- **A stream of readable chunks is opened; relayed to its end it is a success, and the web client
shows the text of all chunks, in whatever pieces it comes.** -/
theorem chunks_shown (name : String) (sent : SentStream) :
    openEvents name (splitlines (sentText sent.chunks)) = .ok sent.opened ∧
      ∀ s : Stream, s.served.result = sent.opened → s.ending = .finished →
        ∀ es r, Prog.Emits (relay s s.events .new) es r → (∀ e ∈ es, interrupts e = false) →
          (∃ o, r = .ok (o, .exhausted) ∧
            o = { observeAll .new sent.chunks with sawDone := true } ∧
            outcomeOf o .exhausted = .success) ∧
          ∀ (T : Web.TextDecoder) (bytes : List (List UInt8)), T.Incremental →
            Decodes T bytes (yields es).flatten →
            ∃ c, Web.requestStreamingCompletion T .done bytes = (c, none) ∧
              c.answer = sent.text := by
  obtain ⟨choice, choices, hchoices⟩ := sent.begins
  refine ⟨openEvents_sent sent.readable hchoices sent.size, ?_⟩
  intro s hopened hfinished es r hes hquiet
  have hs : s.events = sentEvents sent.chunks := by
    rw [Stream.events, hopened]
    rfl
  obtain ⟨hsuccess, hyields⟩ := sent_success hs hfinished sent.readable sent.ends hes hquiet
  refine ⟨hsuccess, fun T bytes hT hdecodes => ?_⟩
  rw [hyields] at hdecodes
  refine relayed_shown hT sent.readable (fun event hhidden => ?_) sent.speaks hdecodes
  have hnot := (Bool.or_eq_false_iff.mp hhidden).2
  simpa using hnot

end SentStream

/-- A chunk that says `s`. -/
def saidChunk (s : PyStr) (reason : Json) : Obj :=
  [(str "choices", .arr [.obj [(str "delta", .obj [(str "content", .str s)]),
    (str "finish_reason", reason)]])]

theorem readable_saidChunk {s : PyStr} {reason : Json}
    (hs : SurrogateFree s ∧ NoSeparator s)
    (hreason : reason = .null ∨ reason = .str (str "stop")) : Readable (saidChunk s reason) := by
  have hplain : Plain ecmaJson reason ∧ EachText SurrogateFree reason ∧
      EachText NoSeparator reason ∧ intsFit 4300 reason = true := by
    rcases hreason with rfl | rfl
    · exact ⟨trivial, trivial, trivial, rfl⟩
    · exact ⟨trivial, surrogateFree_str _, (by decide : NoSeparator (str "stop")), rfl⟩
  obtain ⟨hread, hfree, hsep, hfit⟩ := hplain
  have hkeys : ((saidChunk s reason).map (·.1)).Nodup := List.nodup_singleton _
  have hchoice : ([str "delta", str "finish_reason"] : List PyStr).Nodup := by decide
  refine ⟨?_, ?_, ⟨?_, ?_⟩, rfl, ?_⟩
  · exact ⟨hkeys, ⟨⟨hchoice, ⟨List.nodup_singleton _, trivial, trivial⟩, hread, trivial⟩, trivial⟩,
      trivial⟩
  · exact ⟨surrogateFree_str _, ⟨⟨surrogateFree_str _, ⟨surrogateFree_str _, hs.1, trivial⟩,
      surrogateFree_str _, hfree, trivial⟩, trivial⟩, trivial⟩
  · have hkeys : NoSeparator (str "choices") ∧ NoSeparator (str "delta") ∧
        NoSeparator (str "content") ∧ NoSeparator (str "finish_reason") := by decide
    obtain ⟨hchoices, hdelta, hcontent, hfinish⟩ := hkeys
    exact ⟨hchoices, ⟨⟨hdelta, ⟨hcontent, hs.2, trivial⟩, hfinish, hsep, trivial⟩, trivial⟩,
      trivial⟩
  · simp [saidChunk, intsFit, fieldsFit, elemsFit, hfit]
  · rcases hreason with rfl | rfl <;> rfl

/-- A chunk of text that can be read. -/
theorem readable_said {text : String} {reason : Json} (h : NoSeparator (str text))
    (hreason : reason = .null ∨ reason = .str (str "stop")) :
    Readable (saidChunk (str text) reason) :=
  readable_saidChunk ⟨surrogateFree_str text, h⟩ hreason

/-- Two chunks that say "Hello". -/
def helloStream : SentStream where
  first := saidChunk (str "Hel") .null
  rest := [saidChunk (str "lo") (.str (str "stop"))]
  readable := by
    intro d hd
    rcases List.mem_cons.mp hd with rfl | hd
    · exact readable_said (by decide) (Or.inl rfl)
    · rw [List.mem_singleton.mp hd]
      exact readable_said (by decide) (Or.inr rfl)
  begins := ⟨_, _, rfl⟩
  size := by decide +kernel
  ends := ⟨_, List.mem_cons_of_mem _ List.mem_cons_self, _, _, _, rfl, List.mem_singleton_self _,
    rfl, by simp⟩
  speaks := by decide

/-- What the Gateway sends of it, cut inside its second event. -/
def helloBody : List (List UInt8) :=
  [Web.ascii ("data: \x7b\"choices\":[\x7b\"delta\":\x7b\"content\":\"Hel\"\x7d," ++
      "\"finish_reason\":null\x7d]\x7d\n\ndata: \x7b\"cho"),
    Web.ascii ("ices\":[\x7b\"delta\":\x7b\"content\":\"lo\"\x7d," ++
      "\"finish_reason\":\"stop\"\x7d]\x7d\n\ndata: [DONE]\n\n")]

theorem hello_decodes :
    Decodes Web.asciiDecoder helloBody (sentEvents helloStream.chunks).flatten :=
  ⟨by decide +kernel, by decide +kernel⟩

/-- The web client shows "Hello". -/
theorem chunks_shown_hello : ∃ (s : Stream) (es : List Downstream.Event) (o : Observation)
      (c : Web.Collected),
    openEvents "mock-a" (splitlines (sentText helloStream.chunks)) = .ok s.served.result ∧
      Prog.Emits (relay s s.events .new) es (.ok (o, .exhausted)) ∧
      outcomeOf o .exhausted = .success ∧
      Decodes Web.asciiDecoder helloBody (yields es).flatten ∧
      Web.requestStreamingCompletion Web.asciiDecoder .done helloBody = (c, none) ∧
      c.answer = str "Hello" := by
  obtain ⟨hopened, hruns⟩ := SentStream.chunks_shown "mock-a" helloStream
  let s : Stream := Downstream.forcedStream "mock-a" helloStream.opened .finished
  have hconsumed := consumeEvents_sent helloStream.readable .new
  obtain ⟨es, hes, hquiet⟩ := emits_relay (s := s) rfl hconsumed
  obtain ⟨⟨o, ho, -, hsuccess⟩, hshown⟩ := hruns s rfl rfl es _ hes hquiet
  have hdecodes : Decodes Web.asciiDecoder helloBody (yields es).flatten := by
    have hall : (helloStream.chunks.map eventText).filter
        (fun event => s.includeUsage || !isUsageOnly event) = helloStream.chunks.map eventText := by
      decide +kernel
    have hyields : yields es = sentEvents helloStream.chunks := by
      have hsent := (sent_success rfl rfl helloStream.readable helloStream.ends hes hquiet).2
      exact hsent.trans (congrArg (· ++ [doneEvent]) hall)
    rw [hyields]
    exact hello_decodes
  obtain ⟨c, hc, hanswer⟩ := hshown _ helloBody ascii_incremental hdecodes
  have htext : helloStream.text = str "Hello" := by decide
  exact ⟨s, es, o, c, hopened, ho ▸ hes, hsuccess, hdecodes, hc, hanswer.trans htext⟩

end PolyGate.SentChunks
