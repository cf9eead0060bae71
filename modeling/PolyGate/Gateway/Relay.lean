import PolyGate.Gateway.Downstream
import PolyGate.Lib.JsonRead

/-!
# `Gateway/Relay.lean` — a stream is relayed without loss and in order

`_iter_sse_events` frames the upstream's lines as events, `open_provider_stream` reads some of them
ahead and joins them, and `downstream` takes the joined chunk for one event. Each event is its
lines with a blank line after it (`Framed`), so the values of joined events are the values of the
events (`sseDataValues_flatten`), and the joined chunk is observed as its events one by one. What is
yielded is then what is valid and not hidden, from the first chunk on (`relay_lossless`).
-/

namespace PolyGate.Gateway.Downstream.Relay

open Lib

/-! ## The laws -/

/-- The first event that carries data is a valid completion event, among the first 32 events and
the first 65536 bytes. -/
def Opens (name : String) (events : List SseEvent) : Prop :=
  ∃ prelude completion later, events = prelude ++ completion :: later ∧ prelude.length < 32 ∧
    ((prelude ++ [completion]).map utf8Length).sum ≤ 65536 ∧
    (∀ event ∈ prelude, eventData event = none) ∧ isCompletionEvent name completion = .ok true

/-- Events that are observed one by one. -/
def consumeEvents (o : Observation) : List SseEvent → Observation.Result
  | [] => (o, none)
  | event :: events => match o.consume event with
    | (o, none) => consumeEvents o events
    | (o, some e) => (o, some e)

/-- The event raises nothing when it is observed. -/
def isValid (event : SseEvent) : Bool := (Observation.new.consume event).2.isNone

/-- `_is_usage_only_event`, if it does not raise. -/
def isUsageOnly (event : SseEvent) : Bool :=
  match isUsageOnlyEvent event with
  | .ok b => b
  | .error _ => false

/-- What is to be yielded of `events`. -/
def relayed (includeUsage : Bool) (events : List SseEvent) : List SseEvent :=
  (events.takeWhile isValid).filter fun event => includeUsage || !isUsageOnly event

/-- What is yielded. -/
def yields (es : List Event) : List SseEvent :=
  es.filterMap fun e => match e with
    | ⟨.yieldEvent event, _⟩ => some event
    | _ => none

/-- The task is cancelled, the client has gone, or the generator is closed. -/
def interrupts : Event → Bool
  | ⟨.nextEvent _, .cancelled⟩ | ⟨.isDisconnected, .yes⟩ | ⟨.isDisconnected, .cancelled⟩
  | ⟨.yieldEvent _, .closed⟩ => true
  | _ => false

/-! ## Framing -/

/-- The text of some lines, with a blank line after it. -/
def Framed (event : SseEvent) : Prop :=
  ∃ lines, lines ≠ [] ∧ (∀ line ∈ lines, line ≠ [] ∧ OneLine line) ∧ event = eventOf lines

theorem joinLines_lf {lines : List PyStr} (h : lines ≠ []) :
    joinLines lines ++ [lf] = lines.flatMap (· ++ [lf]) := by
  induction lines with
  | nil => exact absurd rfl h
  | cons line lines ih =>
    cases lines with
    | nil => simp [joinLines]
    | cons line' lines =>
      have hrest := ih (List.cons_ne_nil _ _)
      rw [List.flatMap_cons, ← hrest]
      simp [joinLines, List.intercalate]

theorem iterSseEventsFrom_framed {lines : List PyStr} (hlines : ∀ line ∈ lines, OneLine line) :
    ∀ {current : List PyStr}, (∀ line ∈ current, line ≠ [] ∧ OneLine line) →
      ∀ event ∈ iterSseEventsFrom current lines, Framed event := by
  induction lines with
  | nil =>
    intro current hcurrent event hevent
    unfold iterSseEventsFrom at hevent
    split at hevent
    · cases hevent
    · rename_i hne
      rw [List.mem_singleton.mp hevent]
      exact ⟨current, hne, hcurrent, rfl⟩
  | cons line lines ih =>
    intro current hcurrent event hevent
    obtain ⟨hline, hlines⟩ := List.forall_mem_cons.mp hlines
    have hnil : ∀ line ∈ ([] : List PyStr), line ≠ [] ∧ OneLine line :=
      fun _ h => absurd h List.not_mem_nil
    unfold iterSseEventsFrom at hevent
    split at hevent
    · split at hevent
      · exact ih hlines hnil event hevent
      · rename_i hne
        rcases List.mem_cons.mp hevent with rfl | hevent
        · exact ⟨current, hne, hcurrent, rfl⟩
        · exact ih hlines hnil event hevent
    · rename_i hne
      refine ih hlines (fun l hl => ?_) event hevent
      rcases List.mem_append.mp hl with hl | hl
      · exact hcurrent l hl
      · rw [List.mem_singleton.mp hl]
        exact ⟨hne, hline⟩

theorem iterSseEvents_framed {lines : List PyStr} (hlines : ∀ line ∈ lines, OneLine line) :
    ∀ event ∈ iterSseEvents lines, Framed event :=
  iterSseEventsFrom_framed hlines fun _ h => absurd h List.not_mem_nil

/-! ## The values of joined events -/

theorem splitlines_eventOf {lines : List PyStr} (hne : lines ≠ [])
    (hlines : ∀ line ∈ lines, OneLine line) (t : PyStr) :
    splitlines (eventOf lines ++ t) = lines ++ [] :: splitlines t := by
  have htext : eventOf lines ++ t = (lines ++ [[]]).flatMap (· ++ [lf]) ++ t := by
    rw [List.flatMap_append, ← joinLines_lf hne]
    simp [eventOf]
  have hall : ∀ line ∈ lines ++ [[]], OneLine line := fun line hline => by
    rcases List.mem_append.mp hline with hline | hline
    · exact hlines line hline
    · rw [List.mem_singleton.mp hline]
      exact oneLine_nil
  rw [htext, splitlines_flatMap hall, List.append_assoc, List.singleton_append]

theorem splitlines_framed {lines : List PyStr} (hne : lines ≠ [])
    (hlines : ∀ line ∈ lines, OneLine line) : splitlines (eventOf lines) = lines ++ [[]] := by
  rw [← List.append_nil (eventOf lines), splitlines_eventOf hne hlines]
  rfl

/-- The values of the data lines of one event. -/
def valuesOf (dataLines : List PyStr) : List PyStr :=
  if dataLines = [] then [] else [strip (joinLines dataLines)]

theorem dataValuesFrom_lines {lines : List PyStr} (hlines : ∀ line ∈ lines, line ≠ [])
    (current rest : List PyStr) : dataValuesFrom current (lines ++ [] :: rest) =
      valuesOf (current ++ lines.filterMap dataField) ++ dataValuesFrom [] rest := by
  induction lines generalizing current with
  | nil =>
    rw [List.filterMap_nil, List.append_nil, List.nil_append, dataValuesFrom, if_pos rfl, valuesOf]
    split <;> rfl
  | cons line lines ih =>
    obtain ⟨hline, hlines⟩ := List.forall_mem_cons.mp hlines
    rw [List.cons_append, dataValuesFrom, if_neg hline, List.filterMap_cons]
    cases dataField line with
    | none => exact ih hlines current
    | some value =>
      dsimp only
      rw [ih hlines, List.append_assoc, List.singleton_append]

theorem sseDataValues_append {event : SseEvent} (h : Framed event) (t : PyStr) :
    sseDataValues (event ++ t) = sseDataValues event ++ sseDataValues t := by
  obtain ⟨lines, hne, hlines, rfl⟩ := h
  have hone : ∀ line ∈ lines, OneLine line := fun line hline => (hlines line hline).2
  have hfull : ∀ line ∈ lines, line ≠ [] := fun line hline => (hlines line hline).1
  rw [sseDataValues, splitlines_eventOf hne hone, dataValuesFrom_lines hfull, sseDataValues,
    splitlines_framed hne hone, dataValuesFrom_lines hfull, sseDataValues]
  rw [dataValuesFrom, if_pos rfl, List.append_nil]

/-- The values of joined events are the values of the events. -/
theorem sseDataValues_flatten {events : List SseEvent} (h : ∀ event ∈ events, Framed event) :
    sseDataValues events.flatten = events.flatMap sseDataValues := by
  induction events with
  | nil => rfl
  | cons event events ih =>
    obtain ⟨hevent, hevents⟩ := List.forall_mem_cons.mp h
    rw [List.flatten_cons, sseDataValues_append hevent, ih hevents, List.flatMap_cons]

/-- The one value of an event, stripped. -/
theorem sseDataValues_framed {event : SseEvent} (h : Framed event) :
    sseDataValues event = ((eventData event).map strip).toList := by
  obtain ⟨lines, hne, hlines, rfl⟩ := h
  have hsplit := splitlines_framed hne fun line hline => (hlines line hline).2
  have hfields : (lines ++ [[]]).filterMap dataField = lines.filterMap dataField := by
    rw [List.filterMap_append]
    exact List.append_nil _
  rw [sseDataValues, hsplit, dataValuesFrom_lines fun line hline => (hlines line hline).1,
    dataValuesFrom, if_pos rfl, List.append_nil, List.nil_append, eventData, hsplit, hfields]
  cases lines.filterMap dataField with
  | nil => rfl
  | cons value values => rfl

/-! ## Opening -/

theorem isCompletionEvent_false {name : String} {event : SseEvent} :
    isCompletionEvent name event = .ok false ↔ eventData event = none := by
  constructor
  · intro h
    unfold isCompletionEvent at h
    split at h
    · rename_i hdata
      exact hdata
    · split at h
      · cases h
      · split at h
        · cases h
        · cases h
        · split at h
          · cases h
          · split at h <;> cases h
        · cases h
  · intro h
    rw [isCompletionEvent, h]

/-- An accepted event holds an object without an error and with choices. -/
theorem isCompletionEvent_true {name : String} {event : SseEvent}
    (h : isCompletionEvent name event = .ok true) : ∃ data payload choice choices,
      eventData event = some data ∧ strip data ≠ doneMark ∧ loads data = .ok (.obj payload) ∧
        absentOrNull (Obj.get? payload "error") = true ∧
        Obj.get? payload "choices" = some (.arr (choice :: choices)) := by
  unfold isCompletionEvent at h
  split at h
  · cases h
  · rename_i data hdata
    split at h
    · cases h
    · rename_i hdone
      split at h
      · cases h
      · cases h
      · rename_i payload hpayload
        split at h
        · cases h
        · rename_i herror
          split at h
          · rename_i choice choices hchoices
            exact ⟨data, payload, choice, choices, hdata, hdone, hpayload, by simpa using herror,
              hchoices⟩
          · cases h
      · cases h

/-- What `prefetch` has read is a prelude without data and a completion event. -/
structure Prefetched (name : String) (rounds size : Nat) (read : List SseEvent) : Prop where
  exists_completion : ∃ prelude completion, read = prelude ++ [completion] ∧
    (∀ event ∈ prelude, eventData event = none) ∧ isCompletionEvent name completion = .ok true
  length_le : read.length ≤ rounds
  size_le : size + (read.map utf8Length).sum ≤ 65536

theorem prefetch_sound {name : String} {rounds size : Nat}
    {prefetched events all rest : List SseEvent}
    (h : prefetch name rounds prefetched size events = .ok (all, rest)) :
    ∃ read, all = prefetched ++ read ∧ events = read ++ rest ∧
      Prefetched name rounds size read := by
  induction events generalizing rounds size prefetched with
  | nil => cases rounds <;> cases h
  | cons event events ih =>
    cases rounds with
    | zero => cases h
    | succ rounds =>
      unfold prefetch at h
      split at h
      · cases h
      · rename_i hsize
        split at h
        · cases h
        · rename_i hcompletion
          cases h
          refine ⟨[event], rfl, rfl, ⟨[], event, rfl, fun _ he => absurd he List.not_mem_nil,
            hcompletion⟩, ?_, ?_⟩
          · rw [List.length_singleton]
            omega
          · rw [List.map_singleton, List.sum_singleton]
            omega
        -- no completion yet, so the event belongs to the prelude
        · rename_i hcompletion
          obtain ⟨read, rfl, rfl, hread⟩ := ih h
          obtain ⟨⟨prelude, completion, rfl, hprelude, hvalid⟩, hlength, hbytes⟩ := hread
          refine ⟨event :: (prelude ++ [completion]), ?_, rfl,
            ⟨event :: prelude, completion, rfl, ?_, hvalid⟩, ?_, ?_⟩
          · rw [List.append_assoc, List.singleton_append]
          · exact List.forall_mem_cons.mpr ⟨isCompletionEvent_false.mp hcompletion, hprelude⟩
          · rw [List.length_cons]
            omega
          · rw [List.map_cons, List.sum_cons]
            omega

theorem prefetch_complete {name : String} {rounds size : Nat} {prefetched read rest : List SseEvent}
    (h : Prefetched name rounds size read) :
    prefetch name rounds prefetched size (read ++ rest) = .ok (prefetched ++ read, rest) := by
  induction read generalizing rounds size prefetched with
  | nil =>
    obtain ⟨prelude, completion, hread, -⟩ := h.exists_completion
    cases prelude <;> cases hread
  | cons event read ih =>
    obtain ⟨⟨prelude, completion, hread, hprelude, hvalid⟩, hlength, hbytes⟩ := h
    rw [List.length_cons] at hlength
    rw [List.map_cons, List.sum_cons] at hbytes
    cases rounds with
    | zero => omega
    | succ rounds =>
      have hsize : ¬ 64 * 1024 < size + utf8Length event := by omega
      rw [List.cons_append, prefetch, if_neg hsize]
      cases prelude with
      | nil =>
        cases hread
        rw [hvalid]
        rfl
      | cons event' prelude =>
        obtain ⟨rfl, rfl⟩ := List.cons.inj hread
        obtain ⟨hevent, hprelude⟩ := List.forall_mem_cons.mp hprelude
        rw [isCompletionEvent_false.mpr hevent]
        have hrest : prefetch name rounds (prefetched ++ [event]) (size + utf8Length event)
            (prelude ++ [completion] ++ rest) = .ok (prefetched ++ [event] ++ _, rest) :=
          ih ⟨⟨prelude, completion, rfl, hprelude, hvalid⟩, by omega, by omega⟩
        rw [List.append_assoc prefetched, List.singleton_append] at hrest
        exact hrest

theorem opens_iff {name : String} {events : List SseEvent} :
    Opens name events ↔ ∃ read rest, events = read ++ rest ∧ Prefetched name 32 0 read := by
  constructor
  · rintro ⟨prelude, completion, later, rfl, hlength, hbytes, hprelude, hvalid⟩
    refine ⟨prelude ++ [completion], later, ?_,
      ⟨prelude, completion, rfl, hprelude, hvalid⟩, ?_, ?_⟩
    · rw [List.append_assoc, List.singleton_append]
    · rw [List.length_append, List.length_singleton]
      omega
    · omega
  · rintro ⟨read, rest, rfl, ⟨prelude, completion, rfl, hprelude, hvalid⟩, hlength, hbytes⟩
    rw [List.length_append, List.length_singleton] at hlength
    refine ⟨prelude, completion, rest, ?_, by omega, by omega, hprelude, hvalid⟩
    rw [List.append_assoc, List.singleton_append]

/-- An opened stream: what was read ahead, joined, and the rest. -/
theorem openEvents_eq_ok {name : String} {lines : List PyStr} {opened : OpenedEvents} :
    openEvents name lines = .ok opened ↔ ∃ read,
      iterSseEvents lines = read ++ opened.remainingEvents ∧ opened.firstEvent = read.flatten ∧
        Prefetched name 32 0 read := by
  unfold openEvents
  constructor
  · intro h
    cases hprefetch : prefetch name 32 [] 0 (iterSseEvents lines) with
    | error e =>
      rw [hprefetch] at h
      cases h
    | ok result =>
      obtain ⟨all, rest⟩ := result
      rw [hprefetch] at h
      cases h
      obtain ⟨read, hall, hevents, hread⟩ := prefetch_sound hprefetch
      exact ⟨read, hevents, congrArg List.flatten hall, hread⟩
  · rintro ⟨read, hevents, hfirst, hread⟩
    rw [hevents, prefetch_complete hread]
    show Except.ok (OpenedEvents.mk ([] ++ read).flatten opened.remainingEvents) = _
    rw [List.nil_append, ← hfirst]

/-! ## Observing -/

theorem consumeAll_append (o : Observation) (values values' : List PyStr) :
    o.consumeAll (values ++ values') = match o.consumeAll values with
      | (o, none) => o.consumeAll values'
      | (o, some e) => (o, some e) := by
  induction values generalizing o with
  | nil => rfl
  | cons data values ih =>
    rw [List.cons_append, Observation.consumeAll, Observation.consumeAll]
    rcases o.consumeData data with ⟨o, _ | e⟩
    · exact ih o
    · rfl

/-- Joined events are observed as the events one by one. -/
theorem consume_flatten {events : List SseEvent} (h : ∀ event ∈ events, Framed event)
    (o : Observation) : o.consume events.flatten = consumeEvents o events := by
  rw [Observation.consume, sseDataValues_flatten h]
  clear h
  induction events generalizing o with
  | nil => rfl
  | cons event events ih =>
    rw [List.flatMap_cons, consumeAll_append, consumeEvents, Observation.consume]
    rcases o.consumeAll (sseDataValues event) with ⟨o, _ | e⟩
    · exact ih o
    · rfl

theorem observeChoices_snd (o o' : Observation) (choices : List Json) :
    (o.observeChoices choices).2 = (o'.observeChoices choices).2 := by
  induction choices generalizing o o' with
  | nil => rfl
  | cons choice choices ih =>
    cases choice with
    | obj choice =>
      unfold Observation.observeChoices
      split <;> exact ih _ _
    | _ => rfl

theorem tokens_map (usage : Obj) (key : String) (current current' : Int) :
    (Observation.tokens usage key current).map (fun _ => ()) =
      (Observation.tokens usage key current').map fun _ => () := by
  unfold Observation.tokens
  split <;> rfl

theorem observeChunk_snd (o o' : Observation) (chunk : Obj) :
    (o.observeChunk chunk).2 = (o'.observeChunk chunk).2 := by
  unfold Observation.observeChunk
  cases Observation.dictOrEmpty (Obj.get? chunk "usage") with
  | error e => rfl
  | ok usage =>
    dsimp only
    have hinput := tokens_map usage "prompt_tokens" o.inputTokens o'.inputTokens
    cases h₁ : Observation.tokens usage "prompt_tokens" o.inputTokens <;>
      cases h₂ : Observation.tokens usage "prompt_tokens" o'.inputTokens <;>
      rw [h₁, h₂] at hinput <;> cases hinput
    · rfl
    · dsimp only
      have houtput := tokens_map usage "completion_tokens" o.outputTokens o'.outputTokens
      cases h₁ : Observation.tokens usage "completion_tokens" o.outputTokens <;>
        cases h₂ : Observation.tokens usage "completion_tokens" o'.outputTokens <;>
        rw [h₁, h₂] at houtput <;> cases houtput
      · rfl
      · dsimp only
        cases Observation.choicesOf (Obj.get? chunk "choices") with
        | error e => rfl
        | ok choices => exact observeChoices_snd _ _ choices

theorem consumeData_snd (o o' : Observation) (data : PyStr) :
    (o.consumeData data).2 = (o'.consumeData data).2 := by
  unfold Observation.consumeData
  split
  · rfl
  · split
    · rfl
    · rfl
    · split
      · rfl
      · exact observeChunk_snd o o' _
    · rfl

/-- Whether an event is valid does not depend on what has been observed. -/
theorem consume_snd (o o' : Observation) (event : SseEvent) :
    (o.consume event).2 = (o'.consume event).2 := by
  unfold Observation.consume
  induction sseDataValues event generalizing o o' with
  | nil => rfl
  | cons data values ih =>
    have hdata := consumeData_snd o o' data
    unfold Observation.consumeAll
    rcases h : o.consumeData data with ⟨o₁, _ | e⟩ <;>
      rcases h' : o'.consumeData data with ⟨o₁', _ | e'⟩ <;>
      rw [h, h'] at hdata <;> cases hdata
    · exact ih o₁ o₁'
    · rfl

theorem isValid_eq (o : Observation) (event : SseEvent) :
    isValid event = (o.consume event).2.isNone := by
  rw [isValid, consume_snd .new o]

/-! ## Relaying -/

theorem shown_eq {includeUsage b : Bool} {event : SseEvent}
    (h : shown includeUsage event = .ok b) : b = (includeUsage || !isUsageOnly event) := by
  unfold shown at h
  split at h
  · rename_i hinclude
    cases h
    rw [hinclude, Bool.true_or]
  · rename_i hinclude
    rw [Bool.eq_false_iff.mpr hinclude, Bool.false_or, isUsageOnly]
    cases husage : isUsageOnlyEvent event with
    | error e =>
      rw [husage] at h
      cases h
    | ok b' =>
      rw [husage] at h
      cases h
      rfl

/-- The loop yields what is valid and shown, in order. -/
theorem yields_relays {s : Stream} {events : List SseEvent} {o : Observation} {es : List Event}
    {r : Observation × LoopEnd} (h : Relays s events o es r)
    (hquiet : ∀ e ∈ es, interrupts e = false) : yields es = relayed s.includeUsage events := by
  have hno {e : Event} (hmem : e ∈ es) (he : interrupts e = true) : False := by
    rw [hquiet e hmem] at he
    cases he
  induction h with
  | waiting => exact (hno List.mem_cons_self rfl).elim
  | exhausted | failed => rfl
  | asking | left => exact (hno (List.mem_cons_of_mem _ List.mem_cons_self) rfl).elim
  | closed =>
    exact (hno (List.mem_cons_of_mem _ (List.mem_cons_of_mem _ List.mem_cons_self)) rfl).elim
  | @invalid event events o o' e raises =>
    have hvalid : isValid event = false := by rw [isValid_eq o, raises]; rfl
    rw [relayed, List.takeWhile_cons_of_neg (by rw [hvalid]; decide)]
    rfl
  | @hidden event events o o' es r consumed hides rest ih =>
    have hvalid : isValid event = true := by rw [isValid_eq o, consumed]; rfl
    have hrest := ih (fun e he => hquiet e (by simp [he])) fun hmem he => hno (by simp [hmem]) he
    have hhides := shown_eq hides
    rw [relayed, List.takeWhile_cons_of_pos hvalid, List.filter_cons, ← hhides]
    exact hrest
  | @yielded event events o o' es r consumed shows rest ih =>
    have hvalid : isValid event = true := by rw [isValid_eq o, consumed]; rfl
    have hrest := ih (fun e he => hquiet e (by simp [he])) fun hmem he => hno (by simp [hmem]) he
    have hshows := shown_eq shows
    rw [relayed, List.takeWhile_cons_of_pos hvalid, List.filter_cons, ← hshows]
    exact congrArg (event :: ·) hrest

theorem yields_records {es : List Event} (h : ∀ e ∈ es, e.1.isRecord = true) : yields es = [] := by
  rw [yields, List.filterMap_eq_nil_iff]
  intro e he
  have hrecord := h e he
  obtain ⟨c, x⟩ := e
  cases c with
  | yieldEvent event => cases hrecord
  | _ => rfl

/-- `finally` yields nothing. -/
theorem yields_settle {s : Stream} {o : Observation} {outcome : Outcome} {es : List Event}
    {r : Except Exc Unit} (h : Prog.Emits (settle s o outcome) es r) : yields es = [] := by
  rcases emits_settle h with ⟨rfl, -⟩ | ⟨closing, rest, -, rfl, hrest⟩
  · rfl
  · show yields rest = []
    exact yields_records hrest.only

/-! ## The first chunk -/

/-- The events read ahead have one value. -/
theorem sseDataValues_prefetched {prelude : List SseEvent} {completion : SseEvent}
    (hframed : ∀ event ∈ prelude ++ [completion], Framed event)
    (hprelude : ∀ event ∈ prelude, eventData event = none) :
    sseDataValues (prelude ++ [completion]).flatten =
      ((eventData completion).map strip).toList := by
  have hpre : prelude.flatMap sseDataValues = [] := by
    rw [List.flatMap_eq_nil_iff]
    intro event hevent
    rw [sseDataValues_framed (hframed event (List.mem_append_left _ hevent)), hprelude event hevent]
    rfl
  rw [sseDataValues_flatten hframed, List.flatMap_append, hpre, List.nil_append,
    List.flatMap_singleton, sseDataValues_framed (hframed completion (by simp))]

/-- A completion event has choices, so it is not hidden. -/
theorem isUsageOnly_completion {name : String} {read : List SseEvent}
    (hread : Prefetched name 32 0 read) (hframed : ∀ event ∈ read, Framed event) :
    isUsageOnly read.flatten = false := by
  obtain ⟨prelude, completion, rfl, hprelude, hvalid⟩ := hread.exists_completion
  obtain ⟨data, payload, choice, choices, hdata, hdone, hpayload, -, hchoices⟩ :=
    isCompletionEvent_true hvalid
  have hload : loads (strip data) = .ok (.obj payload) := parse_strip hpayload
  have hnil : strip data ≠ [] := fun hnil => by
    rw [hnil] at hload
    cases hload
  have husage : isUsageChunk payload = false := by
    rw [isUsageChunk, hchoices]
    rfl
  have hchunks : chunksOf [strip data] = .ok (some [payload]) := by
    rw [chunksOf, if_neg (not_or.mpr ⟨hnil, hdone⟩), hload]
    rfl
  rw [isUsageOnly, isUsageOnlyEvent, sseDataValues_prefetched hframed hprelude, hdata,
    Option.map_some, Option.toList_some, hchunks]
  show (!([payload].isEmpty) && [payload].all isUsageChunk) = false
  simp [husage]

/-! ## The relay -/

/-- **Nothing is lost, doubled or reordered.** -/
theorem relay_lossless (name : String) (lines : List PyStr)
    (hlines : ∀ line ∈ lines, OneLine line) :
    ((∃ opened, openEvents name lines = .ok opened) ↔ Opens name (iterSseEvents lines)) ∧
    ∀ opened, openEvents name lines = .ok opened →
      ∃ prefetched, iterSseEvents lines = prefetched ++ opened.remainingEvents ∧
        opened.firstEvent = prefetched.flatten ∧ isUsageOnly opened.firstEvent = false ∧
        (∀ o : Observation, o.consume opened.firstEvent = consumeEvents o prefetched) ∧
        ∀ (s : Stream) (es : List Event) (r : Except Exc Unit), s.served.result = opened →
          Prog.Emits (downstream s) es r → (∀ e ∈ es, interrupts e = false) →
          yields es = relayed s.includeUsage (opened.firstEvent :: opened.remainingEvents) := by
  have hframed := iterSseEvents_framed hlines
  constructor
  · rw [opens_iff]
    constructor
    · rintro ⟨opened, hopened⟩
      obtain ⟨read, hevents, -, hread⟩ := openEvents_eq_ok.mp hopened
      exact ⟨read, opened.remainingEvents, hevents, hread⟩
    · rintro ⟨read, rest, hevents, hread⟩
      exact ⟨⟨read.flatten, rest⟩, openEvents_eq_ok.mpr ⟨read, hevents, rfl, hread⟩⟩
  · intro opened hopened
    obtain ⟨read, hevents, hfirst, hread⟩ := openEvents_eq_ok.mp hopened
    have hframed : ∀ event ∈ read, Framed event := fun event hevent =>
      hframed event (by rw [hevents]; exact List.mem_append_left _ hevent)
    refine ⟨read, hevents, hfirst, ?_, ?_, ?_⟩
    · rw [hfirst]
      exact isUsageOnly_completion hread hframed
    · intro o
      rw [hfirst]
      exact consume_flatten hframed o
    · intro s es r hs h hquiet
      -- settling yields nothing, so all events come from the loop
      obtain ⟨es₁, es₂, o, loopEnd, r', rfl, hrelays, hsettle⟩ := emits_downstream h
      have hloop := yields_relays hrelays fun e he => hquiet e (List.mem_append_left _ he)
      rw [Stream.events, hs] at hloop
      rw [← hloop, yields, List.filterMap_append]
      exact (congrArg _ (yields_settle hsettle)).trans (List.append_nil _)

/-- A comment, a chunk, and the mark. -/
def helloLines : List PyStr :=
  [str ": hi", [], str "data: \x7b\"choices\":[\x7b\x7d]\x7d", [], str "data: [DONE]"]

def helloOpened : OpenedEvents :=
  ⟨str ": hi\n\ndata: \x7b\"choices\":[\x7b\x7d]\x7d\n\n", [str "data: [DONE]\n\n"]⟩

/-- A stream that is opened, by evaluation. -/
theorem openEvents_of_check {name : String} {lines : List PyStr} {opened : OpenedEvents}
    (h : (match openEvents name lines with
      | .ok opened' => decide (opened'.firstEvent = opened.firstEvent ∧
          opened'.remainingEvents = opened.remainingEvents)
      | .error _ => false) = true) : openEvents name lines = .ok opened := by
  split at h
  · rename_i opened' hopened
    obtain ⟨hfirst, hrest⟩ := of_decide_eq_true h
    rw [hopened, show opened' = ⟨opened'.firstEvent, opened'.remainingEvents⟩ from rfl, hfirst,
      hrest]
  · cases h

theorem openEvents_hello : openEvents "mock-a" helloLines = .ok helloOpened :=
  openEvents_of_check (by decide +kernel)

theorem relay_lossless_hello : ∃ es r,
    Prog.Emits (downstream (forcedStream "mock-a" helloOpened .finished)) es r ∧
      yields es = helloOpened.firstEvent :: helloOpened.remainingEvents := by
  obtain ⟨es, r, hes, hanswers⟩ :=
    Prog.emits_exists undisturbed (downstream (forcedStream "mock-a" helloOpened .finished))
  have hquiet : ∀ e ∈ es, interrupts e = false := by
    intro e he
    obtain ⟨c, x⟩ := e
    have hx : x = undisturbed c := hanswers _ he
    rw [hx]
    cases c <;> rfl
  have hlines : ∀ line ∈ helloLines, OneLine line := by decide +kernel
  obtain ⟨prefetched, -, -, -, -, hyields⟩ :=
    (relay_lossless "mock-a" helloLines hlines).2 helloOpened openEvents_hello
  refine ⟨es, r, hes, ?_⟩
  rw [hyields _ es r rfl hes hquiet]
  show relayed false _ = _
  decide +kernel

end PolyGate.Gateway.Downstream.Relay
