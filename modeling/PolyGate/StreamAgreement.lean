import PolyGate.StreamReading

/-!
# `StreamAgreement.lean` — when the web client takes a successful stream for one

The Gateway calls a stream a success when every event could be read and a `finish_reason` and
`[DONE]` were among them. The web client reads what was relayed up to the first `[DONE]`, so it
comes to the same end with the same text when it reads every event as the Gateway does, sees the
mark where the Gateway does, and no text comes after it (`Agreed`).
-/

namespace PolyGate.StreamAgreement

open Lib Gateway
open Downstream.Relay (Framed)

/-! ## The two ends -/

/-- The chunks are those of the UTF-8 of the text, and the decoder makes the text of them. -/
structure Decodes (T : Web.TextDecoder) (chunks : List (List UInt8)) (text : PyStr) : Prop where
  encoded : (encodeUtf8 text).map (·.data.toList) = some chunks.flatten
  decoded : (T.decode T.new chunks.flatten).1 ++ T.flush (T.decode T.new chunks.flatten).2 =
    withoutBom text

/-- Some text comes before the first `[DONE]`. -/
def HasContent (text : PyStr) : Prop :=
  ∃ data ∈ (sseDataValues text).takeWhile (· ≠ doneMark), contentsOf data ≠ []

instance (text : PyStr) : Decidable (HasContent text) := List.decidableBEx _ _

/-- The web client ends without an error, and its answer is the text of all chunks. -/
def Succeeds (T : Web.TextDecoder) (chunks : List (List UInt8)) (text : PyStr) : Prop :=
  ∃ c, Web.requestStreamingCompletion T .done chunks = (c, none) ∧
    c.answer = (contentsIn text).flatten

/-! ## The condition -/

/-- The events of a text. -/
def eventsIn (text : PyStr) : List SseEvent := iterSseEvents (splitlines text)

/-- What must be said of a relayed text for the web client to take it for a success. -/
structure Agreed (text : PyStr) : Prop where
  before : ∀ event ∈ (eventsIn text).takeWhile (!isDone ·), ReadAlike event
  mark : ∀ event ∈ ((eventsIn text).dropWhile (!isDone ·)).head?,
    ∀ data ∈ eventData event, unitSeparator ∉ data
  after : ∀ event ∈ ((eventsIn text).dropWhile (!isDone ·)).tail, contentsIn event = []

/-- The condition, as a check. -/
def agrees (text : PyStr) : Bool :=
  ((eventsIn text).takeWhile (!isDone ·)).all (fun event => decide (ReadAlike event)) &&
    ((eventsIn text).dropWhile (!isDone ·)).head?.all (fun event =>
      (eventData event).all fun data => data.all fun p => decide (p ≠ unitSeparator)) &&
    ((eventsIn text).dropWhile (!isDone ·)).tail.all (fun event => (contentsIn event).isEmpty)

theorem agrees_iff {text : PyStr} : agrees text = true ↔ Agreed text := by
  unfold agrees
  rw [Bool.and_eq_true, Bool.and_eq_true]
  constructor
  · intro h
    refine ⟨by simpa using h.1.1, ?_, by simpa using h.2⟩
    simpa [Option.all_eq_true, List.forall_mem_ne'] using h.1.2
  · intro h
    refine ⟨⟨by simpa using h.before, ?_⟩, by simpa using h.after⟩
    simpa [Option.all_eq_true, List.forall_mem_ne'] using h.mark

instance (text : PyStr) : Decidable (Agreed text) :=
  decidable_of_iff (agrees text = true) agrees_iff

/-! ## A whole stream -/

/-- The events of joined events. -/
theorem eventsIn_flatten {events : List SseEvent} (h : ∀ event ∈ events, Framed event) :
    eventsIn events.flatten = events := by
  have hfrom {lines : List PyStr} (hlines : ∀ line ∈ lines, line ≠ []) (hne : lines ≠ [])
      (rest : List PyStr) : iterSseEvents (lines ++ [] :: rest) =
        eventOf lines :: iterSseEvents rest := by
    have hcurrent : ∀ current : List PyStr, current ++ lines ≠ [] →
        iterSseEventsFrom current (lines ++ [] :: rest) =
          eventOf (current ++ lines) :: iterSseEvents rest := by
      clear hne
      induction lines with
      | nil =>
        intro current hne
        rw [List.append_nil] at hne ⊢
        rw [List.nil_append, iterSseEventsFrom, if_pos rfl, if_neg hne]
        rfl
      | cons line lines ih =>
        intro current _
        obtain ⟨hline, hlines⟩ := List.forall_mem_cons.mp hlines
        have hstep := ih hlines (current ++ [line]) (by simp)
        rw [List.cons_append, iterSseEventsFrom, if_neg hline, hstep, List.append_assoc,
          List.singleton_append]
    exact hcurrent [] hne
  induction events with
  | nil => rfl
  | cons event events ih =>
    obtain ⟨⟨lines, hne, hlines, rfl⟩, hevents⟩ := List.forall_mem_cons.mp h
    rw [eventsIn, List.flatten_cons, Downstream.Relay.splitlines_eventOf hne
      fun line hline => (hlines line hline).2, hfrom (fun line hline => (hlines line hline).1) hne]
    exact congrArg _ (ih hevents)

theorem contentsIn_flatten {events : List SseEvent} (h : ∀ event ∈ events, Framed event) :
    contentsIn events.flatten = events.flatMap contentsIn := by
  rw [contentsIn, Downstream.Relay.sseDataValues_flatten h, List.flatMap_assoc]
  rfl

/-- The strings that are added are not empty. -/
theorem contents_ne_nil {chunk : Json} : ∀ s ∈ Web.Collected.contents chunk, s ≠ [] := by
  intro s hs
  unfold Web.Collected.contents at hs
  split at hs
  · split at hs
    · obtain ⟨choice, -, hchoice⟩ := List.mem_filterMap.mp hs
      unfold Web.Collected.contentOf at hchoice
      split at hchoice
      · split at hchoice
        · split at hchoice
          · split at hchoice
            · cases hchoice
            · rename_i hne
              rw [← Option.some.inj hchoice]
              exact hne
          · cases hchoice
        · cases hchoice
      · cases hchoice
    · cases hs
  · cases hs

theorem contentsIn_ne_nil {text : PyStr} : ∀ s ∈ contentsIn text, s ≠ [] := by
  intro s hs
  obtain ⟨data, -, hs⟩ := List.mem_flatMap.mp hs
  unfold contentsOf at hs
  split at hs
  · exact contents_ne_nil s hs
  · cases hs

/-- The web client reads the data of the whole text, in whatever chunks it comes. -/
theorem requestStreamingCompletion_eq {T : Web.TextDecoder} (hT : T.Incremental)
    {chunks : List (List UInt8)} {text : PyStr} (h : Decodes T chunks text) :
    Web.requestStreamingCompletion T .done chunks =
      match Web.Collected.new.consumeAll (Web.dataValues (withoutBom text)) with
      | (c, none) => c.finish
      | (c, some kind) => (c, some kind) := by
  have hpush : (Web.dataValues (withoutBom text)) =
      (Web.SseEventDecoder.new.push (T.decode T.new chunks.flatten).1).1 ++
        ((Web.SseEventDecoder.new.push (T.decode T.new chunks.flatten).1).2.push
          (T.flush (T.decode T.new chunks.flatten).2)).1 := by
    rw [← h.decoded, Web.dataValues, ← Web.drain_dataValues]
    exact congrArg Prod.fst (Web.SseEventDecoder.push_append (d := .new) _ _)
  rw [hpush, Web.Collected.consumeAll_append, Web.requestStreamingCompletion,
    Web.Reader.read_flatten hT Web.SseEventDecoder.new_settled]
  unfold Web.Reader.read
  dsimp only [Web.Reader.new]
  cases hfirst : Web.Collected.new.consumeAll
      (Web.SseEventDecoder.new.push (T.decode T.new chunks.flatten).1).1 with
  | mk c e =>
    cases e with
    | some kind => rfl
    | none => rfl

/-- A stream of events up to the mark, the mark, and what comes after it. -/
structure Marked (before : List SseEvent) (mark : SseEvent) (after : List SseEvent) : Prop where
  framed : ∀ event ∈ before ++ mark :: after, Framed event
  accepted : ∀ event ∈ before, ∀ data ∈ sseDataValues event, Accepted data
  before_done : ∀ event ∈ before, isDone event = false
  mark_done : isDone mark = true

theorem mark_values {mark : SseEvent} (hframed : Framed mark) (hdone : isDone mark = true) :
    ∃ data, eventData mark = some data ∧ strip data = doneMark ∧
      sseDataValues mark = [doneMark] := by
  obtain ⟨data, hdata, hstrip⟩ := Option.map_eq_some_iff.mp (of_decide_eq_true hdone)
  refine ⟨data, hdata, hstrip, ?_⟩
  rw [Downstream.Relay.sseDataValues_framed hframed, hdata, Option.map_some, hstrip]
  rfl

theorem contentsIn_mark {mark : SseEvent} (hframed : Framed mark) (hdone : isDone mark = true) :
    contentsIn mark = [] := by
  obtain ⟨data, -, -, hvalues⟩ := mark_values hframed hdone
  rw [contentsIn, hvalues]
  rfl

/-- The first mark of a stream that has one. -/
theorem exists_marked {events : List SseEvent} (hframed : ∀ event ∈ events, Framed event)
    (haccepted : ∀ event ∈ events, ∀ data ∈ sseDataValues event, Accepted data)
    (hdone : doneMark ∈ sseDataValues events.flatten) :
    ∃ before mark after, events = before ++ mark :: after ∧ Marked before mark after := by
  have hmark : ∃ event ∈ events, isDone event = true := by
    rw [Downstream.Relay.sseDataValues_flatten hframed] at hdone
    obtain ⟨event, hevent, hvalue⟩ := List.mem_flatMap.mp hdone
    refine ⟨event, hevent, decide_eq_true ?_⟩
    rw [Downstream.Relay.sseDataValues_framed (hframed event hevent), Option.mem_toList] at hvalue
    exact hvalue
  obtain ⟨mark, hfind⟩ := Option.isSome_iff_exists.mp (List.find?_isSome.mpr hmark)
  obtain ⟨hfirst, before, after, rfl, hbefore⟩ := List.find?_eq_some_iff_append.mp hfind
  refine ⟨before, mark, after, rfl, hframed, ?_, ?_, hfirst⟩
  · exact fun event hevent => haccepted event (List.mem_append_left _ hevent)
  · exact fun event hevent => by simpa using hbefore event hevent

section Marked
variable {before after : List SseEvent} {mark : SseEvent} (h : Marked before mark after)
include h

theorem Marked.contentsIn_eq : contentsIn (before ++ mark :: after).flatten =
    before.flatMap contentsIn ++ after.flatMap contentsIn := by
  have hmark : Framed mark := h.framed mark (by simp)
  rw [contentsIn_flatten h.framed, List.flatMap_append, List.flatMap_cons,
    contentsIn_mark hmark h.mark_done, List.nil_append]

/-- The values before the mark are those of the events before it. -/
theorem Marked.values_before :
    (sseDataValues (before ++ mark :: after).flatten).takeWhile (· ≠ doneMark) =
      before.flatMap sseDataValues := by
  have hvalues : ∀ data ∈ before.flatMap sseDataValues, decide (data ≠ doneMark) = true := by
    intro data hdata
    obtain ⟨event, hevent, hdata⟩ := List.mem_flatMap.mp hdata
    have hframed : Framed event := h.framed event (List.mem_append_left _ hevent)
    rw [Downstream.Relay.sseDataValues_framed hframed, Option.mem_toList] at hdata
    refine decide_eq_true fun hmark => ?_
    have hnot := of_decide_eq_false (h.before_done event hevent)
    exact hnot (hmark ▸ hdata)
  obtain ⟨-, -, -, hmark⟩ := mark_values (h.framed mark (by simp)) h.mark_done
  rw [Downstream.Relay.sseDataValues_flatten h.framed, List.flatMap_append, List.flatMap_cons,
    hmark, List.takeWhile_append_of_pos hvalues, List.singleton_append,
    List.takeWhile_cons_of_neg (by simp), List.append_nil]

/-- Text in an event before the mark is text before the mark. -/
theorem Marked.hasContent_of (htext : before.flatMap contentsIn ≠ []) :
    HasContent (before ++ mark :: after).flatten := by
  obtain ⟨s, hs⟩ := List.exists_mem_of_ne_nil _ htext
  obtain ⟨event, hevent, hs⟩ := List.mem_flatMap.mp hs
  obtain ⟨data, hdata, hs⟩ := List.mem_flatMap.mp hs
  refine ⟨data, ?_, List.ne_nil_of_mem hs⟩
  rw [h.values_before]
  exact List.mem_flatMap.mpr ⟨event, hevent, hdata⟩

/-- The text before the mark is that of the events before it. -/
theorem Marked.hasContent (hcontent : HasContent (before ++ mark :: after).flatten) :
    (before.flatMap contentsIn).flatten ≠ [] := by
  obtain ⟨data, hdata, hne⟩ := hcontent
  rw [h.values_before] at hdata
  obtain ⟨event, hevent, hdata⟩ := List.mem_flatMap.mp hdata
  obtain ⟨s, hs⟩ := List.exists_mem_of_ne_nil _ hne
  have hs : s ∈ contentsIn event := List.mem_flatMap.mpr ⟨data, hdata, hs⟩
  intro hnil
  exact contentsIn_ne_nil s hs
    (List.flatten_eq_nil_iff.mp hnil s (List.mem_flatMap.mpr ⟨event, hevent, hs⟩))

theorem Marked.takeWhile_eq : (before ++ mark :: after).takeWhile (!isDone ·) = before := by
  have hbefore : ∀ event ∈ before, (!isDone event) = true := fun event hevent => by
    rw [h.before_done event hevent]
    rfl
  rw [List.takeWhile_append_of_pos hbefore,
    List.takeWhile_cons_of_neg (by rw [h.mark_done]; decide), List.append_nil]

theorem Marked.dropWhile_eq :
    (before ++ mark :: after).dropWhile (!isDone ·) = mark :: after := by
  have hbefore : ∀ event ∈ before, (!isDone event) = true := fun event hevent => by
    rw [h.before_done event hevent]
    rfl
  rw [List.dropWhile_append_of_pos hbefore,
    List.dropWhile_cons_of_neg (by rw [h.mark_done]; decide)]

/-- The condition, for a stream that is split at its mark. -/
theorem Marked.agreed_iff : Agreed (before ++ mark :: after).flatten ↔
    (∀ event ∈ before, ReadAlike event) ∧ (∀ data ∈ eventData mark, unitSeparator ∉ data) ∧
      ∀ event ∈ after, contentsIn event = [] := by
  have hevents := eventsIn_flatten h.framed
  constructor
  · rintro ⟨hbefore, hmark, hafter⟩
    rw [hevents, h.takeWhile_eq] at hbefore
    rw [hevents, h.dropWhile_eq] at hmark hafter
    exact ⟨hbefore, hmark mark rfl, hafter⟩
  · rintro ⟨hbefore, hmark, hafter⟩
    refine ⟨?_, ?_, ?_⟩
    · rw [hevents, h.takeWhile_eq]
      exact hbefore
    · rw [hevents, h.dropWhile_eq]
      rintro event hevent
      obtain rfl := Option.some.inj hevent
      exact hmark
    · rw [hevents, h.dropWhile_eq]
      exact hafter

/-- The web client on a stream that is split at its mark. -/
theorem Marked.consumeAll {c : Web.Collected} (hc : c.sawDone = false) :
    ((∀ event ∈ before, ReadAlike event) ∧ (∀ data ∈ eventData mark, unitSeparator ∉ data) →
      c.consumeAll ((before ++ mark :: after).filterMap webData) =
        ({ c.addContents (before.flatMap contentsIn) with sawDone := true }, none)) ∧
    (¬ ((∀ event ∈ before, ReadAlike event) ∧ ∀ data ∈ eventData mark, unitSeparator ∉ data) →
      (c.consumeAll ((before ++ mark :: after).filterMap webData)).2 ≠ none) := by
  obtain ⟨data, hdata, hdone, -⟩ := mark_values (h.framed mark (by simp)) h.mark_done
  obtain ⟨lines, lines', hlines, hweb, hblanked⟩ := webData_of_some hdata
  obtain ⟨hread, hfail⟩ := consumeAll_before hc
    (fun event hevent => h.framed event (List.mem_append_left _ hevent)) h.accepted h.before_done
  have hmark : (∀ data ∈ eventData mark, unitSeparator ∉ data) ↔ unitSeparator ∉ data := by
    rw [hdata]
    simp
  rw [hmark, List.filterMap_append, Web.Collected.consumeAll_append, List.filterMap_cons, hweb]
  by_cases hbefore : ∀ event ∈ before, ReadAlike event
  · rw [hread hbefore]
    dsimp only
    have hadded : (c.addContents (before.flatMap contentsIn)).sawDone = false := hc
    obtain ⟨hmarked, hseparated⟩ := consumeData_done hadded hdata hdone hlines hblanked
    rw [Web.Collected.consumeAll]
    refine ⟨fun hsep => ?_, fun hsep => ?_⟩
    · rw [hmarked hsep.2]
      exact consumeAll_done rfl _
    · have hne := hseparated (not_not.mp fun hsep' => hsep ⟨hbefore, hsep'⟩)
      split
      · rename_i hresult
        rw [hresult] at hne
        exact absurd rfl hne
      · exact Option.some_ne_none _
  · refine ⟨fun hall => absurd hall.1 hbefore, fun _ => ?_⟩
    have hne := hfail hbefore
    split
    · rename_i hresult
      rw [hresult] at hne
      exact absurd rfl hne
    · exact Option.some_ne_none _

end Marked

/-- **When the web client takes a stream that the Gateway accepts for a success.** -/
theorem succeeds_of_events {T : Web.TextDecoder} (hT : T.Incremental) {events : List SseEvent}
    (hframed : ∀ event ∈ events, Framed event)
    (haccepted : ∀ event ∈ events, ∀ data ∈ sseDataValues event, Accepted data)
    (hdone : doneMark ∈ sseDataValues events.flatten) (hcontent : HasContent events.flatten)
    {chunks : List (List UInt8)} (hdecodes : Decodes T chunks events.flatten)
    (hbom : NoMarkedData events.flatten) :
    Succeeds T chunks events.flatten ↔ Agreed events.flatten := by
  have hresult := requestStreamingCompletion_eq hT hdecodes
  rw [dataValues_withoutBom hframed hbom, dataValues_flatten hframed] at hresult
  obtain ⟨before, mark, after, rfl, h⟩ := exists_marked hframed haccepted hdone
  obtain ⟨hread, hfail⟩ := h.consumeAll (c := .new) rfl
  have hanswer := h.hasContent hcontent
  unfold Succeeds
  rw [h.agreed_iff, h.contentsIn_eq, hresult, List.flatten_append]
  -- both readers take the same as long as each event before the mark is read alike
  by_cases hall : (∀ event ∈ before, ReadAlike event) ∧
      ∀ data ∈ eventData mark, unitSeparator ∉ data
  · have hfinish : ({ Web.Collected.new.addContents (before.flatMap contentsIn) with
        sawDone := true } : Web.Collected).finish =
          ({ Web.Collected.new.addContents (before.flatMap contentsIn) with sawDone := true },
            none) := by
      simp [Web.Collected.finish, Web.Collected.addContents, Web.Collected.new, hanswer]
    rw [hread hall]
    dsimp only
    rw [hfinish]
    constructor
    · rintro ⟨c, hc, htext⟩
      obtain rfl := congrArg Prod.fst hc
      have hnil : (after.flatMap contentsIn).flatten = [] := by
        simpa [Web.Collected.addContents, Web.Collected.new] using htext
      refine ⟨hall.1, hall.2, fun event hevent => ?_⟩
      refine List.eq_nil_iff_forall_not_mem.mpr fun s hs => contentsIn_ne_nil s hs ?_
      exact List.flatten_eq_nil_iff.mp hnil s (List.mem_flatMap.mpr ⟨event, hevent, hs⟩)
    · rintro ⟨-, -, hafter⟩
      refine ⟨_, rfl, ?_⟩
      rw [List.flatMap_eq_nil_iff.mpr hafter]
      simp [Web.Collected.addContents, Web.Collected.new]
  · have hne := hfail hall
    constructor
    · rintro ⟨c, hc, -⟩
      split at hc
      · rename_i heq
        rw [heq] at hne
        exact absurd rfl hne
      · cases congrArg Prod.snd hc
    · rintro ⟨hbefore, hmark, -⟩
      exact absurd ⟨hbefore, hmark⟩ hall

/-! ## A stream with outcome success -/

open Downstream (Stream relay outcomeOf Relays)
open Downstream.Relay (isUsageOnly yields interrupts Prefetched)

/-- What is hidden is no mark and has no text. -/
theorem hidden_values {event : SseEvent} (h : isUsageOnly event = true) :
    ∀ data ∈ sseDataValues event, data ≠ doneMark ∧ contentsOf data = [] := by
  -- a usage chunk has no choices, so it has no content
  have hchunk {chunk : Obj} (h : isUsageChunk chunk = true) :
      Web.Collected.contents (.obj chunk) = [] := by
    rw [Web.Collected.contents]
    split
    · rename_i choices hchoices
      cases choices with
      | nil => rfl
      | cons choice choices =>
        unfold isUsageChunk at h
        rw [hchoices] at h
        cases h
    · rfl
  -- one by one, as `chunksOf` reads them
  have hall : ∀ {values : List PyStr} {chunks : List Obj}, chunksOf values = .ok (some chunks) →
      chunks.all isUsageChunk = true →
      ∀ data ∈ values, data ≠ doneMark ∧ contentsOf data = [] := by
    intro values
    induction values with
    | nil =>
      intro chunks _ _ data hdata
      cases hdata
    | cons value values ih =>
      intro chunks hchunks husage
      unfold chunksOf at hchunks
      split at hchunks
      · cases hchunks
      · rename_i hmark
        split at hchunks
        · cases hchunks
        · cases hchunks
        · rename_i chunk hload
          cases hrest : chunksOf values with
          | error e =>
            rw [hrest] at hchunks
            cases hchunks
          | ok rest =>
            rw [hrest] at hchunks
            cases rest with
            | none => cases hchunks
            | some rest =>
              cases hchunks
              obtain ⟨hfirst, hrests⟩ := Bool.and_eq_true_iff.mp husage
              refine List.forall_mem_cons.mpr ⟨⟨fun hdone => hmark (Or.inr hdone), ?_⟩,
                ih hrest hrests⟩
              rw [contentsOf, hload]
              exact hchunk hfirst
        · cases hchunks
  unfold isUsageOnly isUsageOnlyEvent at h
  cases hchunks : chunksOf (sseDataValues event) with
  | error e =>
    rw [hchunks] at h
    cases h
  | ok chunks =>
    rw [hchunks] at h
    cases chunks with
    | none => cases h
    | some chunks => exact hall hchunks (Bool.and_eq_true_iff.mp h).2

/-- Hiding events leaves the mark and the text before it. -/
theorem mem_filter_values {f : SseEvent → Bool} {events : List SseEvent}
    (hf : ∀ event ∈ events, f event = false →
      ∀ data ∈ sseDataValues event, data ≠ doneMark ∧ contentsOf data = []) :
    (doneMark ∈ events.flatMap sseDataValues →
      doneMark ∈ (events.filter f).flatMap sseDataValues) ∧
    ((∃ data ∈ (events.flatMap sseDataValues).takeWhile (· ≠ doneMark), contentsOf data ≠ []) →
      ∃ data ∈ ((events.filter f).flatMap sseDataValues).takeWhile (· ≠ doneMark),
        contentsOf data ≠ []) := by
  induction events with
  | nil => exact ⟨id, id⟩
  | cons event events ih =>
    obtain ⟨hevent, hevents⟩ := List.forall_mem_cons.mp hf
    obtain ⟨ihdone, ihcontent⟩ := ih hevents
    rw [List.flatMap_cons, List.filter_cons]
    split
    · rw [List.flatMap_cons]
      refine ⟨fun hmem => ?_, fun hcontent => ?_⟩
      · rcases List.mem_append.mp hmem with hmem | hmem
        · exact List.mem_append_left _ hmem
        · exact List.mem_append_right _ (ihdone hmem)
      · rw [List.takeWhile_append] at hcontent ⊢
        -- the done mark stands behind this event, or in it
        split at hcontent
        · rename_i hlength
          rw [if_pos hlength]
          obtain ⟨data, hdata, hne⟩ := hcontent
          rcases List.mem_append.mp hdata with hdata | hdata
          · exact ⟨data, List.mem_append_left _ hdata, hne⟩
          · obtain ⟨data', hdata', hne'⟩ := ihcontent ⟨data, hdata, hne⟩
            exact ⟨data', List.mem_append_right _ hdata', hne'⟩
        · rename_i hlength
          rw [if_neg hlength]
          exact hcontent
    -- a hidden event holds neither the mark nor content
    · rename_i hhidden
      have hvalues := hevent (Bool.eq_false_iff.mpr hhidden)
      refine ⟨fun hmem => ?_, fun hcontent => ?_⟩
      · rcases List.mem_append.mp hmem with hmem | hmem
        · exact absurd rfl (hvalues _ hmem).1
        · exact ihdone hmem
      · have hnone : ∀ data ∈ sseDataValues event, decide (data ≠ doneMark) = true :=
          fun data hdata => decide_eq_true (hvalues data hdata).1
        rw [List.takeWhile_append_of_pos hnone] at hcontent
        obtain ⟨data, hdata, hne⟩ := hcontent
        rcases List.mem_append.mp hdata with hdata | hdata
        · exact absurd (hvalues data hdata).2 hne
        · exact ihcontent ⟨data, hdata, hne⟩

theorem observeChoices_sawDone (o : Observation) (choices : List Json) :
    (o.observeChoices choices).1.sawDone = o.sawDone := by
  induction choices generalizing o with
  | nil => rfl
  | cons choice choices ih =>
    cases choice with
    | obj choice =>
      unfold Observation.observeChoices
      split
      · exact ih o
      · exact ih o
      · exact ih _
    | _ => rfl

/-- Only the mark is seen as the mark. -/
theorem consumeData_sawDone (o : Observation) {data : PyStr} (h : data ≠ doneMark) :
    (o.consumeData data).1.sawDone = o.sawDone := by
  unfold Observation.consumeData
  rw [if_neg h]
  split
  · rfl
  · rfl
  · split
    · rfl
    · unfold Observation.observeChunk
      split
      · rfl
      · split
        · rfl
        · dsimp only
          split
          · rfl
          · split
            · rfl
            · exact observeChoices_sawDone _ _
  · rfl

theorem accepted_of_consumeAll {o o' : Observation} {values : List PyStr}
    (h : o.consumeAll values = (o', none)) : (∀ data ∈ values, Accepted data) ∧
      (o'.sawDone = true → o.sawDone = true ∨ doneMark ∈ values) := by
  induction values generalizing o with
  | nil =>
    cases h
    exact ⟨List.forall_mem_nil _, Or.inl⟩
  | cons data values ih =>
    unfold Observation.consumeAll at h
    split at h
    · rename_i o₁ hdata
      obtain ⟨haccepted, hdone⟩ := ih h
      have hfirst : Accepted data := accepted_of_consumeData (o := o) (by rw [hdata])
      refine ⟨List.forall_mem_cons.mpr ⟨hfirst, haccepted⟩, fun hsaw => ?_⟩
      rcases hdone hsaw with hsaw | hmem
      · by_cases hmark : data = doneMark
        · exact Or.inr (hmark ▸ List.mem_cons_self)
        · rw [← consumeData_sawDone o hmark, hdata]
          exact Or.inl hsaw
      · exact Or.inr (List.mem_cons_of_mem _ hmem)
    · cases h

/-- **What the loop has done when it ends with success.** -/
theorem relays_success {s : Stream} {events : List SseEvent} {o : Observation}
    {es : List Downstream.Event} {r : Observation × Downstream.LoopEnd}
    (h : Relays s events o es r) (hend : r.2 = .exhausted) :
    Downstream.Relay.consumeEvents o events = (r.1, none) ∧
      yields es = events.filter fun event => s.includeUsage || !isUsageOnly event := by
  induction h with
  | exhausted => exact ⟨rfl, rfl⟩
  | waiting | failed | asking | left | invalid | closed => cases hend
  | @hidden event events o o' es r consumed hides rest ih =>
    obtain ⟨hall, hyields⟩ := ih hend
    refine ⟨?_, ?_⟩
    · rw [Downstream.Relay.consumeEvents, consumed]
      exact hall
    · rw [List.filter_cons, ← Downstream.Relay.shown_eq hides]
      exact hyields
  | @yielded event events o o' es r consumed shows rest ih =>
    obtain ⟨hall, hyields⟩ := ih hend
    refine ⟨?_, ?_⟩
    · rw [Downstream.Relay.consumeEvents, consumed]
      exact hall
    · rw [List.filter_cons, ← Downstream.Relay.shown_eq shows]
      exact congrArg (event :: ·) hyields

theorem accepted_of_consumeEvents {o o' : Observation} {events : List SseEvent}
    (h : Downstream.Relay.consumeEvents o events = (o', none)) :
    (∀ event ∈ events, ∀ data ∈ sseDataValues event, Accepted data) ∧
      (o'.sawDone = true → o.sawDone = true ∨ doneMark ∈ events.flatMap sseDataValues) := by
  induction events generalizing o with
  | nil =>
    cases h
    exact ⟨List.forall_mem_nil _, Or.inl⟩
  | cons event events ih =>
    unfold Downstream.Relay.consumeEvents at h
    split at h
    · rename_i o₁ hevent
      obtain ⟨haccepted, hdone⟩ := ih h
      obtain ⟨hvalues, hfirst⟩ := accepted_of_consumeAll hevent
      refine ⟨List.forall_mem_cons.mpr ⟨hvalues, haccepted⟩, fun hsaw => ?_⟩
      rw [List.flatMap_cons, List.mem_append]
      rcases hdone hsaw with hsaw | hmem
      · exact (hfirst hsaw).imp_right Or.inl
      · exact Or.inr (Or.inr hmem)
    · cases h

/-- **When the web client takes a stream with outcome success for one.** -/
theorem success_shared {T : Web.TextDecoder} (hT : T.Incremental) {name : String}
    {lines : List PyStr} (hlines : ∀ line ∈ lines, OneLine line) {s : Stream}
    (hopened : openEvents name lines = .ok s.served.result) {es : List Downstream.Event}
    {o : Observation} {loopEnd : Downstream.LoopEnd}
    (h : Prog.Emits (relay s s.events .new) es (.ok (o, loopEnd)))
    (hsuccess : outcomeOf o loopEnd = .success) (hcontent : HasContent s.events.flatten)
    {chunks : List (List UInt8)} (hdecodes : Decodes T chunks (yields es).flatten) :
    (NoMarkedData (yields es).flatten ∧ Agreed (yields es).flatten →
      Succeeds T chunks (yields es).flatten) ∧
    (NoMarkedData (yields es).flatten → Succeeds T chunks (yields es).flatten →
      Agreed (yields es).flatten) := by
  have hframed := Downstream.Relay.iterSseEvents_framed hlines
  obtain ⟨read, hevents, hfirst, hprefetched⟩ := Downstream.Relay.openEvents_eq_ok.mp hopened
  obtain ⟨x, hx, hrelays⟩ := Downstream.relays_relay h
  obtain rfl := Except.ok.inj hx
  have hend : loopEnd = .exhausted ∧ o.complete = true := by
    cases loopEnd with
    | exhausted =>
      unfold outcomeOf at hsuccess
      dsimp only at hsuccess
      split at hsuccess
      · rename_i hcomplete
        exact ⟨rfl, hcomplete⟩
      · cases hsuccess
    | disconnected => cases hsuccess
    | raised e => cases e <;> cases hsuccess
  obtain ⟨hconsumed, hyields⟩ := relays_success hrelays hend.1
  obtain ⟨haccepted, hsaw⟩ := accepted_of_consumeEvents hconsumed
  have hdone : doneMark ∈ s.events.flatMap sseDataValues := by
    rcases hsaw (Bool.and_eq_true_iff.mp hend.2).1 with hfalse | hmem
    · cases hfalse
    · exact hmem
  have hrest : ∀ event ∈ s.served.result.remainingEvents, Framed event := fun event hevent =>
    hframed event (by rw [hevents]; exact List.mem_append_right _ hevent)
  have hread : ∀ event ∈ read, Framed event := fun event hevent =>
    hframed event (by rw [hevents]; exact List.mem_append_left _ hevent)
  -- the first event is those that were read ahead
  have hjoined {rest : List SseEvent} (hrest : ∀ event ∈ rest, Framed event) :
      sseDataValues (read.flatten :: rest).flatten =
        (read.flatten :: rest).flatMap sseDataValues := by
    have hall : ∀ event ∈ read ++ rest, Framed event := List.forall_mem_append.mpr ⟨hread, hrest⟩
    rw [List.flatten_cons, ← List.flatten_append, Downstream.Relay.sseDataValues_flatten hall,
      List.flatMap_append, List.flatMap_cons, Downstream.Relay.sseDataValues_flatten hread]
  have hhidden : ∀ event ∈ s.events, (s.includeUsage || !isUsageOnly event) = false →
      ∀ data ∈ sseDataValues event, data ≠ doneMark ∧ contentsOf data = [] := by
    intro event _ hhidden
    rw [Bool.or_eq_false_iff] at hhidden
    exact hidden_values (by simpa using hhidden.2)
  obtain ⟨hmarkKept, hcontentKept⟩ := mem_filter_values hhidden
  let later := s.served.result.remainingEvents.filter fun event =>
    s.includeUsage || !isUsageOnly event
  have hlater : ∀ event ∈ later, Framed event :=
    fun event hevent => hrest event (List.mem_filter.mp hevent).1
  have hshown : yields es = read.flatten :: later := by
    have hnot := Downstream.Relay.isUsageOnly_completion hprefetched hread
    rw [hyields, Stream.events, hfirst, List.filter_cons, hnot, Bool.not_false, Bool.or_true]
    rfl
  have hvalues : sseDataValues (yields es).flatten = (yields es).flatMap sseDataValues := by
    rw [hshown]
    exact hjoined hlater
  have htext : (yields es).flatten = (read ++ later).flatten := by
    rw [hshown, List.flatten_cons, List.flatten_append]
  have hmark : doneMark ∈ sseDataValues (yields es).flatten := by
    rw [hvalues, hyields]
    exact hmarkKept hdone
  have hsome : HasContent (yields es).flatten := by
    unfold HasContent at hcontent ⊢
    rw [hvalues, hyields]
    refine hcontentKept ?_
    rw [Stream.events, hfirst] at hcontent ⊢
    rw [← hjoined hrest]
    exact hcontent
  have hall : ∀ event ∈ read ++ later, ∀ data ∈ sseDataValues event, Accepted data := by
    intro event hevent data hdata
    rcases List.mem_append.mp hevent with hevent | hevent
    · have hmem : read.flatten ∈ s.events := by
        rw [Stream.events, hfirst]
        exact List.mem_cons_self
      refine haccepted read.flatten hmem data ?_
      rw [Downstream.Relay.sseDataValues_flatten hread]
      exact List.mem_flatMap.mpr ⟨event, hevent, hdata⟩
    · refine haccepted event ?_ data hdata
      rw [Stream.events]
      exact List.mem_cons_of_mem _ (List.mem_filter.mp hevent).1
  rw [htext] at hdecodes hmark hsome ⊢
  have hiff := succeeds_of_events hT (List.forall_mem_append.mpr ⟨hread, hlater⟩) hall hmark hsome
    hdecodes
  exact ⟨fun h => (hiff h.1).mpr h.2, fun hbom => (hiff hbom).mp⟩

/-- A stream that can be read can be relayed to its end. -/
theorem emits_relay {s : Stream} (hfinished : s.ending = .finished) {events : List SseEvent}
    {o o' : Observation} (h : Downstream.Relay.consumeEvents o events = (o', none)) :
    ∃ es, Prog.Emits (relay s events o) es (.ok (o', .exhausted)) ∧
      ∀ e ∈ es, interrupts e = false := by
  induction events generalizing o with
  | nil =>
    cases h
    refine ⟨[⟨.nextEvent .ended, .came⟩], ?_, by simp [interrupts]⟩
    unfold relay
    rw [hfinished]
    exact ⟨_, _, rfl, rfl, rfl⟩
  | cons event events ih =>
    unfold Downstream.Relay.consumeEvents at h
    split at h
    · rename_i o₁ hconsume
      obtain ⟨es, hes, hquiet⟩ := ih h
      obtain ⟨b, hb⟩ := Downstream.shown_of_consume s.includeUsage hconsume
      simp only [relay, Prog.perform_bind, Prog.emits_cmd, Prog.onReply_ok]
      cases b with
      | false =>
        refine ⟨⟨.nextEvent (.event event), .came⟩ :: ⟨.isDisconnected, .no⟩ :: es,
          ⟨.came, _, rfl, .no, es, rfl, ?_⟩, by simpa [interrupts] using hquiet⟩
        simp only [hconsume, hb]
        exact hes
      | true =>
        refine ⟨⟨.nextEvent (.event event), .came⟩ :: ⟨.isDisconnected, .no⟩ ::
          ⟨.yieldEvent event, .resumed⟩ :: es,
          ⟨.came, _, rfl, .no, ⟨.yieldEvent event, .resumed⟩ :: es, rfl, ?_⟩,
          by simpa [interrupts] using hquiet⟩
        simp only [hconsume, hb, Prog.emits_cmd, Prog.onReply_ok]
        exact ⟨.resumed, es, rfl, hes⟩
    · cases h

/-- A chunk, and the mark. -/
def shortLines (chunk : String) : List PyStr := [str "data: " ++ str chunk, [], str "data: [DONE]"]

/-- What is made of them when they are opened. -/
def shortOpened (chunk : String) : OpenedEvents :=
  ⟨str "data: " ++ str chunk ++ str "\n\n", [str "data: [DONE]\n\n"]⟩

def shortStream (chunk : String) : Stream :=
  Downstream.forcedStream "mock-a" (shortOpened chunk) .finished

/-- The bytes of both events. -/
def shortBody (chunk : String) : List UInt8 :=
  Web.ascii ("data: " ++ chunk ++ "\n\ndata: [DONE]\n\n")

/-- The Gateway reads the chunk and finds a `finish_reason` and the mark, hides neither event, and
the chunk has a text. -/
def isShortSuccess (chunk : String) : Bool :=
  let events := (shortStream chunk).events
  (match Downstream.Relay.consumeEvents .new events with
    | (o, none) => o.complete
    | (_, some _) => false) &&
  decide (events.filter (fun event => !isUsageOnly event) = events) &&
  decide (HasContent events.flatten)

/-- Such a stream is relayed as a success. -/
theorem short_relayed {chunk : String} (h : isShortSuccess chunk = true) :
    ∃ es o, Prog.Emits (relay (shortStream chunk) (shortStream chunk).events .new) es
        (.ok (o, .exhausted)) ∧ outcomeOf o .exhausted = .success ∧
      yields es = (shortStream chunk).events ∧ HasContent (shortStream chunk).events.flatten := by
  unfold isShortSuccess at h
  dsimp only at h
  simp only [Bool.and_eq_true, decide_eq_true_eq] at h
  obtain ⟨⟨hconsumed, hshown⟩, hcontent⟩ := h
  split at hconsumed
  · rename_i o hevents
    obtain ⟨es, hes, -⟩ := emits_relay (s := shortStream chunk) rfl hevents
    obtain ⟨x, hx, hrelays⟩ := Downstream.relays_relay hes
    obtain rfl := Except.ok.inj hx
    refine ⟨es, o, hes, if_pos hconsumed, ?_, hcontent⟩
    rw [(relays_success hrelays rfl).2]
    exact hshown
  · cases hconsumed

def greeting : String :=
  "\x7b\"choices\":[\x7b\"delta\":\x7b\"content\":\"Hello\"\x7d,\"finish_reason\":\"stop\"\x7d]\x7d"

/-- The greeting, with the fact that its stream is a success. -/
def greetingSuccess : {chunk : String // isShortSuccess chunk = true} :=
  ⟨greeting, by decide +kernel⟩

theorem ascii_incremental : Web.asciiDecoder.Incremental :=
  ⟨fun _ => rfl, fun _ _ _ => congrArg (·, ()) List.map_append⟩

theorem greeting_decodes :
    Decodes Web.asciiDecoder [shortBody greeting] (shortStream greeting).events.flatten :=
  ⟨by decide +kernel, by decide +kernel⟩

theorem success_shared_greeting : ∃ es o,
    Prog.Emits (relay (shortStream greeting) (shortStream greeting).events .new) es
        (.ok (o, .exhausted)) ∧
      Succeeds Web.asciiDecoder [shortBody greeting] (yields es).flatten := by
  obtain ⟨es, o, hes, hsuccess, hyields, hcontent⟩ := short_relayed greetingSuccess.2
  have hlines : ∀ line ∈ shortLines greeting, OneLine line := by decide +kernel
  have hopened : openEvents "mock-a" (shortLines greeting) = .ok (shortOpened greeting) :=
    Downstream.Relay.openEvents_of_check (by decide +kernel)
  refine ⟨es, o, hes, (success_shared ascii_incremental hlines hopened hes hsuccess hcontent
    (hyields ▸ greeting_decodes)).1 ?_⟩
  rw [hyields]
  decide +kernel

/-- A chunk whose error is `null`, which the Gateway takes for no error. -/
def nullError : String :=
  "\x7b\"error\":null,\"choices\":[\x7b\"delta\":\x7b\"content\":\"Hello\"\x7d," ++
    "\"finish_reason\":\"stop\"\x7d]\x7d"

/-- The Gateway counts a success, and the web client shows an error. -/
theorem success_not_shared : ∃ es o, openEvents "mock-a" (shortLines nullError) =
      .ok (shortStream nullError).served.result ∧
    Prog.Emits (relay (shortStream nullError) (shortStream nullError).events .new) es
      (.ok (o, .exhausted)) ∧ outcomeOf o .exhausted = .success ∧
    HasContent (shortStream nullError).events.flatten ∧
    Decodes Web.asciiDecoder [shortBody nullError] (yields es).flatten ∧
    ¬ Succeeds Web.asciiDecoder [shortBody nullError] (yields es).flatten := by
  have hshort : isShortSuccess nullError = true := by decide +kernel
  obtain ⟨es, o, hes, hsuccess, hyields, hcontent⟩ := short_relayed hshort
  have hopened : openEvents "mock-a" (shortLines nullError) = .ok (shortOpened nullError) :=
    Downstream.Relay.openEvents_of_check (by decide +kernel)
  have hdecodes : Decodes Web.asciiDecoder [shortBody nullError]
      (shortStream nullError).events.flatten := ⟨by decide +kernel, by decide +kernel⟩
  have herror : (Web.requestStreamingCompletion Web.asciiDecoder .done
      [shortBody nullError]).2 = some .validation := by
    rw [requestStreamingCompletion_eq ascii_incremental hdecodes]
    decide +kernel
  refine ⟨es, o, hopened, hes, hsuccess, hcontent, hyields ▸ hdecodes, ?_⟩
  rintro ⟨c, hc, -⟩
  rw [hc] at herror
  cases herror

end PolyGate.StreamAgreement
