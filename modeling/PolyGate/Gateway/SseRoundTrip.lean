import PolyGate.Gateway.Sse
import PolyGate.Lib.Except
import PolyGate.Lib.JsonCut

/-!
# `Gateway/SseRoundTrip.lean` — what `_data_event` writes, the decoders read

`json.dumps(…, ensure_ascii=False)` escapes the line boundaries below U+0020 and leaves three
others as they are; `str.splitlines`, on which every decoder of the Gateway rests, splits at these.
So an object comes back exactly when no text in it has one of the three (`decodes_iff`): an event
that is split inside a string literal carries no JSON at all (`eventData_cut`). An integer that
`str` refuses to write is not encoded in the first place.
-/

namespace PolyGate.Gateway.SseRoundTrip

open Lib

/-- A `dict` that is a JSON object, with text that can be encoded: no key twice, every float a
double. -/
def JsonObject (d : Obj) : Prop := Plain ⟨true, none⟩ (.obj d) ∧ EachText SurrogateFree (.obj d)

/-- The line boundaries that are no control characters of ASCII. -/
def separators : List Nat := [0x85, 0x2028, 0x2029]

def NoSeparator (s : PyStr) : Prop := ∀ p ∈ s, p.val ∉ separators

instance (s : PyStr) : Decidable (NoSeparator s) := List.decidableBAll _ s

/-- No text of the object has a line boundary that is written as it is, and every integer is short
enough to be written. -/
def Kept (d : Obj) : Prop := EachText NoSeparator (.obj d) ∧ intsFit 4300 (.obj d) = true

/-- The events of `ds` are decoded as `ds`, together, one by one, and line by line. -/
def RoundTrip (ds : List Obj) : Prop :=
  ∃ events, ds.mapM dataEvent = .ok events ∧
    (sseDataValues events.flatten).map loads = ds.map (fun d => .ok (.obj d)) ∧
    events.map eventData = (sseDataValues events.flatten).map some ∧
    (iterSseEvents (splitlines events.flatten)).map eventData = events.map eventData

/-- The line of an event. -/
def dataLine (d : Obj) : PyStr := str "data: " ++ dumpsCompact d

/-- The event of an object, if it can be written. -/
def eventText (d : Obj) : SseEvent := dataLine d ++ [lf, lf]

theorem oneLine_compact : OneLine (str "," ++ str ":") := by decide

/-! ## Encoding -/

/-- An object becomes an event unless one of its integers has too many digits. -/
theorem dataEvent_eq_ok {d : Obj} {event : SseEvent} (h : dataEvent d = .ok event) :
    event = eventText d ∧ intsFit 4300 (.obj d) = true := by
  unfold dataEvent at h
  split at h
  · rename_i hfit
    dsimp only at h
    split at h
    · exact ⟨(Except.ok.inj h).symm, hfit⟩
    · cases h
  · cases h

/-- What can be encoded is encoded as its text. -/
theorem dataEvent_eq {d : Obj} (hd : JsonObject d) (hfit : intsFit 4300 (.obj d) = true) :
    dataEvent d = .ok (eventText d) := by
  have hfree : SurrogateFree (eventText d) := by
    have htext : SurrogateFree (dumpsCompact d) := by
      refine (forall_dumpsSep (fun p hp hp' => Or.inl ?_) ?_ _).mpr ?_
      · omega
      · exact surrogateFree_append.mpr ⟨surrogateFree_str ",", surrogateFree_str ":"⟩
      · exact hd.2.imp fun s hs p hp _ => hs p hp
    refine surrogateFree_append.mpr ⟨surrogateFree_append.mpr ⟨surrogateFree_str _, htext⟩, ?_⟩
    exact surrogateFree_map ['\n', '\n']
  have hencoded : (encodeUtf8 (eventText d)).isSome = true :=
    Option.isSome_iff_exists.mpr (encodeUtf8_isSome.mpr hfree)
  unfold dataEvent
  rw [if_pos hfit]
  exact if_pos hencoded

theorem mapM_dataEvent {ds : List Obj} {events : List SseEvent}
    (h : ds.mapM dataEvent = .ok events) :
    events = ds.map eventText ∧ ∀ d ∈ ds, intsFit 4300 (.obj d) = true := by
  induction ds generalizing events with
  | nil =>
    cases h
    exact ⟨rfl, fun d hd => absurd hd List.not_mem_nil⟩
  | cons d ds ih =>
    rw [List.mapM_cons] at h
    obtain ⟨event, hd, h⟩ := bind_eq_ok.mp h
    obtain ⟨rest, hds, h⟩ := bind_eq_ok.mp h
    cases h
    obtain ⟨rfl, hfit⟩ := dataEvent_eq_ok hd
    obtain ⟨rfl, hrest⟩ := ih hds
    exact ⟨rfl, List.forall_mem_cons.mpr ⟨hfit, hrest⟩⟩

theorem mapM_dataEvent_eq {ds : List Obj} (h : ∀ d ∈ ds, JsonObject d)
    (hfit : ∀ d ∈ ds, intsFit 4300 (.obj d) = true) :
    ds.mapM dataEvent = .ok (ds.map eventText) := by
  induction ds with
  | nil => rfl
  | cons d ds ih =>
    obtain ⟨hd, hds⟩ := List.forall_mem_cons.mp h
    obtain ⟨hfitd, hfitds⟩ := List.forall_mem_cons.mp hfit
    rw [List.mapM_cons, dataEvent_eq hd hfitd, ih hds hfitds]
    rfl

mutual

/-- With its integers short enough, an object is read back by `json.loads`. -/
theorem plain_python : ∀ {v : Json}, Plain ⟨true, none⟩ v → intsFit 4300 v = true →
    Plain pythonJson v
  | .int n, _, hfit => fun m hm => by
    cases hm
    exact of_decide_eq_true hfit
  | .arr elems, h, hfit => plain_python_elems elems h hfit
  | .obj fields, h, hfit => ⟨h.1, plain_python_fields fields h.2 hfit⟩
  | .float (.finite _ _), h, _ => h
  | .float (.inf _), _, _ | .float .nan, _, _ => rfl
  | .null, _, _ | .bool _, _, _ | .str _, _, _ => trivial

theorem plain_python_elems : ∀ elems : List Json, PlainElems ⟨true, none⟩ elems →
    elemsFit 4300 elems = true → PlainElems pythonJson elems
  | [], _, _ => trivial
  | _ :: elems, h, hfit =>
    have hfit := Bool.and_eq_true_iff.mp hfit
    ⟨plain_python h.1 hfit.1, plain_python_elems elems h.2 hfit.2⟩

theorem plain_python_fields : ∀ fields : List (PyStr × Json),
    PlainFields ⟨true, none⟩ fields → fieldsFit 4300 fields = true → PlainFields pythonJson fields
  | [], _, _ => trivial
  | _ :: fields, h, hfit =>
    have hfit := Bool.and_eq_true_iff.mp hfit
    ⟨plain_python h.1 hfit.1, plain_python_fields fields h.2 hfit.2⟩

end

/-! ## Lines -/

/-- Of the code points that JSON leaves unescaped only three break lines. -/
theorem isLineBreak_iff {p : CodePoint} (hp : 0x20 ≤ p.val) :
    isLineBreak p = false ↔ p.val ∉ separators := by
  have hall : ∀ n ∈ lineBreaks, 0x20 ≤ n → n ∈ separators := by decide
  have hsub : ∀ n ∈ separators, n ∈ lineBreaks := by decide
  rw [isLineBreak, decide_eq_false_iff_not]
  exact not_congr ⟨fun h => hall _ h hp, hsub _⟩

/-- The text is one line exactly when nothing in it is a separator. -/
theorem oneLine_dumpsCompact {d : Obj} :
    OneLine (dumpsCompact d) ↔ EachText NoSeparator (.obj d) := by
  refine (forall_dumpsSep (fun _ => printable_not_break) oneLine_compact _).trans ⟨?_, ?_⟩
  · refine EachText.imp fun s hs p hp => ?_
    by_cases hlow : 0x20 ≤ p.val
    · exact (isLineBreak_iff hlow).mp (hs p hp hlow)
    · have hall : ∀ n ∈ separators, 0x20 ≤ n := by decide
      exact fun hmem => hlow (hall _ hmem)
  · exact EachText.imp fun s hs p hp hlow => (isLineBreak_iff hlow).mpr (hs p hp)

/-- The text of an object stands between braces, so no `strip` takes anything off. -/
theorem dumpsCompact_eq (d : Obj) :
    ∃ t, dumpsCompact d = codePoint '\x7b' :: t ++ [codePoint '\x7d'] := by
  have hfields : ∀ fields : List (PyStr × Json), ∃ t,
      fieldsSep (str ",") (str ":") fields = t ++ [codePoint '\x7d'] := by
    intro fields
    induction fields with
    | nil => exact ⟨[], rfl⟩
    | cons kv fields ih =>
      obtain ⟨t, ht⟩ := ih
      rw [fieldsSep, ht, ← List.append_assoc]
      exact ⟨_, rfl⟩
  unfold dumpsCompact
  cases d with
  | nil => exact ⟨[], by rw [dumpsSep]; rfl⟩
  | cons kv fields =>
    obtain ⟨t, ht⟩ := hfields fields
    rw [dumpsSep, ht, ← List.append_assoc]
    simp only [List.cons_append]
    exact ⟨_, rfl⟩

/-- Nothing to strip. -/
theorem strip_dumpsCompact (d : Obj) : strip (dumpsCompact d) = dumpsCompact d := by
  obtain ⟨t, ht⟩ := dumpsCompact_eq d
  have hopen : isSpace (codePoint '\x7b') = false := by decide
  have hclose : isSpace (codePoint '\x7d') = false := by decide
  rw [ht, strip, List.cons_append, List.dropWhile_cons_of_neg (by simp [hopen]),
    ← List.cons_append, List.rdropWhile_concat_neg _ _ _ (by simp [hclose])]

theorem dataField_dataLine (d : Obj) : dataField (dataLine d) = some (dumpsCompact d) := rfl

theorem dataLine_ne_nil (d : Obj) : dataLine d ≠ [] := List.cons_ne_nil _ _

theorem joinLines_singleton (line : PyStr) : joinLines [line] = line := List.intercalate_singleton

/-- The lines of the events of one-line objects. -/
theorem splitlines_events {ds : List Obj} (h : ∀ d ∈ ds, OneLine (dumpsCompact d)) :
    splitlines (ds.map eventText).flatten = ds.flatMap fun d => [dataLine d, []] := by
  have htext : (ds.map eventText).flatten =
      (ds.flatMap fun d => [dataLine d, []]).flatMap (· ++ [lf]) ++ [] := by
    rw [List.append_nil]
    induction ds with
    | nil => rfl
    | cons d ds ih =>
      have hrest := ih fun d' hd' => h d' (List.mem_cons_of_mem d hd')
      simp [eventText, hrest]
  have hlines : ∀ l ∈ ds.flatMap fun d => [dataLine d, []], OneLine l := by
    intro l hl
    obtain ⟨d, hd, hl⟩ := List.mem_flatMap.mp hl
    have hfield : OneLine (str "data: ") := by decide
    rcases List.mem_cons.mp hl with rfl | hl
    · exact oneLine_append.mpr ⟨hfield, h d hd⟩
    · rw [List.mem_singleton.mp hl]
      exact oneLine_nil
  rw [htext, splitlines_flatMap hlines]
  exact List.append_nil _

/-- A reader that splits lines finds each object whole, if its text has one line. -/
theorem dataValues_events {ds : List Obj} (h : ∀ d ∈ ds, OneLine (dumpsCompact d)) :
    sseDataValues (ds.map eventText).flatten = ds.map dumpsCompact := by
  have hlines : ∀ ds : List Obj,
      dataValuesFrom [] (ds.flatMap fun d => [dataLine d, []]) = ds.map dumpsCompact := by
    intro ds
    induction ds with
    | nil => rfl
    | cons d ds ih =>
      rw [List.flatMap_cons, List.cons_append, List.singleton_append, dataValuesFrom,
        if_neg (dataLine_ne_nil d), dataField_dataLine]
      simp only [List.nil_append]
      rw [dataValuesFrom, if_pos rfl, if_neg (List.cons_ne_nil _ _), joinLines_singleton,
        strip_dumpsCompact, ih, List.map_cons]
  rw [sseDataValues, splitlines_events h, hlines]

/-- So does one that joins the lines of an event again. -/
theorem iterSseEvents_events {ds : List Obj} (h : ∀ d ∈ ds, OneLine (dumpsCompact d)) :
    iterSseEvents (splitlines (ds.map eventText).flatten) = ds.map eventText := by
  have hlines : ∀ ds : List Obj,
      iterSseEvents (ds.flatMap fun d => [dataLine d, []]) = ds.map eventText := by
    intro ds
    induction ds with
    | nil => rfl
    | cons d ds ih =>
      rw [List.flatMap_cons, List.cons_append, List.singleton_append, iterSseEvents,
        iterSseEventsFrom, if_neg (dataLine_ne_nil d), List.nil_append, iterSseEventsFrom,
        if_pos rfl, if_neg (List.cons_ne_nil _ _)]
      rw [iterSseEvents] at ih
      rw [ih, eventOf, joinLines_singleton]
      rfl
  rw [splitlines_events h, hlines]

/-- The data of an event is the text of its object. -/
theorem eventData_eventText {d : Obj} (h : OneLine (dumpsCompact d)) :
    eventData (eventText d) = some (dumpsCompact d) := by
  have hlines : splitlines ([d].map eventText).flatten = [d].flatMap fun d => [dataLine d, []] :=
    splitlines_events (by simpa using h)
  rw [eventData]
  simp only [List.map_cons, List.map_nil, List.flatten_cons, List.flatten_nil, List.append_nil,
    List.flatMap_cons, List.flatMap_nil] at hlines
  have hfields : [dataLine d, []].filterMap dataField = [dumpsCompact d] := by
    rw [List.filterMap_cons, dataField_dataLine]
    rfl
  rw [hlines, hfields]
  exact congrArg some (joinLines_singleton _)

/-! ## A separator in the text -/

theorem joinLines_cons (line : PyStr) (lines : List PyStr) :
    ∃ w, joinLines (line :: lines) = line ++ w ∧ EndsString w := by
  cases lines with
  | nil => exact ⟨[], by rw [joinLines_singleton, List.append_nil], fun p hp => by cases hp⟩
  | cons line' lines =>
    refine ⟨lf :: joinLines (line' :: lines), ?_, fun p hp => ?_⟩
    · rw [joinLines, List.intercalate_cons_cons]
      simp [joinLines]
    · rw [← Option.some.inj hp]
      decide

/-- **An event whose text is split carries no JSON.** -/
theorem eventData_cut {d : Obj} (hd : Plain pythonJson (.obj d)) (h : ¬ OneLine (dumpsCompact d)) :
    ∃ s e, eventData (eventText d) = some s ∧ loads s = .error e := by
  obtain ⟨p, t, htext, hp⟩ := exists_firstLine h
  have hfirst : OneLine (str "data: " ++ firstLine (dumpsCompact d)) :=
    oneLine_append.mpr ⟨by decide, oneLine_firstLine _⟩
  have hevent : eventText d =
      (str "data: " ++ firstLine (dumpsCompact d)) ++ p :: (t ++ [lf, lf]) := by
    rw [eventText, dataLine, List.append_assoc, List.append_assoc]
    refine congrArg (str "data: " ++ ·) ?_
    exact (congrArg (· ++ [lf, lf]) htext).trans (List.append_assoc _ _ _)
  have hfield : dataField (str "data: " ++ firstLine (dumpsCompact d)) =
      some (firstLine (dumpsCompact d)) := rfl
  obtain ⟨w, hjoin, hw⟩ := joinLines_cons (firstLine (dumpsCompact d))
    ((splitlinesFrom (p = cr) [] (t ++ [lf, lf])).filterMap dataField)
  have hdata : eventData (eventText d) = some (firstLine (dumpsCompact d) ++ w) := by
    rw [eventData, hevent, splitlines_cut hfirst hp, List.filterMap_cons, hfield]
    exact congrArg some hjoin
  have hbegins : Begins (firstLine (dumpsCompact d) ++ w) :=
    (begins_dumpsSep hd).firstLine.append w
  have hcut : ∀ fuel, 2 * (firstLine (dumpsCompact d)).length < fuel →
      ∃ e, value pythonJson fuel (firstLine (dumpsCompact d) ++ w) = .error e :=
    value_cut ⟨separators_compact, oneLine_compact, hw⟩ hd h
  obtain ⟨e, he⟩ := hcut (2 * (firstLine (dumpsCompact d) ++ w).length + 1)
    (by rw [List.length_append]; omega)
  refine ⟨_, e, hdata, ?_⟩
  rw [loads, parse, hbegins.skipSpace, he]
  rfl

/-! ## The law -/

/-- An object that comes back was written on one line, with integers that can be read. -/
theorem kept_of_roundTrip {ds : List Obj} (h : ∀ d ∈ ds, JsonObject d) (hround : RoundTrip ds) :
    ∀ d ∈ ds, Kept d := by
  obtain ⟨events, hevents, hvalues, hdata, -⟩ := hround
  obtain ⟨rfl, hfit⟩ := mapM_dataEvent hevents
  intro d hd
  refine ⟨oneLine_dumpsCompact.mp ?_, hfit d hd⟩
  by_contra hcut
  obtain ⟨s, e, hs, he⟩ := eventData_cut (plain_python (h d hd).1 (hfit d hd)) hcut
  -- the data of the event is one of the values, and every value is read as an object
  have hmem : some s ∈ (sseDataValues (ds.map eventText).flatten).map some := by
    rw [← hdata, ← hs]
    exact List.mem_map_of_mem (List.mem_map_of_mem hd)
  obtain ⟨s', hs', hss⟩ := List.mem_map.mp hmem
  cases hss
  have hload : loads s ∈ ds.map fun d => Except.ok (.obj d) := by
    rw [← hvalues]
    exact List.mem_map_of_mem hs'
  obtain ⟨d', -, hd'⟩ := List.mem_map.mp hload
  rw [he] at hd'
  cases hd'

/-- And such objects come back. -/
theorem roundTrip_of_kept {ds : List Obj} (h : ∀ d ∈ ds, JsonObject d) (hkept : ∀ d ∈ ds, Kept d) :
    RoundTrip ds := by
  have hfit : ∀ d ∈ ds, intsFit 4300 (.obj d) = true := fun d hd => (hkept d hd).2
  have hline : ∀ d ∈ ds, OneLine (dumpsCompact d) :=
    fun d hd => oneLine_dumpsCompact.mpr (hkept d hd).1
  refine ⟨ds.map eventText, mapM_dataEvent_eq h hfit, ?_, ?_, ?_⟩
  · rw [dataValues_events hline, List.map_map]
    refine List.map_congr_left fun d hd => ?_
    exact parse_dumpsSep separators_compact (plain_python (h d hd).1 (hfit d hd))
  · rw [dataValues_events hline, List.map_map, List.map_map]
    exact List.map_congr_left fun d hd => eventData_eventText (hline d hd)
  · rw [iterSseEvents_events hline]

/-- **Decoding undoes encoding exactly when no text of the objects has a separator**, and every
integer is short enough to be written. -/
theorem decodes_iff {ds : List Obj} (h : ∀ d ∈ ds, JsonObject d) :
    RoundTrip ds ↔ ∀ d ∈ ds, Kept d :=
  ⟨kept_of_roundTrip h, roundTrip_of_kept h⟩

/-- A chunk with a text. -/
def textChunk (s : PyStr) : Obj := [(str "content", .str s)]

theorem jsonObject_textChunk {s : PyStr} (hs : SurrogateFree s) : JsonObject (textChunk s) :=
  ⟨⟨List.pairwise_singleton _ _, trivial, trivial⟩, surrogateFree_str _, hs, trivial⟩

theorem decodes_iff_hello : RoundTrip [textChunk (str "héllo")] := by
  have hobject : ∀ d ∈ [textChunk (str "héllo")], JsonObject d := by
    simpa using jsonObject_textChunk (surrogateFree_str "héllo")
  refine (decodes_iff hobject).mpr fun d hd => ?_
  rw [List.mem_singleton.mp hd]
  have hkey : NoSeparator (str "content") := by decide
  have htext : NoSeparator (str "héllo") := by decide
  exact ⟨⟨hkey, htext, trivial⟩, rfl⟩

/-- U+2028, the line separator. -/
def lineSeparator : PyStr := [codePoint '\u2028']

theorem line_separator_lost :
    JsonObject (textChunk lineSeparator) ∧ ¬ RoundTrip [textChunk lineSeparator] := by
  have hobject : JsonObject (textChunk lineSeparator) := by
    refine jsonObject_textChunk fun p hp => ?_
    rw [List.mem_singleton.mp hp]
    decide
  refine ⟨hobject, fun hround => ?_⟩
  have hkept := kept_of_roundTrip (by simpa using hobject) hround _ List.mem_cons_self
  exact hkept.1.2.1 0x2028 List.mem_cons_self (by decide)

end PolyGate.Gateway.SseRoundTrip
