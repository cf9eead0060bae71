import PolyGate.Gateway.Relay
import PolyGate.Lib.JsonDialects
import PolyGate.Web.Chunking

/-!
# `StreamReading.lean` — a relayed event, read by the Gateway and by the web client

The Gateway reads the data of an event with `json.loads`, and the web client reads the same lines
with its own decoder and `JSON.parse`. The two see the same data but for `data` lines without a
colon, which are empty lines to the web client and nothing to the Gateway (`blanked_lines`). So what
a chunk comes to in the web client is said by the Gateway's data of its event: up to the first
`[DONE]` the web client gets through a stream exactly when it reads every event as the Gateway does
(`consumeAll_before`).
-/

namespace PolyGate.StreamAgreement

open Lib Gateway

/-! ## The words -/

/-- The byte order mark, which `TextDecoder` drops from the beginning of a text. -/
def bom : CodePoint := codePoint '\ufeff'

/-- The text of some bytes, for a `TextDecoder`. -/
def withoutBom (text : PyStr) : PyStr := if text.head? = some bom then text.tail else text

/-- No byte order mark stands in front of a `data` line. -/
def NoMarkedData (text : PyStr) : Prop :=
  text.head? = some bom → Web.dataOf (firstLine text.tail) = []

instance (text : PyStr) : Decidable (NoMarkedData text) := inferInstanceAs (Decidable (_ → _))

/-- The strings that the chunk of a value adds to the answer. -/
def contentsOf (data : PyStr) : List PyStr :=
  match loads data with
  | .ok chunk => Web.Collected.contents chunk
  | .error _ => []

/-- Those of all chunks of a text. -/
def contentsIn (text : PyStr) : List PyStr := (sseDataValues text).flatMap contentsOf

/-- U+001F, a space for `str.strip` and none for `String.prototype.trim`. -/
def unitSeparator : CodePoint := codePoint '\x1f'

def isDone (event : SseEvent) : Bool := decide ((eventData event).map strip = some doneMark)

/-- The chunk of the value has a member "error", whatever it holds. -/
def hasError (data : PyStr) : Bool :=
  match loads data with
  | .ok (.obj chunk) => (Obj.get? chunk "error").isSome
  | _ => false

/-- The web client reads the event as the Gateway does: a `data` line without a colon is not all of
its data, and its data is strict JSON between spaces of JSON, without a member "error". -/
def ReadAlike (event : SseEvent) : Prop :=
  match eventData event with
  | none => str "data" ∉ splitlines event
  | some data => JsonPadded data ∧ constantFree .outside (strip data) = true ∧
      hasError (strip data) = false

instance (event : SseEvent) : Decidable (ReadAlike event) :=
  match h : eventData event with
  | none => decidable_of_iff (str "data" ∉ splitlines event) (by rw [ReadAlike, h])
  | some data => decidable_of_iff (JsonPadded data ∧ constantFree .outside (strip data) = true ∧
      hasError (strip data) = false) (by rw [ReadAlike, h])

/-! ## The lines of an event -/

theorem ne_of_oneLine {l : PyStr} (hl : OneLine l) {p : CodePoint} (hp : p ∈ l) :
    p ≠ lf ∧ p ≠ cr := by
  have hbreak := hl p hp
  constructor
  · rintro rfl
    cases hbreak
  · rintro rfl
    cases hbreak

theorem nextLine_oneLine {l : PyStr} (hl : OneLine l) (rest : PyStr) :
    Web.nextLine (l ++ lf :: rest) = some (l, rest) := by
  induction l with
  | nil => rfl
  | cons p l ih =>
    obtain ⟨hlf, hcr⟩ := ne_of_oneLine hl List.mem_cons_self
    rw [List.cons_append, Web.nextLine_other hlf hcr,
      ih fun q hq => hl q (List.mem_cons_of_mem p hq)]
    rfl

theorem terminatedLines_cons {l : PyStr} (hl : OneLine l) (rest : PyStr) :
    Web.terminatedLines (l ++ lf :: rest) = l :: Web.terminatedLines rest := by
  rw [Web.terminatedLines_eq, nextLine_oneLine hl]

theorem eventOf_append {lines : List PyStr} (hne : lines ≠ []) (rest : PyStr) :
    eventOf lines ++ rest = lines.flatMap (· ++ [lf]) ++ lf :: rest := by
  rw [← Downstream.Relay.joinLines_lf hne]
  simp [eventOf]

/-- The web client splits an event as the Gateway does. -/
theorem terminatedLines_eventOf {lines : List PyStr} (hne : lines ≠ [])
    (hlines : ∀ line ∈ lines, OneLine line) (rest : PyStr) :
    Web.terminatedLines (eventOf lines ++ rest) =
      splitlines (eventOf lines) ++ Web.terminatedLines rest := by
  have hall : Web.terminatedLines (lines.flatMap (· ++ [lf]) ++ lf :: rest) =
      lines ++ [] :: Web.terminatedLines rest := by
    clear hne
    induction lines with
    | nil => exact terminatedLines_cons oneLine_nil rest
    | cons line lines ih =>
      obtain ⟨hline, hlines⟩ := List.forall_mem_cons.mp hlines
      have hcons := terminatedLines_cons hline (lines.flatMap (· ++ [lf]) ++ lf :: rest)
      rw [ih hlines] at hcons
      simpa using hcons
  rw [eventOf_append hne, hall, Downstream.Relay.splitlines_framed hne hlines, List.append_assoc,
    List.singleton_append]

/-! ## The data of an event -/

theorem dataOf_cons (line : PyStr) : Blanked (dataField line).toList (Web.dataOf line) := by
  unfold dataField Web.dataOf
  by_cases hcolon : (str ":").isPrefixOf line = true
  · have hdata : (str "data:").isPrefixOf line = false := by
      cases line with
      | nil => cases hcolon
      | cons p line =>
        have hp : codePoint ':' = p := by simpa [str, List.isPrefixOf] using hcolon
        rw [← hp]
        rfl
    rw [if_pos hcolon, hdata]
    exact .nil
  · rw [if_neg hcolon]
    by_cases hbare : line = str "data"
    · rw [if_pos hbare, hbare]
      exact .blank .nil
    · rw [if_neg hbare]
      cases hdata : (str "data:").isPrefixOf line with
      | false => exact .nil
      | true => exact .line _ .nil

/-- **What the two read of some lines.** -/
theorem blanked_lines (lines : List PyStr) :
    Blanked (lines.filterMap dataField) (lines.flatMap Web.dataOf) := by
  induction lines with
  | nil => exact .nil
  | cons line lines ih =>
    have happend := (dataOf_cons line).append ih
    cases hfield : dataField line with
    | none => simpa [hfield] using happend
    | some value => simpa [hfield] using happend

/-- The data of an event in the web client. -/
def webData (event : SseEvent) : Option PyStr :=
  match (splitlines event).flatMap Web.dataOf with
  | [] => none
  | dataLines => some (joinLines dataLines)

theorem dataValuesFrom_lines {lines : List PyStr} (hlines : ∀ line ∈ lines, line ≠ [])
    (current rest : List PyStr) : Web.dataValuesFrom current (lines ++ [] :: rest) =
      (match current ++ lines.flatMap Web.dataOf with
        | [] => []
        | dataLines => [joinLines dataLines]) ++ Web.dataValuesFrom [] rest := by
  induction lines generalizing current with
  | nil =>
    rw [List.flatMap_nil, List.append_nil, List.nil_append, Web.dataValuesFrom, if_pos rfl]
    cases current with
    | nil => rfl
    | cons d ds => rfl
  | cons line lines ih =>
    obtain ⟨hline, hlines⟩ := List.forall_mem_cons.mp hlines
    rw [List.cons_append, Web.dataValuesFrom, if_neg hline, ih hlines, List.flatMap_cons,
      List.append_assoc]

theorem webData_eventOf {lines : List PyStr} (hne : lines ≠ [])
    (hlines : ∀ line ∈ lines, OneLine line) :
    webData (eventOf lines) = match lines.flatMap Web.dataOf with
      | [] => none
      | dataLines => some (joinLines dataLines) := by
  have hblank : ([[]] : List PyStr).flatMap Web.dataOf = [] := rfl
  rw [webData, Downstream.Relay.splitlines_framed hne hlines, List.flatMap_append, hblank,
    List.append_nil]

/-- **The values of a text in the web client are those of its events.** -/
theorem dataValues_flatten {events : List SseEvent}
    (h : ∀ event ∈ events, Downstream.Relay.Framed event) :
    Web.dataValues events.flatten = events.filterMap webData := by
  have hfrom : ∀ events : List SseEvent, (∀ event ∈ events, Downstream.Relay.Framed event) →
      Web.dataValuesFrom [] (Web.terminatedLines events.flatten) = events.filterMap webData := by
    intro events h
    induction events with
    | nil => rfl
    | cons event events ih =>
      obtain ⟨⟨lines, hne, hlines, rfl⟩, hevents⟩ := List.forall_mem_cons.mp h
      have hone : ∀ line ∈ lines, OneLine line := fun line hline => (hlines line hline).2
      rw [List.flatten_cons, terminatedLines_eventOf hne hone,
        Downstream.Relay.splitlines_framed hne hone, List.append_assoc, List.singleton_append,
        dataValuesFrom_lines fun line hline => (hlines line hline).1, ih hevents,
        List.filterMap_cons, webData_eventOf hne hone, List.nil_append]
      cases lines.flatMap Web.dataOf with
      | nil => rfl
      | cons d ds => rfl
  exact hfrom events h

/-- A mark in front of other lines does not matter. -/
theorem dataValues_withoutBom {events : List SseEvent}
    (h : ∀ event ∈ events, Downstream.Relay.Framed event) (hbom : NoMarkedData events.flatten) :
    Web.dataValues (withoutBom events.flatten) = Web.dataValues events.flatten := by
  unfold withoutBom
  split
  · rename_i hhead
    have hdata := hbom hhead
    cases events with
    | nil => cases hhead
    | cons event events =>
      obtain ⟨⟨lines, hne, hlines, rfl⟩, -⟩ := List.forall_mem_cons.mp h
      cases lines with
      | nil => exact absurd rfl hne
      | cons line lines =>
        obtain ⟨⟨hfull, hone⟩, -⟩ := List.forall_mem_cons.mp hlines
        cases line with
        | nil => exact absurd rfl hfull
        | cons p line =>
          rw [List.flatten_cons, eventOf_append (List.cons_ne_nil _ _)] at hhead hdata ⊢
          have hline : OneLine line := fun q hq => hone q (List.mem_cons_of_mem p hq)
          obtain rfl : p = bom := Option.some.inj hhead
          -- what follows the first line is the same on both sides
          obtain ⟨rest, hrest⟩ : ∃ rest, ((bom :: line) :: lines).flatMap (· ++ [lf]) ++
              lf :: events.flatten = bom :: (line ++ lf :: rest) :=
            ⟨lines.flatMap (· ++ [lf]) ++ lf :: events.flatten, by simp⟩
          rw [hrest, List.tail_cons] at hdata ⊢
          rw [firstLine_append hline, firstLine, List.takeWhile_cons_of_neg (by decide),
            List.append_nil] at hdata
          have hmarked : Web.terminatedLines (bom :: (line ++ lf :: rest)) =
              (bom :: line) :: Web.terminatedLines rest := terminatedLines_cons hone rest
          rw [Web.dataValues, Web.dataValues, hmarked, terminatedLines_cons hline,
            Web.dataValuesFrom, Web.dataValuesFrom, if_neg (List.cons_ne_nil bom line), hdata]
          split
          · rfl
          · rfl
  · rfl

/-! ## One value -/

/-- What the Gateway takes: the mark, or a chunk without an error. -/
def Accepted (data : PyStr) : Prop :=
  data = doneMark ∨ ∃ chunk, loads data = .ok (.obj chunk) ∧
    absentOrNull (Obj.get? chunk "error") = true

theorem accepted_of_consumeData {o : Observation} {data : PyStr}
    (h : (o.consumeData data).2 = none) : Accepted data := by
  unfold Observation.consumeData at h
  split at h
  · rename_i hdone
    exact Or.inl hdone
  · split at h
    · cases h
    · cases h
    · rename_i chunk hload
      split at h
      · cases h
      · rename_i herror
        exact Or.inr ⟨chunk, hload, by simpa using herror⟩
    · cases h

def isTrimmed (p : CodePoint) : Bool := p.val ∈ Web.trimmed

theorem doneMark_ends (P : CodePoint → Bool) (hopen : P (codePoint '[') = false)
    (hclose : P (codePoint ']') = false) : (∃ p t, doneMark = p :: t ∧ P p = false) ∧
      ∃ t p, doneMark = t ++ [p] ∧ P p = false :=
  ⟨⟨_, str "DONE]", rfl, hopen⟩, str "[DONE", _, rfl, hclose⟩

theorem strip_eq_done {s : PyStr} : strip s = doneMark ↔ Around isSpace doneMark s := by
  obtain ⟨hstart, hend⟩ := doneMark_ends isSpace (by decide) (by decide)
  exact ⟨around_of_eq, fun h => eq_of_around h hstart hend⟩

theorem trim_eq_done {s : PyStr} : Web.trim s = doneMark ↔ Around isTrimmed doneMark s := by
  obtain ⟨hstart, hend⟩ := doneMark_ends isTrimmed (by decide) (by decide)
  exact ⟨around_of_eq, fun h => eq_of_around h hstart hend⟩

theorem lf_not_mem_doneMark : lf ∉ doneMark := by decide

theorem doneMark_ne_nil : doneMark ≠ [] := by decide

/-- The mark is no JSON, whatever comes after it. -/
theorem not_reads_done {d : Dialect} {s r : PyStr} {v : Json} :
    ¬ Reads d (doneMark ++ s) (.value v) r := by
  intro h
  have hopen : doneMark ++ s = codePoint '[' :: (str "DONE]" ++ s) := rfl
  have hskip : skipSpace (str "DONE]" ++ s) = str "DONE]" ++ s := rfl
  rw [hopen] at h
  cases h with
  | word hword =>
    rw [word_none (by decide)] at hword
    cases hword
  | number hnumber => cases hnumber
  | emptyArr hend =>
    rw [hskip] at hend
    cases hend
  | arr helements =>
    rw [hskip] at helements
    obtain ⟨p, t, heq, hp⟩ := helements.starts
    cases heq
    exact absurd hp (by decide)

/-- No JSON text is the mark between spaces of any kind. -/
theorem not_around_done {d : Dialect} {s : PyStr} {v : Json} (h : parse d (strip s) = .ok v) :
    ¬ Around isTrimmed doneMark s := by
  rintro ⟨x, y, hxy, hx, -⟩
  obtain ⟨r, hreads, -⟩ := parse_eq_ok.mp h
  obtain ⟨b, hb, hspace⟩ := strip_split s
  obtain ⟨p, t, hpt, hp⟩ := hreads.starts
  have hspace : ∀ q ∈ b, isSpace q = true := fun q hq => List.mem_rtakeWhile_imp (hspace q hq)
  have hnumber : EndsNumber b := fun q hq => Bool.eq_false_iff.mpr fun hnumber => by
    have hq := hspace q (List.mem_of_mem_head? hq)
    rw [not_isSpace (Starts.bounds (Or.inl hnumber))] at hq
    cases hq
  -- both are what the text begins with after the spaces
  let isPad : CodePoint → Bool := fun q => isSpace q || isTrimmed q
  have hleft : s.dropWhile isPad = doneMark ++ y := by
    rw [hxy, List.append_assoc, List.dropWhile_append_of_pos fun q hq => by simp [isPad, hx q hq]]
    rfl
  have hright : s.dropWhile isPad = skipSpace (strip s) ++ b := by
    have hstrip : strip s = (strip s).takeWhile isJsonSpace ++ skipSpace (strip s) :=
      List.takeWhile_append_dropWhile.symm
    have hpad : isPad p = false := by
      have hall : ∀ n ∈ Web.trimmed, ¬ (0x20 < n ∧ n < 0x7f) := by decide
      have htrimmed : isTrimmed p = false :=
        Bool.eq_false_iff.mpr fun htrim => hall _ (of_decide_eq_true htrim) hp.bounds
      rw [show isPad p = (isSpace p || isTrimmed p) from rfl, not_isSpace hp.bounds, htrimmed]
      rfl
    have hmore : ∀ q ∈ s.takeWhile isSpace ++ (strip s).takeWhile isJsonSpace,
        isPad q = true := by
      intro q hq
      rcases List.mem_append.mp hq with hq | hq
      · simp [isPad, List.mem_takeWhile_imp hq]
      · simp [isPad, isSpace_of_isJsonSpace (List.mem_takeWhile_imp hq)]
    conv => lhs; rw [hb, hstrip, ← List.append_assoc, List.append_assoc]
    rw [List.dropWhile_append_of_pos hmore, hpt, List.cons_append,
      List.dropWhile_cons_of_neg (by rw [hpad]; decide)]
  have hread := hreads.append hnumber
  rw [← hright, hleft] at hread
  exact not_reads_done hread

/-- Between spaces that a line can have, the mark is the mark for both, but for U+001F. -/
theorem around_trimmed {s : PyStr} (hs : ∀ p ∈ s, p = lf ∨ isLineBreak p = false)
    (h : Around isSpace doneMark s) : Around isTrimmed doneMark s ↔ unitSeparator ∉ s := by
  constructor
  · rintro ⟨a, b, rfl, ha, hb⟩ hmem
    rcases List.mem_append.mp hmem with hmem | hmem
    · rcases List.mem_append.mp hmem with hmem | hmem
      · cases ha _ hmem
      · exact absurd hmem (by decide)
    · cases hb _ hmem
  · intro hsep
    obtain ⟨a, b, rfl, ha, hb⟩ := h
    have htrim : ∀ p ∈ a ++ doneMark ++ b, isSpace p = true → isTrimmed p = true := by
      intro p hp hspace
      have hall : ∀ n ∈ spaces, n ≠ 0x1f → n = 0x0a ∨ n ∉ lineBreaks → n ∈ Web.trimmed := by
        decide
      refine decide_eq_true (hall _ (of_decide_eq_true hspace) ?_ ?_)
      · intro hval
        exact hsep ((Fin.ext hval : p = unitSeparator) ▸ hp)
      · rcases hs p hp with rfl | hbreak
        · exact Or.inl rfl
        · exact Or.inr (of_decide_eq_false hbreak)
    exact ⟨a, b, rfl, fun p hp => htrim p (by simp [hp]) (ha p hp),
      fun p hp => htrim p (by simp [hp]) (hb p hp)⟩

/-! ## One event -/

theorem eventData_eq (event : SseEvent) :
    eventData event = match (splitlines event).filterMap dataField with
      | [] => none
      | dataLines => some ([lf].intercalate dataLines) := rfl

/-- The data of an event, in the Gateway and in the web client. -/
theorem webData_of_some {event : SseEvent} {data : PyStr} (h : eventData event = some data) :
    ∃ lines lines', data = [lf].intercalate lines ∧
      webData event = some ([lf].intercalate lines') ∧ Blanked lines lines' := by
  have hblanked := blanked_lines (splitlines event)
  rw [eventData_eq] at h
  unfold webData
  cases hlines : (splitlines event).filterMap dataField with
  | nil =>
    rw [hlines] at h
    cases h
  | cons d ds =>
    rw [hlines] at h hblanked
    cases hlines' : (splitlines event).flatMap Web.dataOf with
    | nil =>
      rw [hlines'] at hblanked
      cases hblanked
    | cons d' ds' =>
      rw [hlines'] at hblanked
      exact ⟨_, _, (Option.some.inj h).symm, rfl, hblanked⟩

/-- A line that has no data for the Gateway. -/
theorem dataOf_of_none {line : PyStr} (h : dataField line = none) :
    Web.dataOf line = if line = str "data" then [[]] else [] := by
  have hdata : (str "data:").isPrefixOf line = false := by
    unfold dataField at h
    split at h
    · cases h
    · rename_i hprefix
      exact Bool.eq_false_iff.mpr hprefix
  unfold Web.dataOf
  rw [hdata]
  split
  · rename_i hcolon
    split
    · rename_i hbare
      rw [hbare] at hcolon
      cases hcolon
    · rfl
  · rfl

theorem webData_of_none {event : SseEvent} (h : eventData event = none) :
    (str "data" ∉ splitlines event ∧ webData event = none) ∨
      (str "data" ∈ splitlines event ∧ ∃ lines', webData event = some ([lf].intercalate lines') ∧
        Blanked [] lines') := by
  have hfields : (splitlines event).filterMap dataField = [] := by
    rw [eventData_eq] at h
    split at h
    · assumption
    · cases h
  have hblanked := blanked_lines (splitlines event)
  have hline := List.filterMap_eq_nil_iff.mp hfields
  rw [hfields] at hblanked
  by_cases hbare : str "data" ∈ splitlines event
  · refine Or.inr ⟨hbare, ?_⟩
    have hmem : ([] : PyStr) ∈ (splitlines event).flatMap Web.dataOf := by
      refine List.mem_flatMap.mpr ⟨_, hbare, ?_⟩
      rw [dataOf_of_none (hline _ hbare), if_pos rfl]
      exact List.mem_singleton_self _
    unfold webData
    cases hlines' : (splitlines event).flatMap Web.dataOf with
    | nil =>
      rw [hlines'] at hmem
      cases hmem
    | cons d ds =>
      rw [hlines'] at hblanked
      exact ⟨_, rfl, hblanked⟩
  · refine Or.inl ⟨hbare, ?_⟩
    have hnil : (splitlines event).flatMap Web.dataOf = [] := by
      refine List.flatMap_eq_nil_iff.mpr fun line hmem => ?_
      have hne : line ≠ str "data" := by
        rintro rfl
        exact hbare hmem
      rw [dataOf_of_none (hline line hmem), if_neg hne]
    rw [webData, hnil]

section Event
variable {c : Web.Collected} {event : SseEvent}

theorem consumeData_eq (hc : c.sawDone = false) (data : PyStr) :
    c.consumeData data = if Web.trim data = doneMark then ({ c with sawDone := true }, none)
      else match jsonParse data with
        | none => (c, some (c.kind .validation))
        | some chunk =>
          if Web.Collected.isErrorChunk chunk then (c, some (c.kind .validation))
          else (c.addContents (Web.Collected.contents chunk), none) := by
  rw [Web.Collected.consumeData, hc]
  rfl

theorem trim_joined {lines lines' : List PyStr} (h : Blanked lines lines') :
    Web.trim ([lf].intercalate lines') = doneMark ↔
      Around isTrimmed doneMark ([lf].intercalate lines) := by
  rw [trim_eq_done]
  exact (around_joined (by decide) doneMark_ne_nil lf_not_mem_doneMark h).symm

theorem jsonParse_joined {lines lines' : List PyStr} (h : Blanked lines lines') :
    jsonParse ([lf].intercalate lines') = jsonParse ([lf].intercalate lines) := by
  ext v
  rw [jsonParse_eq_some, jsonParse_eq_some, parse_joined h]

/-- A `data` line without a colon, and no other data. -/
theorem consumeData_bare (hc : c.sawDone = false) {lines' : List PyStr} (h : Blanked [] lines') :
    (c.consumeData ([lf].intercalate lines')).2 ≠ none := by
  have htrim : ¬ Web.trim ([lf].intercalate lines') = doneMark := by
    rw [trim_joined h]
    exact not_around_nil doneMark_ne_nil
  rw [consumeData_eq hc, if_neg htrim, jsonParse_joined h]
  exact Option.some_ne_none _

/-- **A chunk that the Gateway accepts**, in the web client. -/
theorem consumeData_chunk (hc : c.sawDone = false) {data : PyStr} {chunk : Obj}
    (hdata : eventData event = some data) (hload : loads (strip data) = .ok (.obj chunk))
    {lines lines' : List PyStr} (hlines : data = [lf].intercalate lines)
    (h : Blanked lines lines') :
    (ReadAlike event → c.consumeData ([lf].intercalate lines') =
      (c.addContents (Web.Collected.contents (.obj chunk)), none)) ∧
    (¬ ReadAlike event → (c.consumeData ([lf].intercalate lines')).2 ≠ none) := by
  have htrim : ¬ Web.trim ([lf].intercalate lines') = doneMark := by
    rw [trim_joined h, ← hlines]
    exact not_around_done hload
  have halike : ReadAlike event ↔ JsonPadded data ∧ constantFree .outside (strip data) = true ∧
      Obj.get? chunk "error" = none := by
    unfold ReadAlike hasError
    rw [hdata]
    dsimp only
    rw [hload]
    simp
  rw [consumeData_eq hc, if_neg htrim, jsonParse_joined h, ← hlines, halike,
    ← jsonParse_of_loads hload]
  cases hparse : jsonParse data with
  | none =>
    refine ⟨fun hall => ?_, fun _ => Option.some_ne_none _⟩
    have hread := parse_iff_strip.mpr ⟨jsonParse_eq_some.mp hall.2.1, hall.1⟩
    rw [← jsonParse_eq_some, hparse] at hread
    cases hread
  | some v =>
    obtain ⟨hstrip, hpadded⟩ := parse_iff_strip.mp (jsonParse_eq_some.mp hparse)
    obtain rfl := parse_unique hload hstrip
    dsimp only
    cases herror : Obj.get? chunk "error" with
    | none =>
      have hno : Web.Collected.isErrorChunk (.obj chunk) = false := by
        rw [Web.Collected.isErrorChunk, herror]
        rfl
      rw [hno]
      refine ⟨fun _ => rfl, fun hnot => absurd ⟨hpadded, ?_, rfl⟩ hnot⟩
      exact jsonParse_eq_some.mpr hstrip
    | some e =>
      have herr : Web.Collected.isErrorChunk (.obj chunk) = true := by
        rw [Web.Collected.isErrorChunk, herror]
        rfl
      rw [herr]
      refine ⟨fun hall => ?_, fun _ => Option.some_ne_none _⟩
      cases hall.2.2

/-- The data of an event has only line feeds for line boundaries. -/
theorem mem_eventData {data : PyStr} (hdata : eventData event = some data) :
    ∀ p ∈ data, p = lf ∨ isLineBreak p = false := by
  have hfield {line value : PyStr} (h : dataField line = some value) : ∀ p ∈ value, p ∈ line := by
    intro p hp
    unfold dataField at h
    split at h
    · obtain rfl := Option.some.inj h
      split at hp
      · exact List.mem_of_mem_drop (List.mem_of_mem_drop hp)
      · exact List.mem_of_mem_drop hp
    · cases h
  have hjoined : ∀ lines : List PyStr, (∀ line ∈ lines, OneLine line) →
      ∀ p ∈ [lf].intercalate lines, p = lf ∨ isLineBreak p = false := by
    intro lines hlines p hp
    induction lines with
    | nil => cases hp
    | cons line lines ih =>
      obtain ⟨hline, hlines⟩ := List.forall_mem_cons.mp hlines
      cases lines with
      | nil =>
        rw [List.intercalate_singleton] at hp
        exact Or.inr (hline p hp)
      | cons line' lines =>
        rw [List.intercalate_cons_cons] at hp
        rcases List.mem_append.mp hp with hp | hp
        · rcases List.mem_append.mp hp with hp | hp
          · exact Or.inr (hline p hp)
          · exact Or.inl (List.mem_singleton.mp hp)
        · exact ih hlines hp
  have hvalues : ∀ value ∈ (splitlines event).filterMap dataField, OneLine value := by
    intro value hvalue p hp
    obtain ⟨line, hline, hvalue⟩ := List.mem_filterMap.mp hvalue
    exact oneLine_of_mem_splitlines hline p (hfield hvalue p hp)
  rw [eventData_eq] at hdata
  cases hlines : (splitlines event).filterMap dataField with
  | nil =>
    rw [hlines] at hdata
    cases hdata
  | cons d ds =>
    rw [hlines] at hdata hvalues
    obtain rfl := Option.some.inj hdata
    exact hjoined _ hvalues

/-- The mark, in the web client. -/
theorem consumeData_done (hc : c.sawDone = false) {data : PyStr}
    (hdata : eventData event = some data) (hdone : strip data = doneMark)
    {lines lines' : List PyStr} (hlines : data = [lf].intercalate lines)
    (h : Blanked lines lines') :
    (unitSeparator ∉ data →
      c.consumeData ([lf].intercalate lines') = ({ c with sawDone := true }, none)) ∧
    (unitSeparator ∈ data → (c.consumeData ([lf].intercalate lines')).2 ≠ none) := by
  have htrim : Web.trim ([lf].intercalate lines') = doneMark ↔ unitSeparator ∉ data := by
    rw [trim_joined h, ← hlines]
    exact around_trimmed (mem_eventData hdata) (strip_eq_done.mp hdone)
  rw [consumeData_eq hc]
  refine ⟨fun hsep => if_pos (htrim.mpr hsep), fun hsep => ?_⟩
  rw [if_neg fun hmark => htrim.mp hmark hsep, jsonParse_joined h, ← hlines]
  cases hparse : jsonParse data with
  | none => exact Option.some_ne_none _
  | some v =>
    obtain ⟨hstrip, -⟩ := parse_iff_strip.mp (jsonParse_eq_some.mp hparse)
    rw [hdone] at hstrip
    obtain ⟨r, hreads, -⟩ := parse_eq_ok.mp hstrip
    exact absurd hreads (not_reads_done (s := []))

end Event

/-! ## The events of a stream -/

open Downstream.Relay (Framed)

theorem contentsIn_framed {event : SseEvent} (h : Framed event) :
    contentsIn event = match eventData event with
      | none => []
      | some data => contentsOf (strip data) := by
  rw [contentsIn, Downstream.Relay.sseDataValues_framed h]
  cases eventData event with
  | none => rfl
  | some data => exact List.append_nil _

theorem addContents_nil (c : Web.Collected) : c.addContents [] = c := by
  simp [Web.Collected.addContents]

theorem addContents_append (c : Web.Collected) (new new' : List PyStr) :
    (c.addContents new).addContents new' = c.addContents (new ++ new') := by
  simp [Web.Collected.addContents]

/-- An event before the mark. -/
theorem consumeAll_event {c : Web.Collected} (hc : c.sawDone = false) {event : SseEvent}
    (hframed : Framed event) (haccepted : ∀ data ∈ sseDataValues event, Accepted data)
    (hdone : isDone event = false) :
    (ReadAlike event →
      c.consumeAll (webData event).toList = (c.addContents (contentsIn event), none)) ∧
    (¬ ReadAlike event → (c.consumeAll (webData event).toList).2 ≠ none) := by
  have hone (data : PyStr) : c.consumeAll [data] = c.consumeData data := by
    unfold Web.Collected.consumeAll
    split
    · rename_i h
      rw [h]
      rfl
    · rename_i h
      exact h.symm
  rw [contentsIn_framed hframed]
  -- an event without data is nothing to the Python reader, but a bare `data` line is an empty value
  -- to the page
  cases hdata : eventData event with
  | none =>
    have halike : ReadAlike event ↔ str "data" ∉ splitlines event := by
      unfold ReadAlike
      rw [hdata]
    rw [halike]
    rcases webData_of_none hdata with ⟨hno, hweb⟩ | ⟨hbare, lines', hweb, hblanked⟩
    · rw [hweb, addContents_nil]
      exact ⟨fun _ => rfl, fun hbare => absurd hno hbare⟩
    · rw [hweb, Option.toList_some, hone]
      exact ⟨fun hno => absurd hbare hno, fun _ => consumeData_bare hc hblanked⟩
  | some data =>
    have hvalue : Accepted (strip data) := by
      refine haccepted _ ?_
      rw [Downstream.Relay.sseDataValues_framed hframed, hdata]
      exact List.mem_singleton_self _
    rcases hvalue with hmark | ⟨chunk, hload, -⟩
    · rw [isDone, hdata, Option.map_some, hmark] at hdone
      simp at hdone
    · obtain ⟨lines, lines', hlines, hweb, hblanked⟩ := webData_of_some hdata
      have hchunk := consumeData_chunk hc hdata hload hlines hblanked
      rw [hweb, Option.toList_some, hone]
      dsimp only
      rw [contentsOf, hload]
      exact hchunk

/-- **The events before the mark**: the web client gets through exactly when it reads every one of
them as the Gateway does. -/
theorem consumeAll_before {c : Web.Collected} (hc : c.sawDone = false) {events : List SseEvent}
    (hframed : ∀ event ∈ events, Framed event)
    (haccepted : ∀ event ∈ events, ∀ data ∈ sseDataValues event, Accepted data)
    (hdone : ∀ event ∈ events, isDone event = false) :
    ((∀ event ∈ events, ReadAlike event) → c.consumeAll (events.filterMap webData) =
      (c.addContents (events.flatMap contentsIn), none)) ∧
    ((¬ ∀ event ∈ events, ReadAlike event) →
      (c.consumeAll (events.filterMap webData)).2 ≠ none) := by
  induction events generalizing c with
  | nil =>
    refine ⟨fun _ => ?_, fun h => absurd (List.forall_mem_nil _) h⟩
    rw [List.flatMap_nil, addContents_nil]
    rfl
  | cons event events ih =>
    obtain ⟨hframed, hframeds⟩ := List.forall_mem_cons.mp hframed
    obtain ⟨haccepted, haccepteds⟩ := List.forall_mem_cons.mp haccepted
    obtain ⟨hdone, hdones⟩ := List.forall_mem_cons.mp hdone
    obtain ⟨hread, hfail⟩ := consumeAll_event hc hframed haccepted hdone
    have hvalues : (event :: events).filterMap webData =
        (webData event).toList ++ events.filterMap webData := by
      rw [List.filterMap_cons]
      cases webData event <;> rfl
    rw [hvalues, Web.Collected.consumeAll_append, List.forall_mem_cons, List.flatMap_cons]
    by_cases halike : ReadAlike event
    · rw [hread halike]
      dsimp only
      rw [← addContents_append]
      have hrest := ih (c := c.addContents (contentsIn event)) hc hframeds haccepteds hdones
      exact ⟨fun h => hrest.1 h.2, fun h => hrest.2 fun hall => h ⟨halike, hall⟩⟩
    · refine ⟨fun h => absurd h.1 halike, fun _ => ?_⟩
      have hne := hfail halike
      cases hresult : c.consumeAll (webData event).toList with
      | mk c' e =>
        rw [hresult] at hne
        cases e with
        | none => exact absurd rfl hne
        | some kind => exact Option.some_ne_none kind

/-- After the mark the web client reads no more. -/
theorem consumeAll_done {c : Web.Collected} (hc : c.sawDone = true) (values : List PyStr) :
    c.consumeAll values = (c, none) := by
  induction values with
  | nil => rfl
  | cons data values ih =>
    have hdata : c.consumeData data = (c, none) := by
      rw [Web.Collected.consumeData, hc]
      rfl
    rw [Web.Collected.consumeAll, hdata]
    exact ih

end PolyGate.StreamAgreement
