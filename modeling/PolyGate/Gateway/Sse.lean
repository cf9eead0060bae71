import PolyGate.Lib.JsonDumps
import PolyGate.Lib.Lines
import PolyGate.Lib.PyInt

/-!
# `Gateway/Sse.lean` — events of a stream

What `gateway/app/adapters.py` and `gateway/app/main.py` do with server-sent events: framing,
prefetching, reading their data, observing and hiding them. An event is `bytes` in the source; here
it is the text of these bytes, which holds no surrogates because the upstream's lines are decoded
text, and `utf8Length` is their number.

A function that raises part of the way returns how far it got, since the decision card is made from
what was observed before.
-/

namespace PolyGate.Gateway

open Lib

/-- The text of an event. -/
abbrev SseEvent := PyStr

/-- `len(s.encode("utf-8"))` -/
def utf8Length (s : PyStr) : Nat :=
  (s.map fun p => if p.val < 0x80 then 1 else if p.val < 0x800 then 2
    else if p.val < 0x10000 then 3 else 4).sum

inductive StreamExc
  | providerProtocolError (message : String)
  | valueError
  | typeError
  | attributeError
  | overflowError
  deriving DecidableEq

def StreamExc.ofInt : IntExc → StreamExc
  | .typeError => .typeError
  | .valueError => .valueError
  | .overflowError => .overflowError

/-! ## Encoding -/

inductive DumpExc | valueError | unicodeEncodeError

mutual

/-- Every integer is short enough for `str`. -/
def intsFit (maxDigits : Nat) : Json → Bool
  | .int n => digitCount (intStr n) ≤ maxDigits
  | .arr elems => elemsFit maxDigits elems
  | .obj fields => fieldsFit maxDigits fields
  | _ => true

def elemsFit (maxDigits : Nat) : List Json → Bool
  | [] => true
  | v :: elems => intsFit maxDigits v && elemsFit maxDigits elems

def fieldsFit (maxDigits : Nat) : List (PyStr × Json) → Bool
  | [] => true
  | (_, v) :: fields => intsFit maxDigits v && fieldsFit maxDigits fields

end

/-- `json.dumps(data, ensure_ascii=False, separators=(",", ":"))` -/
def dumpsCompact (data : Obj) : PyStr := dumpsSep (str ",") (str ":") (.obj data)

/-- `_data_event` -/
def dataEvent (data : Obj) : Except DumpExc SseEvent :=
  if intsFit 4300 (.obj data) then
    let event := str "data: " ++ dumpsCompact data ++ [lf, lf]
    if (encodeUtf8 event).isSome then .ok event else .error .unicodeEncodeError
  else .error .valueError

/-! ## Framing -/

/-- `"\n".join(lines)` -/
def joinLines (lines : List PyStr) : PyStr := [lf].intercalate lines

/-- `("\n".join(lines) + "\n\n").encode("utf-8")` -/
def eventOf (lines : List PyStr) : SseEvent := joinLines lines ++ [lf, lf]

/-- `_iter_sse_events`, with the lines of the current event. -/
def iterSseEventsFrom (lines : List PyStr) : List PyStr → List SseEvent
  | [] => if lines = [] then [] else [eventOf lines]
  | line :: rest =>
    if line = [] then
      if lines = [] then iterSseEventsFrom [] rest else eventOf lines :: iterSseEventsFrom [] rest
    else iterSseEventsFrom (lines ++ [line]) rest

def iterSseEvents (lines : List PyStr) : List SseEvent := iterSseEventsFrom [] lines

/-- The value of a `data:` line. -/
def dataField (line : PyStr) : Option PyStr :=
  if (str "data:").isPrefixOf line then
    let value := line.drop 5
    some (if (str " ").isPrefixOf value then value.drop 1 else value)
  else none

/-- `_event_data` -/
def eventData (event : SseEvent) : Option PyStr :=
  match (splitlines event).filterMap dataField with
  | [] => none
  | dataLines => some (joinLines dataLines)

/-- `_sse_data_values`, with the data lines of the current event. -/
def dataValuesFrom (dataLines : List PyStr) : List PyStr → List PyStr
  | [] => if dataLines = [] then [] else [strip (joinLines dataLines)]
  | line :: rest =>
    if line = [] then
      if dataLines = [] then dataValuesFrom [] rest
      else strip (joinLines dataLines) :: dataValuesFrom [] rest
    else match dataField line with
      | some value => dataValuesFrom (dataLines ++ [value]) rest
      | none => dataValuesFrom dataLines rest

/-- `_sse_data_values` -/
def sseDataValues (event : SseEvent) : List PyStr := dataValuesFrom [] (splitlines event)

/-- "[DONE]" -/
def doneMark : PyStr := str "[DONE]"

/-! ## Opening a stream -/

/-- `x is None or x.get(key) is None` -/
def absentOrNull : Option Json → Bool
  | some v => v.isNone
  | none => true

/-- `_is_completion_event` -/
def isCompletionEvent (name : String) (event : SseEvent) : Except StreamExc Bool :=
  match eventData event with
  | none => .ok false
  | some data =>
    if strip data = doneMark then
      .error (.providerProtocolError
        ("provider " ++ name ++ " ended before returning a completion chunk"))
    else match loads data with
      | .error .jsonDecodeError =>
        .error (.providerProtocolError ("provider " ++ name ++ " returned malformed SSE data"))
      | .error .valueError => .error .valueError
      | .ok (.obj payload) =>
        if !absentOrNull (Obj.get? payload "error") then
          .error (.providerProtocolError
            ("provider " ++ name ++ " returned an SSE error before its first chunk"))
        else match Obj.get? payload "choices" with
          | some (.arr (_ :: _)) => .ok true
          | _ => .error (.providerProtocolError
            ("provider " ++ name ++ " returned no choices in its first SSE payload"))
      | .ok _ =>
        .error (.providerProtocolError ("provider " ++ name ++
          " returned a non-object SSE payload"))

/-- The loop of `open_provider_stream` with `rounds` to go: the events it has prefetched and the
events that are still to come. -/
def prefetch (name : String) : Nat → List SseEvent → Nat → List SseEvent →
    Except StreamExc (List SseEvent × List SseEvent)
  | 0, _, _, _ =>
    .error (.providerProtocolError ("provider " ++ name ++ " sent too many SSE prelude events"))
  | _ + 1, _, _, [] =>
    .error (.providerProtocolError ("provider " ++ name ++ " returned an empty SSE stream"))
  | rounds + 1, prefetched, prefetchedSize, event :: rest =>
    if 64 * 1024 < prefetchedSize + utf8Length event then
      .error (.providerProtocolError ("provider " ++ name ++ " sent too much SSE prelude data"))
    else match isCompletionEvent name event with
      | .error e => .error e
      | .ok true => .ok (prefetched ++ [event], rest)
      | .ok false => prefetch name rounds (prefetched ++ [event])
          (prefetchedSize + utf8Length event) rest

/-- An opened stream: its first event, which may be several, and the others. -/
structure OpenedEvents where
  firstEvent : SseEvent
  remainingEvents : List SseEvent

/-- `open_provider_stream`, from the lines of a response that is an event stream. -/
def openEvents (name : String) (lines : List PyStr) : Except StreamExc OpenedEvents :=
  (prefetch name 32 [] 0 (iterSseEvents lines)).map fun (prefetched, rest) =>
    ⟨prefetched.flatten, rest⟩

/-! ## Observing a stream -/

/-- `_StreamObservation`; `finish_reason` holds the value whose `str` the source keeps. -/
structure Observation where
  inputTokens : Int
  outputTokens : Int
  finishReason : Option Json
  sawDone : Bool

namespace Observation

def new : Observation := ⟨0, 0, none, false⟩

/-- An observation, and what was raised after it. -/
abbrev Result := Observation × Option StreamExc

/-- `x or {}`, then something of which `get` is asked. -/
def dictOrEmpty : Option Json → Except StreamExc Obj
  | none => .ok []
  | some v => if v.truthy then
      match v with
      | .obj d => .ok d
      | _ => .error .attributeError
    else .ok []

/-- `int(usage.get(key, current))` -/
def tokens (usage : Obj) (key : String) (current : Int) : Except StreamExc Int :=
  match Obj.get? usage key with
  | none => .ok current
  | some v => v.toInt.mapError .ofInt

/-- `for choice in chunk.get("choices") or []` -/
def choicesOf : Option Json → Except StreamExc (List Json)
  | none => .ok []
  | some v => if v.truthy then
      match v with
      | .arr choices => .ok choices
      | .str s => .ok (s.map fun p => .str [p])
      | .obj d => .ok (d.map fun kv => .str kv.1)
      | _ => .error .typeError
    else .ok []

def observeChoices (o : Observation) : List Json → Result
  | [] => (o, none)
  | .obj choice :: choices =>
    match Obj.get? choice "finish_reason" with
    | none | some .null => observeChoices o choices
    | some reason => observeChoices { o with finishReason := some reason } choices
  | _ :: _ => (o, some .attributeError)

def observeChunk (o : Observation) (chunk : Obj) : Result :=
  match dictOrEmpty (Obj.get? chunk "usage") with
  | .error e => (o, some e)
  | .ok usage => match tokens usage "prompt_tokens" o.inputTokens with
    | .error e => (o, some e)
    | .ok inputTokens =>
      let o := { o with inputTokens }
      match tokens usage "completion_tokens" o.outputTokens with
      | .error e => (o, some e)
      | .ok outputTokens =>
        let o := { o with outputTokens }
        match choicesOf (Obj.get? chunk "choices") with
        | .error e => (o, some e)
        | .ok choices => o.observeChoices choices

/-- The body of the loop of `consume`. -/
def consumeData (o : Observation) (data : PyStr) : Result :=
  if data = doneMark then ({ o with sawDone := true }, none)
  else match loads data with
    | .error .jsonDecodeError =>
      (o, some (.providerProtocolError "provider returned malformed SSE data"))
    | .error .valueError => (o, some .valueError)
    | .ok (.obj chunk) =>
      if !absentOrNull (Obj.get? chunk "error") then
        (o, some (.providerProtocolError "provider returned an invalid SSE chunk"))
      else o.observeChunk chunk
    | .ok _ => (o, some (.providerProtocolError "provider returned an invalid SSE chunk"))

def consumeAll (o : Observation) : List PyStr → Result
  | [] => (o, none)
  | data :: values => match o.consumeData data with
    | (o, none) => o.consumeAll values
    | (o, some e) => (o, some e)

def consume (o : Observation) (event : SseEvent) : Result := o.consumeAll (sseDataValues event)

/-- `observation.saw_done and observation.finish_reason is not None` -/
def complete (o : Observation) : Bool := o.sawDone && o.finishReason.isSome

end Observation

/-! ## Hiding the usage chunk -/

/-- The chunks of an event, if every value of it is one. -/
def chunksOf : List PyStr → Except StreamExc (Option (List Obj))
  | [] => .ok (some [])
  | data :: values =>
    if data = [] ∨ data = doneMark then .ok none
    else match loads data with
      | .error .jsonDecodeError => .ok none
      | .error .valueError => .error .valueError
      | .ok (.obj chunk) => (chunksOf values).map fun chunks => chunks.map (chunk :: ·)
      | .ok _ => .ok none

/-- A chunk without choices that tells the usage. -/
def isUsageChunk (chunk : Obj) : Bool :=
  !((Obj.get? chunk "choices").any Json.truthy) && !absentOrNull (Obj.get? chunk "usage")

/-- `_is_usage_only_event` -/
def isUsageOnlyEvent (event : SseEvent) : Except StreamExc Bool :=
  (chunksOf (sseDataValues event)).map fun chunks => match chunks with
    | none => false
    | some chunks => !chunks.isEmpty && chunks.all isUsageChunk

end PolyGate.Gateway
