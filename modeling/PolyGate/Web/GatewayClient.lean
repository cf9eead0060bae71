import PolyGate.Lib.JsonText
import PolyGate.Lib.Lines

/-!
# `Web/GatewayClient.lean` — reading a streamed answer in the browser

`SseEventDecoder` and the reading part of `requestStreamingCompletion`, from
`web/src/api/gateway-client.ts`: what happens once the head of the response has been accepted, for
a request that is not aborted. The decoder of the bytes is a parameter, as the browser provides it.

A JavaScript string is here the list of its code points; a decoded text has no lone surrogates, so
no index of the source falls inside one.
-/

namespace PolyGate.Web

open Lib

/-! ## `SseEventDecoder` -/

structure SseEventDecoder where
  buffer : PyStr
  dataLines : List PyStr

/-- The line before the first line end, and what stands after the line end. A CR that is the last
character may be half of a CRLF, so the line is not taken yet. -/
def nextLine : PyStr → Option (PyStr × PyStr)
  | [] => none
  | p :: s =>
    if p = lf then some ([], s)
    else if p = cr then match s with
      | [] => none
      | q :: s' => some ([], if q = lf then s' else q :: s')
    else (nextLine s).map fun (line, rest) => (p :: line, rest)

theorem nextLine_length {s line rest : PyStr} (h : nextLine s = some (line, rest)) :
    rest.length < s.length := by
  induction s generalizing line with
  | nil => cases h
  | cons p s ih =>
    unfold nextLine at h
    split at h
    · cases h
      exact Nat.lt_succ_self _
    · split at h
      · split at h
        · cases h
        · cases h
          split
          · exact Nat.lt_succ_of_lt (Nat.lt_succ_self _)
          · exact Nat.lt_succ_self _
      · obtain ⟨⟨line', rest'⟩, hnext, hpair⟩ := Option.map_eq_some_iff.mp h
        cases hpair
        exact Nat.lt_succ_of_lt (ih hnext)

/-- What a line adds to the data of the current event. -/
def dataOf (line : PyStr) : List PyStr :=
  if (str ":").isPrefixOf line then []
  else if line = str "data" then [[]]
  else if !(str "data:").isPrefixOf line then []
  else
    let value := line.drop 5
    [if (str " ").isPrefixOf value then value.drop 1 else value]

/-- `consumeLine`: the event that the line completes, if any, and the data lines after it. -/
def consumeLine (dataLines : List PyStr) (line : PyStr) : List PyStr × List PyStr :=
  if line = [] then (if 0 < dataLines.length then [[lf].intercalate dataLines] else [], [])
  else ([], dataLines ++ dataOf line)

/-- The loop of `push`, from its buffer. -/
def drain (dataLines : List PyStr) (buffer : PyStr) : List PyStr × SseEventDecoder :=
  match h : nextLine buffer with
  | none => ([], ⟨buffer, dataLines⟩)
  | some (line, rest) =>
    have : rest.length < buffer.length := nextLine_length h
    let (events, dataLines) := consumeLine dataLines line
    let (later, decoder) := drain dataLines rest
    (events ++ later, decoder)
termination_by buffer.length

namespace SseEventDecoder

def new : SseEventDecoder := ⟨[], []⟩

def push (d : SseEventDecoder) (text : PyStr) : List PyStr × SseEventDecoder :=
  drain d.dataLines (d.buffer ++ text)

end SseEventDecoder

/-! ## `requestStreamingCompletion` -/

/-- The kinds of error that reading a stream can end in. -/
inductive ErrorKind | partialAnswer | validation | network
  deriving DecidableEq

/-- What `String.prototype.trim` takes away. -/
def trimmed : List Nat :=
  [0x09, 0x0a, 0x0b, 0x0c, 0x0d, 0x20, 0xa0, 0x1680, 0x2000, 0x2001, 0x2002, 0x2003, 0x2004, 0x2005,
   0x2006, 0x2007, 0x2008, 0x2009, 0x200a, 0x2028, 0x2029, 0x202f, 0x205f, 0x3000, 0xfeff]

def trim (s : PyStr) : PyStr :=
  (s.dropWhile fun p => p.val ∈ trimmed).rdropWhile fun p => p.val ∈ trimmed

/-- What the reader has collected: the answer, the values given to `onDelta`, and whether it has
seen `[DONE]`. -/
structure Collected where
  answer : PyStr
  deltas : List PyStr
  sawDone : Bool

namespace Collected

def new : Collected := ⟨[], [], false⟩

/-- `answer.length > 0 ? "partial" : otherwise` -/
def kind (c : Collected) (otherwise : ErrorKind) : ErrorKind :=
  if c.answer = [] then otherwise else .partialAnswer

/-- `choice.delta.content`, if it is a string that is not empty. -/
def contentOf (choice : Json) : Option PyStr :=
  match choice with
  | .obj choice => match Obj.get? choice "delta" with
    | some (.obj delta) => match Obj.get? delta "content" with
      | some (.str content) => if content = [] then none else some content
      | _ => none
    | _ => none
  | _ => none

/-- The strings that a chunk adds to the answer. -/
def contents (chunk : Json) : List PyStr :=
  match chunk with
  | .obj chunk => match Obj.get? chunk "choices" with
    | some (.arr choices) => choices.filterMap contentOf
    | _ => []
  | _ => []

/-- `!chunk || typeof chunk !== "object" || "error" in chunk` -/
def isErrorChunk : Json → Bool
  | .obj chunk => (Obj.get? chunk "error").isSome
  | .arr _ => false
  | _ => true

def addContents (c : Collected) (new : List PyStr) : Collected :=
  { c with answer := c.answer ++ new.flatten, deltas := c.deltas ++ new }

/-- `consumeData`, with the kind of the error that it throws. -/
def consumeData (c : Collected) (data : PyStr) : Collected × Option ErrorKind :=
  if c.sawDone then (c, none)
  else if trim data = str "[DONE]" then ({ c with sawDone := true }, none)
  else match jsonParse data with
    | none => (c, some (c.kind .validation))
    | some chunk =>
      if isErrorChunk chunk then (c, some (c.kind .validation))
      else (c.addContents (contents chunk), none)

/-- `events.forEach(consumeData)` -/
def consumeAll (c : Collected) : List PyStr → Collected × Option ErrorKind
  | [] => (c, none)
  | data :: events => match c.consumeData data with
    | (c, none) => c.consumeAll events
    | (c, some kind) => (c, some kind)

/-- What the source does after the last event. -/
def finish (c : Collected) : Collected × Option ErrorKind :=
  if !c.sawDone then (c, some .partialAnswer)
  else if c.answer = [] then (c, some .validation)
  else (c, none)

end Collected

/-- A `TextDecoder` in its streaming mode: `decode(value, { stream: true })` and `decode()`. -/
structure TextDecoder where
  State : Type
  new : State
  decode : State → List UInt8 → PyStr × State
  flush : State → PyStr

/-- How the body ends: with `done`, or with a read that fails. -/
inductive Ending | done | failed

/-- What the loop carries from chunk to chunk. -/
structure Reader (T : TextDecoder) where
  textDecoder : T.State
  eventDecoder : SseEventDecoder
  collected : Collected

namespace Reader

variable {T : TextDecoder}

def new : Reader T := ⟨T.new, .new, .new⟩

/-- The `while` loop and what follows it, over the chunks of the body. -/
def read (r : Reader T) (ending : Ending) : List (List UInt8) → Collected × Option ErrorKind
  | [] => match ending with
    | .failed => (r.collected, some (r.collected.kind .network))
    | .done => match r.collected.consumeAll (r.eventDecoder.push (T.flush r.textDecoder)).1 with
      | (c, none) => c.finish
      | (c, some kind) => (c, some kind)
  | value :: chunks =>
    let (text, textDecoder) := T.decode r.textDecoder value
    let (events, eventDecoder) := r.eventDecoder.push text
    match r.collected.consumeAll events with
    | (collected, none) => read ⟨textDecoder, eventDecoder, collected⟩ ending chunks
    | (collected, some kind) => (collected, some kind)

end Reader

/-- `requestStreamingCompletion` from the first `reader.read()` on: what has been collected, and
the kind of the error if there is one. -/
def requestStreamingCompletion (T : TextDecoder) (ending : Ending) (chunks : List (List UInt8)) :
    Collected × Option ErrorKind := (Reader.new (T := T)).read ending chunks

end PolyGate.Web
