import PolyGate.Web.GatewayClient

/-!
# `Web/Chunking.lean` — the chunks of a stream make no difference

The decoder keeps what is left of the last line and the data lines of the current event. What it
comes to is said without either: the lines of the whole text (`terminatedLines`), and the data of
the lines before each blank one (`dataValues`). Pushing a text in two parts is pushing it at once
(`drain_append`), so neither the events nor what the reader makes of them depend on where the body
is split.
-/

namespace PolyGate.Web

open Lib

/-! ## What the decoder stands for -/

/-- The lines of a text that is read to its end: split at CRLF, LF and CR, without what follows the
last line end, and without the line that a final lone CR ends. -/
def terminatedLinesFrom (afterCr : Bool) (line : PyStr) : PyStr → List PyStr
  | [] => []
  | p :: s =>
    if afterCr && p = lf then terminatedLinesFrom false line s
    else if p = lf then line :: terminatedLinesFrom false [] s
    else if p = cr then if s = [] then [] else line :: terminatedLinesFrom true [] s
    else terminatedLinesFrom false (line ++ [p]) s

def terminatedLines (s : PyStr) : List PyStr := terminatedLinesFrom false [] s

/-- The data of the lines before each blank line, joined with LF, with the data lines so far. -/
def dataValuesFrom (dataLines : List PyStr) : List PyStr → List PyStr
  | [] => []
  | line :: lines =>
    if line = [] then
      if dataLines = [] then dataValuesFrom [] lines
      else [lf].intercalate dataLines :: dataValuesFrom [] lines
    else dataValuesFrom (dataLines ++ dataOf line) lines

def dataValues (s : PyStr) : List PyStr := dataValuesFrom [] (terminatedLines s)

theorem nextLine_other {p : CodePoint} (hlf : p ≠ lf) (hcr : p ≠ cr) (s : PyStr) :
    nextLine (p :: s) = (nextLine s).map fun (line, rest) => (p :: line, rest) := by
  conv => lhs; unfold nextLine
  rw [if_neg hlf, if_neg hcr]

theorem terminatedLinesFrom_eq (s : PyStr) : ∀ line : PyStr,
    terminatedLinesFrom false line s = match nextLine s with
      | none => []
      | some (l, rest) => (line ++ l) :: terminatedLines rest := by
  induction s with
  | nil => exact fun line => rfl
  | cons p s ih =>
    intro line
    by_cases hlf : p = lf
    · simp [terminatedLinesFrom, nextLine, hlf, terminatedLines]
    · by_cases hcr : p = cr
      · -- the text goes on after the CR, or this CR is the last character
        have hne : cr ≠ lf := by decide
        cases s with
        | nil => simp [terminatedLinesFrom, nextLine, hcr, hne]
        | cons q s =>
          by_cases hq : q = lf <;>
            simp [terminatedLinesFrom, nextLine, hcr, hne, hq, terminatedLines]
      · have hstep : terminatedLinesFrom false line (p :: s) =
            terminatedLinesFrom false (line ++ [p]) s := by
          simp [terminatedLinesFrom, hlf, hcr]
        rw [hstep, ih, nextLine_other hlf hcr]
        cases nextLine s with
        | none => rfl
        | some next => simp

theorem terminatedLines_eq (s : PyStr) : terminatedLines s = match nextLine s with
    | none => []
    | some (l, rest) => l :: terminatedLines rest := terminatedLinesFrom_eq s []

theorem drain_none {dataLines : List PyStr} {s : PyStr} (h : nextLine s = none) :
    drain dataLines s = ([], ⟨s, dataLines⟩) := by
  unfold drain
  split
  · rfl
  · rename_i hnext
    rw [h] at hnext
    cases hnext

theorem drain_some {dataLines : List PyStr} {s line rest : PyStr}
    (h : nextLine s = some (line, rest)) :
    drain dataLines s = ((consumeLine dataLines line).1 ++
      (drain (consumeLine dataLines line).2 rest).1,
        (drain (consumeLine dataLines line).2 rest).2) := by
  conv => lhs; unfold drain
  split
  · rename_i hnext
    rw [h] at hnext
    cases hnext
  · rename_i hnext
    rw [h] at hnext
    cases hnext
    rfl

/-- Draining a text emits its data values. -/
theorem drain_dataValues (s : PyStr) : ∀ dataLines : List PyStr,
    (drain dataLines s).1 = dataValuesFrom dataLines (terminatedLines s) := by
  induction hn : s.length using Nat.strongRecOn generalizing s with
  | ind n ih =>
    subst hn
    intro dataLines
    rw [terminatedLines_eq]
    cases h : nextLine s with
    | none => rw [drain_none h]; rfl
    | some next =>
      obtain ⟨line, rest⟩ := next
      have hrest := ih rest.length (nextLine_length h) rest rfl
      rw [drain_some h]
      dsimp only
      rw [hrest, dataValuesFrom]
      by_cases hline : line = []
      · cases dataLines with
        | nil => simp [consumeLine, hline]
        | cons d ds => simp [consumeLine, hline]
      · simp [consumeLine, hline]

/-! ## Splitting a text -/

/-- A line that has been found stays found when the text grows. -/
theorem nextLine_append {s line rest : PyStr} (h : nextLine s = some (line, rest)) (t : PyStr) :
    nextLine (s ++ t) = some (line, rest ++ t) := by
  induction s generalizing line with
  | nil => cases h
  | cons p s ih =>
    rw [List.cons_append]
    unfold nextLine at h ⊢
    split at h
    · rename_i hlf
      cases h
      rw [if_pos hlf]
    · rename_i hlf
      rw [if_neg hlf]
      split at h
      · rename_i hcr
        rw [if_pos hcr]
        cases s with
        | nil => cases h
        | cons q s =>
          cases h
          by_cases hq : q = lf <;> simp [hq]
      · rename_i hcr
        rw [if_neg hcr]
        obtain ⟨⟨line', rest'⟩, hnext, hpair⟩ := Option.map_eq_some_iff.mp h
        cases hpair
        rw [ih hnext]
        rfl

/-- **Two pushes are one.** -/
theorem drain_append (s t : PyStr) : ∀ dataLines : List PyStr,
    drain dataLines (s ++ t) =
      ((drain dataLines s).1 ++ ((drain dataLines s).2.push t).1,
        ((drain dataLines s).2.push t).2) := by
  induction hn : s.length using Nat.strongRecOn generalizing s with
  | ind n ih =>
    subst hn
    intro dataLines
    cases h : nextLine s with
    | none =>
      rw [drain_none h]
      rfl
    | some next =>
      obtain ⟨line, rest⟩ := next
      rw [drain_some h, drain_some (nextLine_append h t),
        ih rest.length (nextLine_length h) rest rfl]
      simp only [List.append_assoc]

/-- What is left in the buffer is no line yet. -/
def SseEventDecoder.Settled (d : SseEventDecoder) : Prop := nextLine d.buffer = none

theorem drain_settled (s : PyStr) : ∀ dataLines : List PyStr, (drain dataLines s).2.Settled := by
  induction hn : s.length using Nat.strongRecOn generalizing s with
  | ind n ih =>
    subst hn
    intro dataLines
    cases h : nextLine s with
    | none =>
      rw [drain_none h]
      exact h
    | some next =>
      obtain ⟨line, rest⟩ := next
      rw [drain_some h]
      exact ih rest.length (nextLine_length h) rest rfl _

namespace SseEventDecoder

variable {d : SseEventDecoder}

theorem new_settled : new.Settled := rfl

theorem push_settled (text : PyStr) : (d.push text).2.Settled := drain_settled _ _

theorem push_nil (hd : d.Settled) : d.push [] = ([], d) := by
  rw [push, List.append_nil, drain_none hd]

theorem push_append (s t : PyStr) :
    d.push (s ++ t) = ((d.push s).1 ++ ((d.push s).2.push t).1, ((d.push s).2.push t).2) := by
  rw [push, ← List.append_assoc, drain_append]
  rfl

/-- Push the texts one after another. -/
def pushAll (d : SseEventDecoder) : List PyStr → List PyStr × SseEventDecoder
  | [] => ([], d)
  | text :: texts =>
    (((d.push text).1 ++ ((d.push text).2.pushAll texts).1), ((d.push text).2.pushAll texts).2)

theorem pushAll_eq (hd : d.Settled) (texts : List PyStr) :
    d.pushAll texts = d.push texts.flatten := by
  induction texts generalizing d with
  | nil => exact (push_nil hd).symm
  | cons text texts ih =>
    rw [pushAll, ih (push_settled text), List.flatten_cons, push_append]

end SseEventDecoder

/-! ## Splitting a body -/

namespace Collected

theorem consumeAll_append (c : Collected) (events events' : List PyStr) :
    c.consumeAll (events ++ events') = match c.consumeAll events with
      | (c, none) => c.consumeAll events'
      | (c, some kind) => (c, some kind) := by
  induction events generalizing c with
  | nil => rfl
  | cons data events ih =>
    rw [List.cons_append, consumeAll, consumeAll]
    split
    · exact ih _
    · rfl

end Collected

/-- The decoder of the bytes decodes incrementally: a body in two parts as the whole of it. -/
structure TextDecoder.Incremental (T : TextDecoder) : Prop where
  nil : ∀ s, T.decode s [] = ([], s)
  append : ∀ s a b, T.decode s (a ++ b) = ((T.decode s a).1 ++ (T.decode (T.decode s a).2 b).1,
    (T.decode (T.decode s a).2 b).2)

namespace Reader

variable {T : TextDecoder} {r : Reader T} {ending : Ending}

theorem read_empty (hT : T.Incremental) (hr : r.eventDecoder.Settled) :
    r.read ending [[]] = r.read ending [] := by
  conv => lhs; unfold read
  rw [hT.nil]
  dsimp only
  rw [SseEventDecoder.push_nil hr]
  rfl

/-- Two chunks that are not followed by others. -/
theorem read_two (hT : T.Incremental) (a b : List UInt8) :
    r.read ending [a, b] = r.read ending [a ++ b] := by
  conv => rhs; unfold read
  conv => lhs; unfold read
  rw [hT.append]
  dsimp only
  rw [SseEventDecoder.push_append, Collected.consumeAll_append]
  cases h : r.collected.consumeAll (r.eventDecoder.push (T.decode r.textDecoder a).1).1 with
  | mk c e =>
    cases e with
    | some kind => rfl
    | none =>
      dsimp only
      conv => lhs; unfold read

/-- **Only the bytes of the body matter.** -/
theorem read_flatten (hT : T.Incremental) (hr : r.eventDecoder.Settled)
    (chunks : List (List UInt8)) : r.read ending chunks = r.read ending [chunks.flatten] := by
  induction chunks generalizing r with
  | nil => exact (read_empty hT hr).symm
  | cons a chunks ih =>
    rw [List.flatten_cons, ← read_two hT]
    conv => rhs; unfold read
    conv => lhs; unfold read
    dsimp only
    cases h : r.collected.consumeAll (r.eventDecoder.push (T.decode r.textDecoder a).1).1 with
    | mk c e =>
      cases e with
      | some kind => rfl
      | none =>
        dsimp only
        exact ih (SseEventDecoder.push_settled _)

end Reader

/-- **Chunking is irrelevant.** With an incremental `TextDecoder`, two ways of splitting a body end
in the same answer, the same calls of `onDelta` and the same success or kind of error. And the data
values that the event decoder emits are those of the whole text. -/
theorem chunking_irrelevant (T : TextDecoder) (hT : T.Incremental) :
    (∀ ending chunks chunks', chunks.flatten = chunks'.flatten →
      requestStreamingCompletion T ending chunks = requestStreamingCompletion T ending chunks') ∧
    ∀ texts, (SseEventDecoder.new.pushAll texts).1 = dataValues texts.flatten := by
  refine ⟨fun ending chunks chunks' h => ?_, fun texts => ?_⟩
  · unfold requestStreamingCompletion
    rw [Reader.read_flatten hT SseEventDecoder.new_settled chunks, h,
      ← Reader.read_flatten hT SseEventDecoder.new_settled chunks']
  · rw [SseEventDecoder.pushAll_eq SseEventDecoder.new_settled]
    exact drain_dataValues _ _

/-- The decoder of a body in ASCII: a byte is a character. -/
def asciiDecoder : TextDecoder where
  State := Unit
  new := ()
  decode _ bytes := (bytes.map fun b => codePoint (Char.ofNat b.toNat), ())
  flush _ := []

def ascii (s : String) : List UInt8 := s.toList.map fun c => UInt8.ofNat c.toNat

/-- A CRLF that is split between two chunks. -/
theorem chunking_irrelevant_crlf :
    requestStreamingCompletion asciiDecoder .done [ascii "data: [DONE]\r", ascii "\n\r\n"] =
      requestStreamingCompletion asciiDecoder .done [ascii "data: [DONE]\r\n\r\n"] := by
  refine (chunking_irrelevant asciiDecoder ⟨fun _ => rfl, fun _ a b => ?_⟩).1 _ _ _ ?_
  · exact congrArg (·, ()) List.map_append
  · decide

end PolyGate.Web
