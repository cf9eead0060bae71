import PolyGate.Lib.PyStr

/-!
# `Lib/Lines.lean` — `str.splitlines`

Python knows more line boundaries than LF and CR, a CRLF being one. No line holds a boundary
(`oneLine_of_mem_splitlines`), and a text that is made of lines with a boundary after each is split
into these lines (`splitlines_line`).
-/

namespace Lib

abbrev lf : CodePoint := codePoint '\n'

abbrev cr : CodePoint := codePoint '\r'

/-- The code points that end a line. -/
def lineBreaks : List Nat := [0x0a, 0x0b, 0x0c, 0x0d, 0x1c, 0x1d, 0x1e, 0x85, 0x2028, 0x2029]

def isLineBreak (p : CodePoint) : Bool := p.val ∈ lineBreaks

/-- No line boundary in it. -/
def OneLine (s : PyStr) : Prop := ∀ p ∈ s, isLineBreak p = false

instance (s : PyStr) : Decidable (OneLine s) := List.decidableBAll _ s

/-- `s.splitlines()`, with what has been read of the current line. -/
def splitlinesFrom (afterCr : Bool) (line : PyStr) : PyStr → List PyStr
  | [] => if line = [] then [] else [line]
  | p :: s =>
    if afterCr && p = lf then splitlinesFrom false line s
    else if isLineBreak p then line :: splitlinesFrom (p = cr) [] s
    else splitlinesFrom false (line ++ [p]) s

def splitlines (s : PyStr) : List PyStr := splitlinesFrom false [] s

theorem oneLine_nil : OneLine [] := fun _ h => absurd h List.not_mem_nil

theorem oneLine_append {s t : PyStr} : OneLine (s ++ t) ↔ OneLine s ∧ OneLine t :=
  List.forall_mem_append

/-- What stands before the first line boundary. -/
def firstLine (s : PyStr) : PyStr := s.takeWhile fun p => !isLineBreak p

theorem oneLine_firstLine (s : PyStr) : OneLine (firstLine s) := fun p hp => by
  simpa using List.mem_takeWhile_imp hp

theorem firstLine_append {s : PyStr} (hs : OneLine s) (t : PyStr) :
    firstLine (s ++ t) = s ++ firstLine t :=
  List.takeWhile_append_of_pos fun p hp => by simpa using hs p hp

/-- The first line ends at a boundary. -/
theorem exists_firstLine {s : PyStr} (hs : ¬ OneLine s) :
    ∃ p t, s = firstLine s ++ p :: t ∧ isLineBreak p = true := by
  induction s with
  | nil => exact absurd oneLine_nil hs
  | cons q s ih =>
    by_cases hq : isLineBreak q = true
    · exact ⟨q, s, by simp [firstLine, hq], hq⟩
    · have hq' : isLineBreak q = false := Bool.eq_false_iff.mpr hq
      have hrest : ¬ OneLine s := fun h => hs (List.forall_mem_cons.mpr ⟨hq', h⟩)
      obtain ⟨p, t, heq, hp⟩ := ih hrest
      refine ⟨p, t, ?_, hp⟩
      rw [show firstLine (q :: s) = q :: firstLine s by simp [firstLine, hq'], List.cons_append,
        ← heq]

/-- What comes after a boundary is not on the first line. -/
theorem firstLine_append_of_not {s : PyStr} (hs : ¬ OneLine s) (t : PyStr) :
    firstLine (s ++ t) = firstLine s := by
  obtain ⟨p, r, heq, hp⟩ := exists_firstLine hs
  have hcut (r : PyStr) : firstLine (firstLine s ++ p :: r) = firstLine s := by
    rw [firstLine_append (oneLine_firstLine s)]
    simp [firstLine, hp]
  calc firstLine (s ++ t) = firstLine (firstLine s ++ p :: (r ++ t)) := by
        rw [← List.cons_append, ← List.append_assoc, ← heq]
    _ = firstLine s := hcut (r ++ t)

theorem oneLine_of_mem_splitlinesFrom {s : PyStr} :
    ∀ {afterCr : Bool} {line l : PyStr}, OneLine line → l ∈ splitlinesFrom afterCr line s →
      OneLine l := by
  induction s with
  | nil =>
    intro afterCr line l hline hl
    unfold splitlinesFrom at hl
    split at hl
    · cases hl
    · rw [List.mem_singleton.mp hl]
      exact hline
  | cons p s ih =>
    intro afterCr line l hline hl
    unfold splitlinesFrom at hl
    split at hl
    · exact ih hline hl
    · split at hl
      · rcases List.mem_cons.mp hl with rfl | hl
        · exact hline
        · exact ih oneLine_nil hl
      · rename_i hbreak
        refine ih (oneLine_append.mpr ⟨hline, fun q hq => ?_⟩) hl
        rw [List.mem_singleton.mp hq]
        exact Bool.eq_false_iff.mpr hbreak

/-- A line holds no boundary. -/
theorem oneLine_of_mem_splitlines {s l : PyStr} (h : l ∈ splitlines s) : OneLine l :=
  oneLine_of_mem_splitlinesFrom oneLine_nil h

/-- Text without boundaries is taken as it is. -/
theorem splitlinesFrom_append {s : PyStr} (hs : OneLine s) (line t : PyStr) :
    splitlinesFrom false line (s ++ t) = splitlinesFrom false (line ++ s) t := by
  induction s generalizing line with
  | nil => rw [List.nil_append, List.append_nil]
  | cons p s ih =>
    have hp : isLineBreak p = false := hs p List.mem_cons_self
    have hstep : splitlinesFrom false line (p :: (s ++ t)) =
        splitlinesFrom false (line ++ [p]) (s ++ t) := by
      simp [splitlinesFrom, hp]
    rw [List.cons_append, hstep, ih fun q hq => hs q (List.mem_cons_of_mem p hq),
      List.append_assoc, List.singleton_append]

/-- A line that ends somehow, and the rest. -/
theorem splitlines_cut {s : PyStr} (hs : OneLine s) {p : CodePoint} (hp : isLineBreak p = true)
    (t : PyStr) : splitlines (s ++ p :: t) = s :: splitlinesFrom (p = cr) [] t := by
  unfold splitlines
  rw [splitlinesFrom_append hs, List.nil_append]
  simp [splitlinesFrom, hp]

/-- A line and its LF, and the rest. -/
theorem splitlines_line {s : PyStr} (hs : OneLine s) (t : PyStr) :
    splitlines (s ++ lf :: t) = s :: splitlines t := by
  rw [splitlines_cut hs (by decide)]
  rfl

/-- Lines with an LF after each. -/
theorem splitlines_flatMap {lines : List PyStr} (h : ∀ l ∈ lines, OneLine l) (t : PyStr) :
    splitlines (lines.flatMap (· ++ [lf]) ++ t) = lines ++ splitlines t := by
  induction lines with
  | nil => rfl
  | cons l lines ih =>
    have hl := splitlines_line (h l List.mem_cons_self) (lines.flatMap (· ++ [lf]) ++ t)
    rw [ih fun l' hl' => h l' (List.mem_cons_of_mem l hl')] at hl
    simpa using hl

end Lib
