import PolyGate.Lib.Json

/-!
# `Lib/ShellWords.lean` — the words of a command line

How a POSIX shell splits a simple command into words, with its three ways of quoting. An expansion
in braces stays a piece of its word, since the environment says what it stands for. A text with
anything else that the shell would act on, such as an operator, a pattern or a comment, is not a
list of plain words.
-/

namespace Lib.Shell

inductive Piece
  | char (p : CodePoint)
  /-- `${text}` -/
  | parameter (text : PyStr)
  deriving DecidableEq

abbrev Word := List Piece

/-- Where the shell is in the text. -/
inductive Mode
  | plain
  | escaped
  | single
  | double
  | doubleEscaped
  | dollar
  | braces (text : PyStr)
  deriving DecidableEq

structure State where
  mode : Mode
  /-- The word that has begun. -/
  current : Option Word
  words : List Word
  deriving DecidableEq

namespace State

/-- A quote begins a word, even an empty one. -/
def enter (st : State) (mode : Mode) : State :=
  { st with mode := mode, current := some (st.current.getD []) }

def push (st : State) (mode : Mode) (pieces : Word) : State :=
  { st with mode := mode, current := some (st.current.getD [] ++ pieces) }

def endWord (st : State) : State :=
  match st.current with
  | some word => { st with current := none, words := st.words ++ [word] }
  | none => st

end State

def isOneOf (text : String) (p : CodePoint) : Bool := (str text).any fun q => q = p

/-- Not plain words, unless they are quoted. -/
def special : String := "\n;&|<>()`*?["

def step (st : State) (p : CodePoint) : Option State :=
  match st.mode with
  | .plain =>
    if isOneOf " \t" p then some st.endWord
    else if p = codePoint '\'' then some (st.enter .single)
    else if p = codePoint '"' then some (st.enter .double)
    else if p = codePoint '\\' then some { st with mode := .escaped }
    else if p = codePoint '$' then some { st with mode := .dollar }
    else if isOneOf special p then none
    else if st.current.isNone && isOneOf "#~" p then none
    else some (st.push .plain [.char p])
  | .escaped =>
    if p = codePoint '\n' then some { st with mode := .plain }
    else some (st.push .plain [.char p])
  | .single =>
    if p = codePoint '\'' then some { st with mode := .plain } else some (st.push .single [.char p])
  | .double =>
    if p = codePoint '"' then some { st with mode := .plain }
    else if p = codePoint '\\' then some { st with mode := .doubleEscaped }
    else if isOneOf "$`" p then none
    else some (st.push .double [.char p])
  | .doubleEscaped =>
    if p = codePoint '\n' then some { st with mode := .double }
    else if isOneOf "$`\"\\" p then some (st.push .double [.char p])
    else some (st.push .double [.char (codePoint '\\'), .char p])
  | .dollar => if p = codePoint '\x7b' then some { st with mode := .braces [] } else none
  | .braces text =>
    if p = codePoint '\x7d' then some (st.push .plain [.parameter text])
    else if isOneOf "$`\"'\\" p then none
    else some { st with mode := .braces (text ++ [p]) }

/-- The states that a text leads through. -/
def run (st : State) (text : PyStr) : Option State := text.foldlM step st

/-- The words of a command line. -/
def words (text : PyStr) : Option (List Word) :=
  (run ⟨.plain, none, []⟩ text).bind fun st =>
    if st.mode = .plain then some st.endWord.words else none

/-- A word that nothing is to be expanded in. -/
def literal (text : PyStr) : Word := text.map .char

theorem run_append (st : State) (s t : PyStr) : run st (s ++ t) = (run st s).bind (run · t) :=
  List.foldlM_append

theorem run_cons (st : State) (p : CodePoint) (s : PyStr) :
    run st (p :: s) = (step st p).bind (run · s) := List.foldlM_cons

/-- A command line that ends with a word. -/
theorem words_append {s t : PyStr} {ws : List Word} {w : Word}
    (hs : run ⟨.plain, none, []⟩ s = some ⟨.plain, none, ws⟩)
    (ht : run ⟨.plain, none, ws⟩ t = some ⟨.plain, some w, ws⟩) :
    words (s ++ t) = some (ws ++ [w]) := by
  unfold words
  rw [run_append, hs, Option.bind_some, ht]
  rfl

/-- A character that stands for itself, in a word and at its beginning. -/
def Ordinary (p : CodePoint) : Prop :=
  isOneOf " \t" p = false ∧ isOneOf "'\"\\$" p = false ∧ isOneOf special p = false ∧
    isOneOf "#~" p = false

theorem isOneOf_self {c : Char} {text : String} (h : c ∈ text.toList) :
    isOneOf text (codePoint c) = true := by
  refine List.any_eq_true.mpr ⟨codePoint c, List.mem_map_of_mem h, decide_eq_true rfl⟩

theorem ne_of_isOneOf {text : String} {p : CodePoint} (h : isOneOf text p = false) {c : Char}
    (hc : c ∈ text.toList) : p ≠ codePoint c := by
  rintro rfl
  rw [isOneOf_self hc] at h
  cases h

theorem step_ordinary {p : CodePoint} (hp : Ordinary p) (current : Option Word) (ws : List Word) :
    step ⟨.plain, current, ws⟩ p = some ⟨.plain, some (current.getD [] ++ [.char p]), ws⟩ := by
  obtain ⟨hblank, hquote, hspecial, hstart⟩ := hp
  have hne {c : Char} (hc : c ∈ "'\"\\$".toList) : p ≠ codePoint c := ne_of_isOneOf hquote hc
  unfold step
  dsimp only
  rw [hblank, if_neg Bool.false_ne_true, if_neg (hne (by simp)), if_neg (hne (by simp)),
    if_neg (hne (by simp)), if_neg (hne (by simp)), hspecial, if_neg Bool.false_ne_true, hstart,
    Bool.and_false, if_neg Bool.false_ne_true]
  rfl

/-- Ordinary characters go into the word. -/
theorem run_ordinary {s : PyStr} (hs : ∀ p ∈ s, Ordinary p) (w : Word) (ws : List Word) :
    run ⟨.plain, some w, ws⟩ s = some ⟨.plain, some (w ++ literal s), ws⟩ := by
  induction s generalizing w with
  | nil =>
    rw [literal, List.map_nil, List.append_nil]
    rfl
  | cons p s ih =>
    rw [List.forall_mem_cons] at hs
    rw [run_cons, step_ordinary hs.1, Option.bind_some, Option.getD_some, ih hs.2,
      List.append_assoc]
    rfl

end Lib.Shell
