import PolyGate.Lib.JsonDumps

/-!
# `Lib/PyLiteral.lean` — literals in Python source

What a display of a dictionary or a list evaluates to, with strings in double quotes, numbers and
the three words in it. What Python has besides (other prefixes and quotes, octal and named escapes,
numbers that JSON has not) is read as nothing.

Blank space and comments are skipped as they are between brackets. The fuel bounds how deep and how
long the displays are.
-/

namespace Lib.PyLiteral

/-! ## Strings -/

/-- Where the reader of a string is: at a character, after a backslash, or where so many more digits
of a code are to come. -/
inductive Scan
  | char
  | escaped
  | hex (left code : Nat)

/-- What a backslash and one character stand for. -/
def simpleEscape (p : CodePoint) : Option CodePoint :=
  match p.val with
  | 0x22 => some (codePoint '"')
  | 0x27 => some (codePoint '\'')
  | 0x5c => some (codePoint '\\')
  | 0x61 => some (codePoint (Char.ofNat 0x07))
  | 0x62 => some (codePoint (Char.ofNat 0x08))
  | 0x66 => some (codePoint (Char.ofNat 0x0c))
  | 0x6e => some (codePoint (Char.ofNat 0x0a))
  | 0x72 => some (codePoint (Char.ofNat 0x0d))
  | 0x74 => some (codePoint (Char.ofNat 0x09))
  | 0x76 => some (codePoint (Char.ofNat 0x0b))
  | _ => none

/-- How many digits `\x`, `\u` and `\U` have. -/
def codeDigits (p : CodePoint) : Option Nat :=
  match p.val with
  | 0x78 => some 2
  | 0x75 => some 4
  | 0x55 => some 8
  | _ => none

/-- Octal digits, and the `N` of a name. -/
def isOtherEscape (p : CodePoint) : Bool := 0x30 ≤ p.val && p.val ≤ 0x37 || p.val = 0x4e

/-- The rest of a string after its quote. -/
def scanString : Scan → PyStr → PyStr → Option (PyStr × PyStr)
  | _, _, [] => none
  | .char, read, p :: s =>
    if p = codePoint '"' then some (read, s)
    else if p = codePoint '\\' then scanString .escaped read s
    -- a string ends on its line, and there is no NUL in a source
    else if p.val = 0x0a ∨ p.val = 0x0d ∨ p.val = 0 then none
    else scanString .char (read ++ [p]) s
  | .escaped, read, p :: s =>
    if p.val = 0x0a then scanString .char read s
    else match codeDigits p with
      | some n => scanString (.hex n 0) read s
      | none => match simpleEscape p with
        | some q => scanString .char (read ++ [q]) s
        | none =>
          if isOtherEscape p ∨ p.val = 0x0d ∨ p.val = 0 then none
          else scanString .char (read ++ [codePoint '\\', p]) s
  | .hex left code, read, p :: s =>
    match hexValue? p with
    | none => none
    | some d =>
      if 1 < left then scanString (.hex (left - 1) (16 * code + d)) read s
      else if h : 16 * code + d < 0x110000 then scanString .char (read ++ [⟨16 * code + d, h⟩]) s
      else none

/-- Two more quotes would begin a string of several lines. -/
def string (s : PyStr) : Option (PyStr × PyStr) :=
  if (str "\"\"").isPrefixOf s then none else scanString .char [] s

/-- The two digits of a control character. -/
theorem scanString_control {n : Nat} (hn : n < 0x20) (h : n < 0x110000) (read r : PyStr) :
    scanString .char read (str "\\u00" ++ hexDigit (n / 16) :: hexDigit (n % 16) :: r) =
      scanString .char (read ++ [⟨n, h⟩]) r := by
  have hdigits : scanString .char read
      (str "\\u00" ++ hexDigit (n / 16) :: hexDigit (n % 16) :: r) =
      scanString (.hex 2 0) read (hexDigit (n / 16) :: hexDigit (n % 16) :: r) := rfl
  have hsum : 16 * (16 * 0 + n / 16) + n % 16 = n := by omega
  rw [hdigits, scanString, hexValue?_hexDigit _ (by omega)]
  show scanString (.hex 1 (16 * 0 + n / 16)) read (hexDigit (n % 16) :: r) = _
  rw [scanString, hexValue?_hexDigit _ (by omega)]
  dsimp only
  rw [if_neg (Nat.lt_irrefl 1), dif_pos (hsum.symm ▸ h)]
  simp only [hsum]

/-- What JSON escapes, Python reads as JSON does. -/
theorem scanString_escape (p : CodePoint) (read r : PyStr) :
    scanString .char read (escape p ++ r) = scanString .char (read ++ [p]) r := by
  obtain ⟨n, hn⟩ := p
  unfold escape
  split
  all_goals try
    rename_i h
    cases h
    rfl
  rename_i hquote hslash _ _ _ _ _
  split
  · rename_i hlow
    rw [List.append_assoc]
    exact scanString_control hlow hn read r
  · rename_i hlow
    have hq : (⟨n, hn⟩ : CodePoint) ≠ codePoint '"' := fun h => hquote (congrArg Fin.val h)
    have hs : (⟨n, hn⟩ : CodePoint) ≠ codePoint '\\' := fun h => hslash (congrArg Fin.val h)
    have hplain : ¬ (n = 0x0a ∨ n = 0x0d ∨ n = 0) := by
      have hle : 0x20 ≤ n := Nat.not_lt.mp hlow
      omega
    rw [List.singleton_append, scanString, if_neg hq, if_neg hs]
    exact if_neg hplain

theorem scanString_body (s read r : PyStr) :
    scanString .char read (s.flatMap escape ++ codePoint '"' :: r) = some (read ++ s, r) := by
  induction s generalizing read with
  | nil =>
    rw [List.append_nil]
    rfl
  | cons p s ih =>
    rw [List.flatMap_cons, List.append_assoc, scanString_escape, ih, List.append_assoc,
      List.singleton_append]

/-- **A string that JSON writes is the same string in Python**, unless a quote follows. -/
theorem string_quote (s : PyStr) {r : PyStr} (hr : r.head? ≠ some (codePoint '"')) :
    string ((quote s).tail ++ r) = some (s, r) := by
  have hbody : (quote s).tail ++ r = s.flatMap escape ++ codePoint '"' :: r := by
    simp [quote]
  have hnot : (str "\"\"").isPrefixOf (s.flatMap escape ++ codePoint '"' :: r) = false := by
    rw [Bool.eq_false_iff]
    intro hprefix
    obtain ⟨t, ht⟩ := List.isPrefixOf_iff_prefix.mp hprefix
    cases s with
    | nil =>
      obtain ⟨-, hrest⟩ := List.cons.inj ht
      exact hr (hrest ▸ rfl)
    | cons p s =>
      rw [List.flatMap_cons, List.append_assoc] at ht
      exact escape_ne_quote ht.symm
  unfold string
  rw [hbody, hnot, if_neg Bool.false_ne_true, scanString_body]
  rfl

/-! ## Other tokens -/

def isDigit (p : CodePoint) : Bool := 0x30 ≤ p.val && p.val ≤ 0x39

def isNameChar (p : CodePoint) : Bool :=
  isDigit p || 0x41 ≤ p.val && p.val ≤ 0x5a || 0x61 ≤ p.val && p.val ≤ 0x7a || p.val = 0x5f ||
    0x80 ≤ p.val

def name (s : PyStr) : Option (Json × PyStr) :=
  let values : List (PyStr × Json) :=
    [(str "None", .null), (str "True", .bool true), (str "False", .bool false)]
  (values.lookup (s.takeWhile isNameChar)).map fun v => (v, s.dropWhile isNameChar)

/-- A number that JSON has too, and nothing that would make it another one. -/
def number (s : PyStr) : Option (Json × PyStr) :=
  match Lib.number pythonJson s with
  | .ok (v, r) => if r.head?.any isNameChar then none else some (v, r)
  | .error _ => none

/-- Blank space and comments; `comment` says that one has begun. -/
def skip : (comment : Bool) → PyStr → PyStr
  | _, [] => []
  | true, p :: s => skip (p.val ≠ 0x0a && p.val ≠ 0x0d) s
  | false, p :: s =>
    if [0x20, 0x09, 0x0a, 0x0c, 0x0d].contains p.val then skip false s
    else if p = codePoint '#' then skip true s
    else p :: s

/-! ## Displays -/

mutual

def value : Nat → PyStr → Option (Json × PyStr)
  | 0, _ => none
  | _ + 1, [] => none
  | fuel + 1, p :: s =>
    if p = codePoint '"' then (string s).map fun r => (.str r.1, r.2)
    else if p = codePoint '[' then
      if (skip false s).head? = some (codePoint ']') then some (.arr [], (skip false s).tail)
      else (elements fuel (skip false s)).map fun r => (.arr r.1, r.2)
    else if p = codePoint '\x7b' then
      if (skip false s).head? = some (codePoint '\x7d') then some (.obj [], (skip false s).tail)
      else (items fuel (skip false s)).map fun r => (.obj (dictOf r.1), r.2)
    else if isDigit p || p = codePoint '-' then number (p :: s)
    else name (p :: s)

/-- The elements of a list, from one on, and its bracket. -/
def elements : Nat → PyStr → Option (List Json × PyStr)
  | 0, _ => none
  | fuel + 1, s => do
    let (v, r) ← value fuel s
    match skip false r with
    | [] => none
    | p :: r =>
      if p = codePoint ']' then some ([v], r)
      else if p = codePoint ',' then
        if (skip false r).head? = some (codePoint ']') then some ([v], (skip false r).tail)
        else (elements fuel (skip false r)).map fun rest => (v :: rest.1, rest.2)
      else none

/-- The items of a dictionary, from one on, and its brace. -/
def items : Nat → PyStr → Option (List (PyStr × Json) × PyStr)
  | 0, _ => none
  | fuel + 1, s => do
    let (.str key, r) ← value fuel s | none
    if (skip false r).head? ≠ some (codePoint ':') then none
    else do
      let (v, r) ← value fuel (skip false (skip false r).tail)
      match skip false r with
      | [] => none
      | p :: r =>
        if p = codePoint '\x7d' then some ([(key, v)], r)
        else if p = codePoint ',' then
          if (skip false r).head? = some (codePoint '\x7d') then
            some ([(key, v)], (skip false r).tail)
          else (items fuel (skip false r)).map fun rest => ((key, v) :: rest.1, rest.2)
        else none

end

/-! ## A script -/

/-- What follows `target` at the beginning of the first line that begins with it. -/
def afterTarget (target : PyStr) : (lineStart : Bool) → PyStr → Option PyStr
  | _, [] => none
  | lineStart, p :: s =>
    if lineStart && target.isPrefixOf (p :: s) then some ((p :: s).drop target.length)
    else afterTarget target (p.val = 0x0a) s

/-- The value that a script assigns to a name, of a literal that its line ends after. -/
def assigned (fuel : Nat) (target source : PyStr) : Option Json := do
  let rest ← afterTarget (target ++ str " = ") true source
  let (v, r) ← value fuel rest
  if r.head?.all fun p => p.val = 0x0a then some v else none

end Lib.PyLiteral
