import PolyGate.Lib.PyStr
import PolyGate.Lib.ReadFloat

/-!
# `Lib/JsonText.lean` — reading JSON: `json.loads` and `JSON.parse`

Both read the same grammar, but for what `Dialect` tells apart: Python also takes `NaN`,
`Infinity` and `-Infinity`, and does not convert an integer of more than 4300 digits. The reader
takes what is left to read and says what is left after it; the fuel is twice the
length of the text, more than the reader can use up.

`value_dumpsSep`: what is written is read back, and the reading stops where the writing did.
-/

namespace Lib

/-- What tells the readers of JSON apart. -/
structure Dialect where
  constants : Bool
  maxDigits : Option Nat

/-- `json.loads` -/
def pythonJson : Dialect := ⟨true, some 4300⟩

/-- `JSON.parse`; its numbers are doubles, which the values here do not say. -/
def ecmaJson : Dialect := ⟨false, none⟩

/-- A `JSONDecodeError`, or the other `ValueError`: an integer has too many digits. -/
inductive LoadExc | jsonDecodeError | valueError
  deriving DecidableEq

/-! ## Strings -/

/-- Where the reader of a string literal is: at a character, after a backslash, or after `\u` and
these digits. -/
inductive Scan
  | char
  | escaped
  | hex (digits : List Nat)

def isHigh (p : CodePoint) : Bool := 0xd800 ≤ p.val && p.val < 0xdc00

def isLow (p : CodePoint) : Bool := 0xdc00 ≤ p.val && p.val < 0xe000

/-- The code point of a surrogate pair. -/
def joinPair (high low : CodePoint) : CodePoint :=
  Fin.ofNat 0x110000 (0x10000 + 0x400 * (high.val - 0xd800) + (low.val - 0xdc00))

def hexValue? (p : CodePoint) : Option Nat :=
  if 0x30 ≤ p.val ∧ p.val ≤ 0x39 then some (p.val - 0x30)
  else if 0x61 ≤ p.val ∧ p.val ≤ 0x66 then some (p.val - 0x57)
  else if 0x41 ≤ p.val ∧ p.val ≤ 0x46 then some (p.val - 0x37)
  else none

/-- What a backslash and one character say. -/
def simpleEscape (p : CodePoint) : Option CodePoint :=
  match p.val with
  | 0x22 => some (codePoint '"')
  | 0x5c => some (codePoint '\\')
  | 0x2f => some (codePoint '/')
  | 0x62 => some (Fin.ofNat _ 0x08)
  | 0x66 => some (Fin.ofNat _ 0x0c)
  | 0x6e => some (Fin.ofNat _ 0x0a)
  | 0x72 => some (Fin.ofNat _ 0x0d)
  | 0x74 => some (Fin.ofNat _ 0x09)
  | _ => none

def unitOf (digits : List Nat) : CodePoint := Fin.ofNat 0x110000 (digits.foldl (16 * · + ·) 0)

/-- Add the code point of a `\u`; right after a high one, a low surrogate completes the pair. -/
def pushUnit (high : Option CodePoint) (read : PyStr) (p : CodePoint) : PyStr :=
  match high with
  | some h => if isLow p then read.dropLast ++ [joinPair h p] else read ++ [p]
  | none => read ++ [p]

/-- The rest of a string literal. `high` is the high surrogate that `\u` has just said. -/
def scanString : Scan → Option CodePoint → PyStr → PyStr →
    Except LoadExc (PyStr × PyStr)
  | _, _, _, [] => .error .jsonDecodeError
  | .char, high, read, p :: s =>
    if p = codePoint '"' then .ok (read, s)
    else if p = codePoint '\\' then scanString .escaped high read s
    else if p.val < 0x20 then .error .jsonDecodeError
    else scanString .char none (read ++ [p]) s
  | .escaped, high, read, p :: s =>
    if p = codePoint 'u' then scanString (.hex []) high read s
    else match simpleEscape p with
      | some q => scanString .char none (read ++ [q]) s
      | none => .error .jsonDecodeError
  | .hex digits, high, read, p :: s =>
    match hexValue? p with
    | none => .error .jsonDecodeError
    | some d =>
      if digits.length < 3 then scanString (.hex (digits ++ [d])) high read s
      else
        let q := unitOf (digits ++ [d])
        let joined := high.isSome && isLow q
        scanString .char (if isHigh q && !joined then some q else none) (pushUnit high read q) s

/-! ## Numbers -/

/-- How far a number has been read. -/
inductive NumberState
  | start
  | minus
  | zero
  | whole
  | point
  | places
  | e
  | sign
  | exponent
  deriving DecidableEq

def NumberState.next : NumberState → Char → Option NumberState
  | .start, c => if c = '-' then some .minus else first c
  | .minus, c => first c
  | .zero, c => fraction c
  | .whole, c => if c.isDigit then some .whole else fraction c
  | .point, c => if c.isDigit then some .places else none
  | .places, c =>
    if c.isDigit then some .places else if c = 'e' ∨ c = 'E' then some .e else none
  | .e, c => if c = '+' ∨ c = '-' then some .sign else if c.isDigit then some .exponent else none
  | .sign, c | .exponent, c => if c.isDigit then some .exponent else none
where
  first (c : Char) : Option NumberState :=
    if c = '0' then some .zero else if c.isDigit then some .whole else none
  fraction (c : Char) : Option NumberState :=
    if c = '.' then some .point else if c = 'e' ∨ c = 'E' then some .e else none

/-- What a complete number is: an `int` when it has neither a point nor an exponent. -/
inductive NumberKind | int | float

def NumberState.kind : NumberState → Option NumberKind
  | .zero | .whole => some .int
  | .places | .exponent => some .float
  | _ => none

def scanNumber (state : NumberState) : List Char → Option NumberState
  | [] => some state
  | c :: text => (state.next c).bind (scanNumber · text)

def numberKind (text : List Char) : Option NumberKind :=
  (scanNumber .start text).bind NumberState.kind

/-- The exponent with its sign, and a small `e`. -/
def withSign (text : List Char) : List Char :=
  let text := text.map fun c => if c = 'E' then 'e' else c
  match after 'e' text with
  | c :: ds => if c.isDigit then before 'e' text ++ 'e' :: '+' :: c :: ds else text
  | [] => text

def readFloat : List Char → PyFloat
  | '-' :: text => .ofDecimal true (PyFloat.readMagnitude (withSign text))
  | text => .ofDecimal false (PyFloat.readMagnitude (withSign text))

def isNumberChar (p : CodePoint) : Bool :=
  (0x30 ≤ p.val && p.val ≤ 0x39) || [0x2b, 0x2d, 0x2e, 0x45, 0x65].contains p.val

def chars (s : PyStr) : List Char := s.map fun p => Char.ofNat p.val

def digitCount (text : List Char) : Nat := text.countP Char.isDigit

def number (d : Dialect) (s : PyStr) : Except LoadExc (Json × PyStr) :=
  let text := chars (s.takeWhile isNumberChar)
  match numberKind text with
  | none => .error .jsonDecodeError
  | some .int =>
    if d.maxDigits.all (digitCount text ≤ ·) then
      .ok (.int (readInt text), s.dropWhile isNumberChar)
    else .error .valueError
  | some .float => .ok (.float (readFloat text), s.dropWhile isNumberChar)

/-! ## Values -/

def isJsonSpace (p : CodePoint) : Bool := [0x20, 0x09, 0x0a, 0x0d].contains p.val

def skipSpace (s : PyStr) : PyStr := s.dropWhile isJsonSpace

/-- The values that are written as a word. -/
def words (d : Dialect) : List (PyStr × Json) :=
  [(str "null", .null), (str "true", .bool true), (str "false", .bool false)] ++
    if d.constants then
      [(str "NaN", .float .nan), (str "Infinity", .float (.inf false)),
        (str "-Infinity", .float (.inf true))]
    else []

def word (d : Dialect) (s : PyStr) : Option (Json × PyStr) :=
  ((words d).find? fun w => w.1.isPrefixOf s).map fun w => (w.2, s.drop w.1.length)

/-- `items[key] = v` -/
def setItem (items : Obj) (key : PyStr) (v : Json) : Obj :=
  if items.any (·.1 = key) then items.map fun kv => if kv.1 = key then (key, v) else kv
  else items ++ [(key, v)]

/-- The `dict` of the members of an object: the last of a repeated key counts. -/
def dictOf (members : List (PyStr × Json)) : Obj :=
  members.foldl (fun items kv => setItem items kv.1 kv.2) []

mutual

def value (d : Dialect) : Nat → PyStr → Except LoadExc (Json × PyStr)
  | 0, _ => .error .jsonDecodeError
  | fuel + 1, s => match word d s with
    | some r => .ok r
    | none => match s with
      | [] => .error .jsonDecodeError
      | p :: s' =>
        if p = codePoint '"' then do
          let (text, r) ← scanString .char none [] s'
          return (.str text, r)
        else if p = codePoint '[' then
          if (skipSpace s').head? = some (codePoint ']') then .ok (.arr [], (skipSpace s').tail)
          else do
            let (vs, r) ← elements d fuel (skipSpace s')
            return (.arr vs, r)
        else if p = codePoint '\x7b' then
          if (skipSpace s').head? = some (codePoint '\x7d') then .ok (.obj [], (skipSpace s').tail)
          else do
            let (kvs, r) ← members d fuel (skipSpace s')
            return (.obj (dictOf kvs), r)
        else number d s

/-- The elements of an array, from one on, and its bracket. -/
def elements (d : Dialect) : Nat → PyStr → Except LoadExc (List Json × PyStr)
  | 0, _ => .error .jsonDecodeError
  | fuel + 1, s => do
    let (v, r) ← value d fuel s
    match skipSpace r with
    | p :: r' =>
      if p = codePoint ']' then return ([v], r')
      else if p = codePoint ',' then do
        let (vs, r'') ← elements d fuel (skipSpace r')
        return (v :: vs, r'')
      else .error .jsonDecodeError
    | [] => .error .jsonDecodeError

/-- The members of an object, from one on, and its brace. -/
def members (d : Dialect) : Nat → PyStr → Except LoadExc (List (PyStr × Json) × PyStr)
  | 0, _ => .error .jsonDecodeError
  | fuel + 1, s =>
    if s.head? ≠ some (codePoint '"') then .error .jsonDecodeError
    else do
      let (key, r) ← scanString .char none [] s.tail
      if (skipSpace r).head? ≠ some (codePoint ':') then .error .jsonDecodeError
      else do
        let (v, r) ← value d fuel (skipSpace (skipSpace r).tail)
        match skipSpace r with
        | p :: r' =>
          if p = codePoint '\x7d' then return ([(key, v)], r')
          else if p = codePoint ',' then do
            let (kvs, r'') ← members d fuel (skipSpace r')
            return ((key, v) :: kvs, r'')
          else .error .jsonDecodeError
        | [] => .error .jsonDecodeError

end

/-- Without fuel nothing is read. -/
example (d : Dialect) (s : PyStr) : value d 0 s = .error .jsonDecodeError ∧
    elements d 0 s = .error .jsonDecodeError ∧ members d 0 s = .error .jsonDecodeError := by
  rw [value, elements, members]
  exact ⟨rfl, rfl, rfl⟩

def parse (d : Dialect) (s : PyStr) : Except LoadExc Json := do
  let (v, r) ← value d (2 * s.length + 1) (skipSpace s)
  if skipSpace r = [] then return v else .error .jsonDecodeError

/-- `json.loads(s)` -/
def loads (s : PyStr) : Except LoadExc Json := parse pythonJson s

/-- `JSON.parse(s)`, with `none` for a `SyntaxError`. -/
def jsonParse (s : PyStr) : Option Json := (parse ecmaJson s).toOption

end Lib
