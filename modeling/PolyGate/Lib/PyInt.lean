import PolyGate.Lib.JsonText

/-!
# `Lib/PyInt.lean` — `int(x)` of what `json.loads` returns

A text is read as `int` reads it: white space around it, a sign, decimal digits of any script with
single underscores between them. A float is cut off towards zero.
-/

namespace Lib

inductive IntExc | typeError | valueError | overflowError
  deriving DecidableEq

/-- The zeros of the decimal digits; the nine other digits follow each. -/
def digitZeros : List Nat :=
  [0x30, 0x660, 0x6f0, 0x7c0, 0x966, 0x9e6, 0xa66, 0xae6, 0xb66, 0xbe6, 0xc66, 0xce6, 0xd66, 0xde6,
   0xe50, 0xed0, 0xf20, 0x1040, 0x1090, 0x17e0, 0x1810, 0x1946, 0x19d0, 0x1a80, 0x1a90, 0x1b50,
   0x1bb0, 0x1c40, 0x1c50, 0xa620, 0xa8d0, 0xa900, 0xa9d0, 0xa9f0, 0xaa50, 0xabf0, 0xff10, 0x104a0,
   0x10d30, 0x11066, 0x110f0, 0x11136, 0x111d0, 0x112f0, 0x11450, 0x114d0, 0x11650, 0x116c0,
   0x11730, 0x118e0, 0x11950, 0x11c50, 0x11d50, 0x11da0, 0x11f50, 0x16a60, 0x16ac0, 0x16b50,
   0x1d7ce, 0x1d7d8, 0x1d7e2, 0x1d7ec, 0x1d7f6, 0x1e140, 0x1e2f0, 0x1e4f0, 0x1e950, 0x1fbf0]

def decimalDigit? (p : CodePoint) : Option Nat :=
  (digitZeros.find? fun z => z ≤ p.val && p.val < z + 10).map (p.val - ·)

/-- The four separators of ASCII are white space for `str.strip`, not for `int`. -/
def isIntSpace (p : CodePoint) : Bool := isSpace p && !(0x1c ≤ p.val && p.val ≤ 0x1f)

/-- The digits, from left to right, with an underscore only between two of them. -/
def digitsOf (afterDigit : Bool) (digits : List Nat) : PyStr → Option (List Nat)
  | [] => if afterDigit then some digits else none
  | p :: s =>
    if p = codePoint '_' then if afterDigit then digitsOf false digits s else none
    else (decimalDigit? p).bind fun d => digitsOf true (digits ++ [d]) s

def unsignedOfText (s : PyStr) : Except IntExc Nat :=
  match digitsOf false [] s with
  | some digits =>
    if digits.length ≤ 4300 then .ok (digits.foldl (10 * · + ·) 0) else .error .valueError
  | none => .error .valueError

def intOfText (s : PyStr) : Except IntExc Int :=
  match (s.dropWhile isIntSpace).rdropWhile isIntSpace with
  | [] => .error .valueError
  | p :: s =>
    if p = codePoint '-' then (unsignedOfText s).map fun n => -(n : Int)
    else if p = codePoint '+' then (unsignedOfText s).map Int.ofNat
    else (unsignedOfText (p :: s)).map Int.ofNat

namespace Json

/-- `int(x)` -/
def toInt : Json → Except IntExc Int
  | .int n => .ok n
  | .bool b => .ok (if b then 1 else 0)
  | .float (.finite neg q) =>
    let whole : Int := (PyFloat.double q).num / (PyFloat.double q).den
    .ok (if neg then -whole else whole)
  | .float (.inf _) => .error .overflowError
  | .float .nan => .error .valueError
  | .str s => intOfText s
  | .null | .arr _ | .obj _ => .error .typeError

end Json

example : Json.toInt (.str (str " -1_0\n")) = .ok (-10) := by decide
example : Json.toInt (.float (.finite true (5 / 2))) = .ok (-2) := by decide +kernel

end Lib
