import Mathlib.Data.String.Basic
import PolyGate.Lib.PyFloat

/-!
# `Lib/Json.lean` — JSON values as Python's `json.loads` returns them

A Python `str` is any sequence of code points: `json.loads` turns the escape `\ud800` into a
string with a lone surrogate, which no encoder takes. So text is `PyStr`, and `str` embeds
Lean's own strings, which have none.

`int` and `float` are kept apart, as Python keeps them; an object is the list of its items.
-/

namespace Lib

abbrev CodePoint := Fin 0x110000

abbrev PyStr := List CodePoint

instance instLawfulBEqPyStr : LawfulBEq PyStr := inferInstance

def codePoint (c : Char) : CodePoint :=
  ⟨c.toNat, by
    rcases c.valid with h | ⟨_, h⟩
    · exact lt_trans h (by decide)
    · exact h⟩

/-- A text without surrogates. -/
def str (s : String) : PyStr := s.toList.map codePoint

theorem codePoint_injective : Function.Injective codePoint := by
  intro c d h
  have hval : c.toNat = d.toNat := by simpa only [codePoint, Fin.mk.injEq] using h
  exact Char.ext (UInt32.toNat_inj.mp hval)

theorem str_injective : Function.Injective str := by
  intro s t h
  exact String.toList_injective (codePoint_injective.list_map h)

@[simp] theorem str_inj {s t : String} : str s = str t ↔ s = t := str_injective.eq_iff

/-- The character of a code point, if it has one; a surrogate has none. -/
def CodePoint.toChar? (p : CodePoint) : Option Char :=
  if h : p.val.isValidChar then some (Char.ofNatAux p.val h) else none

/-- The text of a Python string without surrogates. -/
def PyStr.decode (s : PyStr) : Option String := (s.mapM CodePoint.toChar?).map String.ofList

theorem toChar?_codePoint (c : Char) : (codePoint c).toChar? = some c := dif_pos c.valid

theorem decode_str (s : String) : PyStr.decode (str s) = some s := by
  have h : ∀ cs : List Char, (cs.map codePoint).mapM CodePoint.toChar? = some cs := by
    intro cs
    induction cs with
    | nil => rfl
    | cons c cs ih =>
      rw [List.map_cons, List.mapM_cons, toChar?_codePoint, ih]
      rfl
  unfold PyStr.decode str
  rw [h]
  simp

inductive Json
  | null
  | bool (b : Bool)
  | int (n : Int)
  | float (x : PyFloat)
  | str (s : PyStr)
  | arr (elems : List Json)
  | obj (fields : List (PyStr × Json))

/-- A `dict` with string keys, in insertion order. -/
abbrev Obj := List (PyStr × Json)

/-- `d.get(key)`, with `none` for an absent key. -/
def Obj.get? (d : Obj) (key : String) : Option Json := d.lookup (Lib.str key)

@[simp] theorem Obj.get?_nil (key : String) : Obj.get? [] key = none := rfl

@[simp] theorem Obj.get?_cons (k : String) (v : Json) (d : Obj) (key : String) :
    Obj.get? ((Lib.str k, v) :: d) key = if key = k then some v else Obj.get? d key := by
  unfold Obj.get?
  by_cases h : key = k
  · simp [h]
  · rw [if_neg h, List.lookup_cons, beq_eq_false_iff_ne.mpr (fun he => h (str_injective he))]

namespace Json

/-- `bool(x)` -/
def truthy : Json → Bool
  | .null => false
  | .bool b => b
  | .int n => n ≠ 0
  | .float x => match x with
    | .finite _ magnitude => magnitude ≠ 0
    | .inf _ | .nan => true
  | .str s => !s.isEmpty
  | .arr elems => !elems.isEmpty
  | .obj fields => !fields.isEmpty

/-- `x is None` -/
def isNone : Json → Bool
  | .null => true
  | _ => false

/-- `x is True` -/
def isTrue : Json → Bool
  | .bool b => b
  | _ => false

/-- `x == text` -/
def isText (text : String) : Json → Bool
  | .str s => s = Lib.str text
  | _ => false

/-- The number a value is, if it is one: `True == 1 == 1.0`. -/
def number : Json → Option PyFloat
  | .bool b => some (.ofRat (if b then 1 else 0))
  | .int n => some (.ofRat n)
  | .float x => some x
  | _ => none

mutual

/-- `x == y` -/
def eq : Json → Json → Bool
  | .null, .null => true
  | .str s, .str t => s = t
  | .arr xs, .arr ys => eqList xs ys
  | .obj d, .obj d' => d.length = d'.length && eqItems d d'
  | .bool b, y => eqNumber (.ofRat (if b then 1 else 0)) y
  | .int n, y => eqNumber (.ofRat n) y
  | .float x, y => eqNumber x y
  | _, _ => false
where
  eqNumber (x : PyFloat) (y : Json) : Bool :=
    match y.number with
    | some y => x.eq y
    | none => false

def eqList : List Json → List Json → Bool
  | [], [] => true
  | x :: xs, y :: ys => eq x y && eqList xs ys
  | _, _ => false

/-- Every item of the first is an item of the second. -/
def eqItems : List (PyStr × Json) → List (PyStr × Json) → Bool
  | [], _ => true
  | (k, x) :: d, d' => (match d'.lookup k with
    | some y => eq x y
    | none => false) && eqItems d d'

end

theorem eq_int (m n : Int) : (Json.int m).eq (.int n) = decide (m = n) := by
  show (PyFloat.ofRat m).eq (.ofRat n) = _
  rw [PyFloat.eq_ofRat]
  exact decide_eq_decide.mpr ⟨fun h => by exact_mod_cast h, fun h => by rw [h]⟩

theorem isText_iff {text : String} {v : Json} : v.isText text = true ↔ v = .str (Lib.str text) := by
  cases v <;> simp [isText]

theorem isTrue_iff {v : Json} : v.isTrue = true ↔ v = .bool true := by
  cases v <;> simp [isTrue]

end Json

end Lib
