import PolyGate.Lib.JsonDumps

/-!
# `Lib/JsonEncode.lean` — which values can be sent as JSON

A body is written with `allow_nan=False` and encoded as UTF-8: a number that is not finite raises
`ValueError`, a surrogate raises `UnicodeEncodeError`. `renderJson_iff` says that nothing else
does.
-/

namespace Lib

mutual

/-- No number that JSON does not have. -/
def finite : Json → Bool
  | .float (.inf _) | .float .nan => false
  | .arr elems => finiteElems elems
  | .obj fields => finiteFields fields
  | _ => true

def finiteElems : List Json → Bool
  | [] => true
  | v :: elems => finite v && finiteElems elems

def finiteFields : List (PyStr × Json) → Bool
  | [] => true
  | (_, v) :: fields => finite v && finiteFields fields

end

inductive EncodeExc | valueError | unicodeEncodeError
  deriving DecidableEq

/-- `text.encode("utf-8")` -/
def encodeText (text : PyStr) : Except EncodeExc ByteArray :=
  match encodeUtf8 text with
  | some bytes => .ok bytes
  | none => .error .unicodeEncodeError

/-- `json.dumps(v, ensure_ascii=False, allow_nan=False, separators=(",", ":")).encode("utf-8")` -/
def renderJson (v : Json) : Except EncodeExc ByteArray :=
  if finite v then encodeText (dumpsSep (str ",") (str ":") v) else .error .valueError

mutual

/-- Only finite numbers, and no surrogates. -/
def Sendable : Json → Prop
  | .float (.inf _) | .float .nan => False
  | .str s => SurrogateFree s
  | .arr elems => SendableElems elems
  | .obj fields => SendableFields fields
  | _ => True

def SendableElems : List Json → Prop
  | [] => True
  | v :: elems => Sendable v ∧ SendableElems elems

def SendableFields : List (PyStr × Json) → Prop
  | [] => True
  | (k, v) :: fields => SurrogateFree k ∧ Sendable v ∧ SendableFields fields

end

theorem sendableElems_iff {elems : List Json} :
    SendableElems elems ↔ ∀ v ∈ elems, Sendable v := by
  induction elems with
  | nil => simp [SendableElems]
  | cons v elems ih => simp [SendableElems, ih]

theorem sendableFields_iff {fields : List (PyStr × Json)} :
    SendableFields fields ↔ ∀ kv ∈ fields, SurrogateFree kv.1 ∧ Sendable kv.2 := by
  induction fields with
  | nil => simp [SendableFields]
  | cons kv fields ih => simp [SendableFields, ih, and_assoc]

/-! ## What is written -/

section Text
variable {item key : PyStr}

theorem dumpsFloat_surrogateFree (x : PyFloat) : SurrogateFree (dumpsFloat x) := by
  cases x with
  | finite neg m => exact surrogateFree_map _
  | inf neg => cases neg <;> exact surrogateFree_str _
  | nan => exact surrogateFree_str _

theorem codePoint_valid (c : Char) : (codePoint c).val.isValidChar := c.valid

mutual

/-- A written value holds the surrogates that the value holds. -/
theorem sendable_iff (hitem : SurrogateFree item) (hkey : SurrogateFree key) : ∀ v : Json,
    Sendable v ↔ finite v = true ∧ SurrogateFree (dumpsSep item key v)
  | .null => by simp [Sendable, finite, dumpsSep]
  | .bool b => by cases b <;> simp [Sendable, finite, dumpsSep]
  | .int n => by simp [Sendable, finite, dumpsSep]
  | .float (.finite _ _) => by simp [Sendable, finite, dumpsSep, dumpsFloat_surrogateFree]
  | .float (.inf _) | .float .nan => by simp [Sendable, finite]
  | .str s => by simp [Sendable, finite, dumpsSep, quote_surrogateFree]
  | .arr [] => by simp [Sendable, SendableElems, finite, finiteElems, dumpsSep]
  | .arr (v :: elems) => by
    rw [Sendable, SendableElems, sendable_iff hitem hkey v, sendableElems_text hitem hkey elems,
      finite, finiteElems, dumpsSep, List.cons_append, surrogateFree_cons, surrogateFree_append,
      and_iff_right (codePoint_valid '['), Bool.and_eq_true]
    exact and_and_and_comm
  | .obj [] => by simp [Sendable, SendableFields, finite, finiteFields, dumpsSep]
  | .obj ((k, v) :: fields) => by
    rw [Sendable, SendableFields, sendable_iff hitem hkey v,
      sendableFields_text hitem hkey fields, finite, finiteFields, dumpsSep]
    simp only [List.cons_append, surrogateFree_cons, surrogateFree_append, quote_surrogateFree,
      Bool.and_eq_true, codePoint_valid '\x7b']
    tauto

theorem sendableElems_text (hitem : SurrogateFree item) (hkey : SurrogateFree key) :
    ∀ elems : List Json, SendableElems elems ↔
      finiteElems elems = true ∧ SurrogateFree (elemsSep item key elems)
  | [] => by
    simp [SendableElems, finiteElems, elemsSep, SurrogateFree,
      codePoint_valid ']']
  | v :: elems => by
    rw [SendableElems, sendable_iff hitem hkey v, sendableElems_text hitem hkey elems,
      finiteElems, elemsSep]
    simp only [surrogateFree_append, Bool.and_eq_true]
    tauto

theorem sendableFields_text (hitem : SurrogateFree item) (hkey : SurrogateFree key) :
    ∀ fields : List (PyStr × Json), SendableFields fields ↔
      finiteFields fields = true ∧ SurrogateFree (fieldsSep item key fields)
  | [] => by
    simp [SendableFields, finiteFields, fieldsSep, SurrogateFree,
      codePoint_valid '\x7d']
  | (k, v) :: fields => by
    rw [SendableFields, sendable_iff hitem hkey v, sendableFields_text hitem hkey fields,
      finiteFields, fieldsSep]
    simp only [surrogateFree_append, quote_surrogateFree, Bool.and_eq_true]
    tauto

end

theorem encodeText_iff {text : PyStr} :
    (∃ bytes, encodeText text = .ok bytes) ↔ SurrogateFree text := by
  rw [← encodeUtf8_isSome]
  unfold encodeText
  cases encodeUtf8 text <;> simp

/-- **What can be sent.** -/
theorem renderJson_iff {v : Json} : (∃ bytes, renderJson v = .ok bytes) ↔ Sendable v := by
  rw [sendable_iff (surrogateFree_str ",") (surrogateFree_str ":"), ← encodeText_iff]
  unfold renderJson
  cases finite v <;> simp

end Text

end Lib
