import Mathlib.Data.List.Lex
import Mathlib.Order.Fin.Basic
import PolyGate.Lib.JsonText

/-!
# `Lib/Ecma.lean` — the values of JavaScript, and `JSON.stringify`

A number is a double. A string is written here by its code points, a surrogate that has no partner
included. The fields of an object are its own, as `Object.keys` lists them.

`numberText_inj`: the text of a number says which number it is.
-/

namespace Lib.Ecma

inductive Value
  | undefined
  | null
  | bool (b : Bool)
  | number (x : PyFloat)
  | string (s : PyStr)
  | array (elems : List Value)
  | object (fields : List (PyStr × Value))

abbrev Fields := List (PyStr × Value)

/-- `object[key]` -/
def get (fields : Fields) (key : PyStr) : Value := (fields.lookup key).getD .undefined

theorem sizeOf_get (fields : Fields) (key : PyStr) :
    sizeOf (get fields key) < sizeOf (Value.object fields) := by
  unfold get
  induction fields with
  | nil => simp
  | cons e fields ih =>
    obtain ⟨k, v⟩ := e
    rw [List.lookup_cons]
    split
    · simp only [Option.getD_some, Value.object.sizeOf_spec, List.cons.sizeOf_spec,
        Prod.mk.sizeOf_spec]
      omega
    · simp only [Value.object.sizeOf_spec, List.cons.sizeOf_spec] at ih ⊢
      omega

/-- The double nearest to an integer; up to `2 ^ 53` it is the integer. -/
def ofInt (n : Int) : PyFloat :=
  if n.natAbs ≤ 2 ^ 53 then .ofRat n else .ofDecimal (decide (n < 0)) n.natAbs

mutual

/-- What `JSON.parse` makes of the text of a value. -/
def Value.ofJson : Json → Value
  | .null => .null
  | .bool b => .bool b
  | .int n => .number (ofInt n)
  | .float x => .number x
  | .str s => .string s
  | .arr elems => .array (elemsOfJson elems)
  | .obj fields => .object (fieldsOfJson fields)

def elemsOfJson : List Json → List Value
  | [] => []
  | v :: elems => Value.ofJson v :: elemsOfJson elems

def fieldsOfJson : List (PyStr × Json) → Fields
  | [] => []
  | (k, v) :: fields => (k, Value.ofJson v) :: fieldsOfJson fields

end

theorem fieldsOfJson_eq (fields : Obj) :
    fieldsOfJson fields = fields.map fun kv => (kv.1, Value.ofJson kv.2) := by
  induction fields with
  | nil => rfl
  | cons kv fields ih => rw [fieldsOfJson, ih, List.map_cons]

theorem keys_fieldsOfJson (fields : Obj) : (fieldsOfJson fields).map (·.1) = fields.map (·.1) := by
  rw [fieldsOfJson_eq, List.map_map]
  rfl

theorem get_fieldsOfJson {fields : Obj} {key : PyStr} {v : Json} (h : fields.lookup key = some v) :
    get (fieldsOfJson fields) key = .ofJson v := by
  unfold get
  induction fields with
  | nil => cases h
  | cons kv fields ih =>
    obtain ⟨k, w⟩ := kv
    rw [fieldsOfJson, List.lookup_cons]
    rw [List.lookup_cons] at h
    cases hkey : key == k with
    | true =>
      rw [hkey] at h
      rw [← Option.some.inj h]
      rfl
    | false =>
      rw [hkey] at h
      exact ih h

/-! ## Operators -/

/-- `Boolean(value)` -/
def Value.truthy : Value → Bool
  | .undefined | .null => false
  | .bool b => b
  | .number (.finite _ m) => m ≠ 0
  | .number (.inf _) => true
  | .number .nan => false
  | .string s => s ≠ []
  | .array _ | .object _ => true

/-- `value === value'`, of two values that share no object. -/
def strictEq : Value → Value → Bool
  | .undefined, .undefined | .null, .null => true
  | .bool b, .bool b' => b = b'
  | .number x, .number x' => x.eq x'
  | .string s, .string s' => s = s'
  | _, _ => false

/-- `value?.[key]`, for a key that no prototype has. -/
def Value.property (value : Value) (key : String) : Value :=
  match value with
  | .object fields => get fields (str key)
  | _ => .undefined

/-- `value[key]`; `none` is a `TypeError`. -/
def Value.member (value : Value) (key : String) : Option Value :=
  match value with
  | .undefined | .null => none
  | _ => some (value.property key)

/-- `object[key] = value` -/
def assign (fields : Fields) (key : PyStr) (value : Value) : Fields :=
  if key ∈ fields.map (·.1) then fields.map fun kv => if kv.1 = key then (key, value) else kv
  else fields ++ [(key, value)]

/-! ## Sets and the order of strings -/

/-- `[...new Set(keys)]` -/
def newSet (keys : List PyStr) : List PyStr :=
  keys.foldl (fun set key => if key ∈ set then set else set ++ [key]) []

/-- What is in a set already is not added again. -/
theorem newSet_append_self {keys : List PyStr} (h : keys.Nodup) : newSet (keys ++ keys) = keys := by
  have hnew : ∀ rest set : List PyStr, (set ++ rest).Nodup →
      rest.foldl (fun set key => if key ∈ set then set else set ++ [key]) set = set ++ rest := by
    intro rest
    induction rest with
    | nil =>
      intro set _
      exact (List.append_nil set).symm
    | cons key rest ih =>
      intro set hset
      have hkey : key ∉ set := fun hmem =>
        (List.nodup_append.mp hset).2.2 key hmem key List.mem_cons_self rfl
      rw [List.append_cons] at hset
      rw [List.foldl_cons, if_neg hkey, ih _ hset, ← List.append_cons]
  have hold : ∀ rest : List PyStr, (∀ key ∈ rest, key ∈ keys) →
      rest.foldl (fun set key => if key ∈ set then set else set ++ [key]) keys = keys := by
    intro rest hrest
    induction rest with
    | nil => rfl
    | cons key rest ih =>
      rw [List.forall_mem_cons] at hrest
      rw [List.foldl_cons, if_pos hrest.1]
      exact ih hrest.2
  unfold newSet
  rw [List.foldl_append, hnew keys [] h]
  exact hold keys fun _ => id

/-- The code units of a string. -/
def utf16 (s : PyStr) : List Nat :=
  s.flatMap fun p =>
    if p.val < 0x10000 then [p.val]
    else [0xd800 + (p.val - 0x10000) / 0x400, 0xdc00 + (p.val - 0x10000) % 0x400]

/-- `strings.sort()` -/
def sort (strings : List PyStr) : List PyStr :=
  strings.mergeSort fun s t => decide (utf16 s ≤ utf16 t)

theorem utf16_ascii {s : PyStr} (h : ∀ p ∈ s, p.val < 0x80) : utf16 s = s.map (·.val) := by
  unfold utf16
  induction s with
  | nil => rfl
  | cons p s ih =>
    rw [List.forall_mem_cons] at h
    rw [List.flatMap_cons, if_pos (h.1.trans (by decide)), ih h.2]
    rfl

theorem map_val_lt_iff {s t : PyStr} : s.map (·.val) < t.map (·.val) ↔ s < t := by
  induction s generalizing t with
  | nil =>
    cases t with
    | nil => simp
    | cons q t => simp
  | cons p s ih =>
    cases t with
    | nil => simp
    | cons q t =>
      rw [List.map_cons, List.map_cons, List.cons_lt_cons_iff, List.cons_lt_cons_iff, ih,
        Fin.val_inj]
      rfl

/-- On ASCII the code units are in the order of the code points. -/
theorem utf16_le_iff {s t : PyStr} (hs : ∀ p ∈ s, p.val < 0x80) (ht : ∀ p ∈ t, p.val < 0x80) :
    utf16 s ≤ utf16 t ↔ s ≤ t := by
  rw [utf16_ascii hs, utf16_ascii ht, ← not_lt, ← not_lt]
  exact not_congr map_val_lt_iff

theorem sort_perm (strings : List PyStr) : (sort strings).Perm strings := List.mergeSort_perm _ _

theorem sort_pairwise (strings : List PyStr) :
    (sort strings).Pairwise fun s t => utf16 s ≤ utf16 t := by
  refine (List.pairwise_mergeSort ?_ ?_ strings).imp fun h => of_decide_eq_true h
  · intro a b c hab hbc
    exact decide_eq_true ((of_decide_eq_true hab).trans (of_decide_eq_true hbc))
  · intro a b
    simpa using le_total (utf16 a) (utf16 b)

/-! ## `Number::toString` -/

def scientific (ds : List Char) (exp : Int) : List Char :=
  let sig := ds.rdropWhile (· = '0')
  sig.take 1 ++ (if sig.tail = [] then [] else '.' :: sig.tail) ++
    'e' :: (if exp < 0 then '-' else '+') :: Nat.toDigits 10 exp.natAbs

/-- The text of a magnitude: `point` is where the decimal point stands in its digits. -/
def magnitudeText (q : ℚ≥0) : List Char :=
  match PyFloat.decimals q with
  | none => Nat.toDigits 10 q.num ++ '/' :: Nat.toDigits 10 q.den
  | some k =>
    let m := q.num * (10 ^ k / q.den)
    let ds := Nat.toDigits 10 m
    let point : Int := ds.length - k
    if -6 < point ∧ point ≤ 21 then
      if k = 0 then ds else PyFloat.fixed m k
    else scientific ds (point - 1)

/-- `String(x)` -/
def numberText : PyFloat → List Char
  | .finite neg m => if neg ∧ m ≠ 0 then '-' :: magnitudeText m else magnitudeText m
  | .inf neg => if neg then "-Infinity".toList else "Infinity".toList
  | .nan => "NaN".toList

/-- The ways a magnitude is written. -/
theorem magnitudeText_cases (q : ℚ≥0) :
    magnitudeText q = Nat.toDigits 10 q.num ++ '/' :: Nat.toDigits 10 q.den ∨
    ∃ m k : Nat, q = m / 10 ^ k ∧ (k = 0 ∧ magnitudeText q = Nat.toDigits 10 m ∨
      magnitudeText q = PyFloat.fixed m k ∨
      m ≠ 0 ∧ magnitudeText q =
        scientific (Nat.toDigits 10 m) ((Nat.toDigits 10 m).length - 1 - k)) := by
  unfold magnitudeText
  cases hk : PyFloat.decimals q with
  | none => exact Or.inl rfl
  | some k =>
    have hvalue := PyFloat.eq_of_decimals hk
    dsimp only
    generalize q.num * (10 ^ k / q.den) = m at hvalue ⊢
    refine Or.inr ⟨m, k, hvalue, ?_⟩
    split
    · split
      · exact Or.inl ⟨‹_›, rfl⟩
      · exact Or.inr (Or.inl rfl)
    · rename_i hpoint
      refine Or.inr (Or.inr ⟨fun hm => hpoint ?_, ?_⟩)
      · -- zero has its point after its one digit
        have hq : q = 0 := by rw [hvalue, hm, Nat.cast_zero, zero_div]
        subst hq
        have hzero : PyFloat.decimals 0 = some 0 := by decide
        have hk0 : k = 0 := (Option.some.inj (hzero.symm.trans hk)).symm
        rw [hm, hk0]
        decide
      · rw [sub_right_comm]

/-- **The text says which magnitude it is.** -/
theorem readMagnitude_text (q : ℚ≥0) : PyFloat.readMagnitude (magnitudeText q) = q := by
  rcases magnitudeText_cases q with h | ⟨m, k, hq, ⟨hk, h⟩ | h | ⟨hm, h⟩⟩
  · have hnum : '/' ∉ Nat.toDigits 10 q.num := (digits_toDigits _).notMem rfl
    rw [h, PyFloat.readMagnitude, if_pos (by simp), before_cut hnum, after_cut hnum,
      readDigits_toDigits, readDigits_toDigits]
    exact NNRat.num_div_den q
  · rw [h, PyFloat.readMagnitude_digits (digits_toDigits m), readDigits_toDigits, hq, hk, pow_zero,
      div_one]
  · rw [h, PyFloat.readMagnitude_fixed, ← hq]
  · rw [h]
    have hexp := readDigits_toDigits ((Nat.toDigits 10 m).length - 1 - k : Int).natAbs
    exact (PyFloat.readMagnitude_significant hm k rfl ⟨digits_toDigits _, hexp⟩).trans hq.symm

/-- A magnitude begins with a digit. -/
theorem magnitudeText_head (q : ℚ≥0) : ∃ x text, magnitudeText q = x :: text ∧ x ≠ '-' := by
  have hcons {ds : List Char} (hds : Digits ds) (hne : ds ≠ []) (text : List Char) :
      ∃ x rest, ds ++ text = x :: rest ∧ x ≠ '-' := by
    obtain ⟨x, rest, rfl⟩ := List.exists_cons_of_ne_nil hne
    refine ⟨x, rest ++ text, rfl, ?_⟩
    rintro rfl
    exact hds.notMem rfl List.mem_cons_self
  rcases magnitudeText_cases q with h | ⟨m, k, -, ⟨-, h⟩ | h | ⟨hm, h⟩⟩
  · rw [h]
    exact hcons (digits_toDigits _) Nat.toDigits_ne_nil _
  · rw [h, ← List.append_nil (Nat.toDigits 10 m)]
    exact hcons (digits_toDigits m) Nat.toDigits_ne_nil _
  · obtain ⟨whole, places, htext, hdigits, hne, -, -⟩ := PyFloat.fixed_eq m k
    rw [h, htext]
    exact hcons (digits_append.mp hdigits).1 hne _
  · obtain ⟨d, t, z, hdigits, hsig, -⟩ := PyFloat.sig_eq hm
    rw [h, scientific, hsig]
    exact hcons (digits_append.mp (show Digits ([d] ++ t) from hdigits)).1 (List.cons_ne_nil _ _) _

/-- The number that a text of `numberText` says. -/
def readNumber : List Char → ℚ
  | '-' :: text => -PyFloat.readMagnitude text
  | text => PyFloat.readMagnitude text

theorem readNumber_text (neg : Bool) (m : ℚ≥0) :
    readNumber (numberText (.finite neg m)) = PyFloat.value neg m := by
  obtain ⟨x, text, heq, hx⟩ := magnitudeText_head m
  have hread := readMagnitude_text m
  have hplain : readNumber (magnitudeText m) = m := by
    rw [heq] at hread ⊢
    unfold readNumber
    split
    · rename_i h
      exact absurd (List.cons.inj h).1 hx
    · rw [hread]
  unfold numberText PyFloat.value
  cases neg with
  | false => simpa using hplain
  | true =>
    by_cases hm : m = 0
    · subst hm
      simpa using hplain
    · dsimp only
      rw [if_pos ⟨rfl, hm⟩, readNumber, hread]
      rfl

/-- **The text says which number it is**; `0` and `-0` have one text. -/
theorem numberText_ofRat_inj {p q : ℚ} :
    numberText (.ofRat p) = numberText (.ofRat q) ↔ p = q := by
  refine ⟨fun h => ?_, fun h => h ▸ rfl⟩
  have hread := congrArg readNumber h
  unfold PyFloat.ofRat at hread
  rw [readNumber_text, readNumber_text, PyFloat.value_ofRat, PyFloat.value_ofRat] at hread
  exact hread

example : numberText (.ofRat (1 / 100)) = "0.01".toList := by decide +kernel
example : numberText (.ofRat 1500) = "1500".toList := by decide +kernel
example : numberText (.ofRat (10 ^ 21)) = "1e+21".toList := by decide +kernel
example : numberText (.ofRat (-125 / 10 ^ 9)) = "-1.25e-7".toList := by decide +kernel

/-! ## `JSON.stringify` -/

/-- A character inside a string literal; a surrogate without a partner is escaped. -/
def escape (p : CodePoint) : PyStr :=
  if isHigh p || isLow p then
    str "\\u" ++ [hexDigit (p.val / 0x1000), hexDigit (p.val / 0x100 % 16),
      hexDigit (p.val / 16 % 16), hexDigit (p.val % 16)]
  else Lib.escape p

def quote (s : PyStr) : PyStr := codePoint '"' :: s.flatMap escape ++ [codePoint '"']

def numberJson (x : PyFloat) : PyStr :=
  match x with
  | .finite _ _ => (numberText x).map codePoint
  | .inf _ | .nan => str "null"

mutual

/-- `JSON.stringify(value)`; `none` is `undefined`. -/
def stringify : Value → Option PyStr
  | .undefined => none
  | .null => some (str "null")
  | .bool b => some (if b then str "true" else str "false")
  | .number x => some (numberJson x)
  | .string s => some (quote s)
  | .array elems => some (str "[" ++ [codePoint ','].intercalate (stringifyElems elems) ++ str "]")
  | .object fields =>
    some (str "\x7b" ++ [codePoint ','].intercalate (stringifyFields fields) ++ str "\x7d")

/-- What is `undefined` in an array is written `null`. -/
def stringifyElems : List Value → List PyStr
  | [] => []
  | v :: elems => (stringify v).getD (str "null") :: stringifyElems elems

/-- What is `undefined` in an object is left out. -/
def stringifyFields : List (PyStr × Value) → List PyStr
  | [] => []
  | (k, v) :: fields => match stringify v with
    | some text => (quote k ++ str ":" ++ text) :: stringifyFields fields
    | none => stringifyFields fields

end

mutual

/-- `JSON.parse(JSON.stringify(value))`, of a value that is not `undefined`. -/
def throughJson : Value → Value
  | .undefined => .undefined
  | .null => .null
  | .bool b => .bool b
  | .number (.finite neg m) => .number (.finite (neg && decide (m ≠ 0)) m)
  | .number (.inf _) => .null
  | .number .nan => .null
  | .string s => .string s
  | .array elems => .array (elemsThroughJson elems)
  | .object fields => .object (fieldsThroughJson fields)

def elemsThroughJson : List Value → List Value
  | [] => []
  | .undefined :: elems => .null :: elemsThroughJson elems
  | v :: elems => throughJson v :: elemsThroughJson elems

def fieldsThroughJson : List (PyStr × Value) → Fields
  | [] => []
  | (_, .undefined) :: fields => fieldsThroughJson fields
  | (k, v) :: fields => (k, throughJson v) :: fieldsThroughJson fields

end

/-- Text without surrogates is written as Python writes it. -/
theorem quote_str (s : String) : quote (str s) = Lib.quote (str s) := by
  have hescape (c : Char) : escape (codePoint c) = Lib.escape (codePoint c) := by
    have hnot : (isHigh (codePoint c) || isLow (codePoint c)) = false := by
      have hvalid : c.toNat.isValidChar := c.valid
      unfold Nat.isValidChar at hvalid
      unfold isHigh isLow
      rw [Bool.or_eq_false_iff, ← Bool.decide_and, ← Bool.decide_and, decide_eq_false_iff_not,
        decide_eq_false_iff_not]
      show ¬ (0xd800 ≤ c.toNat ∧ c.toNat < 0xdc00) ∧ ¬ (0xdc00 ≤ c.toNat ∧ c.toNat < 0xe000)
      omega
    unfold escape
    rw [hnot]
    rfl
  unfold quote Lib.quote str
  simp only [List.flatMap_map, hescape]

theorem throughJson_ofRat (q : ℚ) : throughJson (.number (.ofRat q)) = .number (.ofRat q) := by
  unfold PyFloat.ofRat throughJson
  by_cases hq : q < 0
  · have hne : q.nnabs ≠ 0 := by
      intro hzero
      have hvalue := PyFloat.value_ofRat q
      rw [hzero] at hvalue
      simp [PyFloat.value] at hvalue
      exact hq.ne hvalue.symm
    simp [hq, hne]
  · simp [hq]

end Lib.Ecma
