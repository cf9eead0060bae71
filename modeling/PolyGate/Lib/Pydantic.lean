import PolyGate.Lib.Json

/-!
# `Lib/Pydantic.lean` — validating JSON values

The validators of pydantic that a model's fields are made of, lax and strict, as its conversion
table lists them. A validator returns what the field will hold, with the bounds it has checked.

Numeric strings are read by pydantic's own parsers, which are a parameter (`Coercions`).

A float fails `ge=lo` if it is below `lo` and `le=hi` if it is above `hi`. A `nan` is neither, and
passes both (`floatFrom`, `floatIn`). A model that keeps the number a float holds has no place for
it: `numberIn` refuses a `nan`, so what is said of such a model is said of finite numbers only.
-/

namespace Lib.Pydantic

/-- `none` is a `ValidationError`. -/
abbrev Validator (α : Type) := Json → Option α

/-- What lax mode reads from a string. -/
structure Coercions where
  intOfStr : PyStr → Option Int
  floatOfStr : PyStr → Option PyFloat

/-- No text is read as a number. -/
def Coercions.textless : Coercions := ⟨fun _ => none, fun _ => none⟩

/-! ## Numbers -/

/-- `int`, strict -/
def strictInt : Validator Int
  | .int n => some n
  | _ => none

/-- An integral float of 64 bits. -/
def intOfFloat : PyFloat → Option Int
  | .finite neg m =>
    let q := PyFloat.value neg m
    if q.den = 1 ∧ -2 ^ 63 < q.num ∧ q.num < 2 ^ 63 then some q.num else none
  | .inf _ | .nan => none

/-- `int`, lax -/
def laxInt (c : Coercions) : Validator Int
  | .int n => some n
  | .bool b => some (if b then 1 else 0)
  | .float x => intOfFloat x
  | .str s => c.intOfStr s
  | .null | .arr _ | .obj _ => none

/-- `float`, strict: an integer is taken too. -/
def strictFloat : Validator PyFloat
  | .float x => some x
  | .int n => some (.ofRat n)
  | _ => none

/-- `float`, lax -/
def laxFloat (c : Coercions) : Validator PyFloat
  | .float x => some x
  | .int n => some (.ofRat n)
  | .bool b => some (.ofRat (if b then 1 else 0))
  | .str s => c.floatOfStr s
  | .null | .arr _ | .obj _ => none

def trueTexts : List PyStr := ["1", "t", "true", "y", "yes", "on"].map str

def falseTexts : List PyStr := ["0", "f", "false", "n", "no", "off"].map str

/-- An ASCII letter in lower case. -/
def asciiLower (p : CodePoint) : CodePoint :=
  if h : 0x41 ≤ p.val ∧ p.val ≤ 0x5a then ⟨p.val + 0x20, by omega⟩ else p

/-- `bool`, lax -/
def laxBool : Validator Bool
  | .bool b => some b
  | .int n => if n = 0 then some false else if n = 1 then some true else none
  | .float x => if x.eq (.ofRat 0) then some false else if x.eq (.ofRat 1) then some true else none
  | .str s =>
    if s.map asciiLower ∈ trueTexts then some true
    else if s.map asciiLower ∈ falseTexts then some false
    else none
  | .null | .arr _ | .obj _ => none

/-- `Field(ge=lo)` of an `int` -/
def intFrom (int : Validator Int) (lo : Nat) : Validator {n : Nat // lo ≤ n} := fun v =>
  (int v).bind fun n => if h : (lo : Int) ≤ n then some ⟨n.toNat, by omega⟩ else none

/-- `Field(ge=lo, le=hi)` of an `int` -/
def intIn (int : Validator Int) (lo hi : Nat) : Validator {n : Nat // lo ≤ n ∧ n ≤ hi} := fun v =>
  (int v).bind fun n =>
    if h : (lo : Int) ≤ n ∧ n ≤ (hi : Int) then some ⟨n.toNat, by omega⟩ else none

/-- `Field(ge=lo)` of a `float` -/
def floatFrom (float : Validator PyFloat) (lo : ℚ) :
    Validator {x : PyFloat // x.below lo = false} := fun v =>
  (float v).bind fun x => if h : x.below lo = false then some ⟨x, h⟩ else none

/-- `Field(ge=lo, le=hi)` of a `float` -/
def floatIn (float : Validator PyFloat) (lo hi : ℚ) :
    Validator {x : PyFloat // x.below lo = false ∧ x.above hi = false} := fun v =>
  (float v).bind fun x =>
    if h : x.below lo = false ∧ x.above hi = false then some ⟨x, h⟩ else none

/-- The number of a float within its bounds. -/
def numberIn (float : Validator PyFloat) (lo hi : ℚ) : Validator {q : ℚ // lo ≤ q ∧ q ≤ hi} :=
  fun v => (floatIn float lo hi v).bind fun x => x.1.within lo hi

/-! ## Choices and models -/

/-- `Literal` of texts, with what each stands for. -/
def literal {α : Type} (choices : List (String × α)) : Validator α := fun v =>
  (choices.find? fun e => v.isText e.1).map (·.2)

/-- `Literal[n]` -/
def literalInt (n : Int) : Validator Unit
  | .int m => if m = n then some () else none
  | _ => none

/-- `str`; text with a surrogate in it is no JSON for pydantic. -/
def text : Validator String
  | .str s => PyStr.decode s
  | _ => none

/-- `… | None` -/
def nullable {α : Type} (validate : Validator α) : Validator (Option α)
  | .null => some none
  | v => (validate v).map some

/-- `list[…]` -/
def listOf {α : Type} (validate : Validator α) : Validator (List α)
  | .arr elems => elems.mapM validate
  | _ => none

/-- A model with these fields and `extra="forbid"`: an object with no other keys. -/
def model (fields : List String) : Validator Obj
  | .obj o => if ∀ e ∈ o, e.1 ∈ fields.map str then some o else none
  | _ => none

/-- A required field. -/
def required {α : Type} (o : Obj) (key : String) (validate : Validator α) : Option α :=
  (o.get? key).bind validate

/-- A field with a default, which is not validated. -/
def defaulted {α : Type} (o : Obj) (key : String) (default : α) (validate : Validator α) :
    Option α :=
  match o.get? key with
  | some v => validate v
  | none => some default

/-! ## What passes strictly passes laxly -/

/-- The second validator takes what the first takes, for the same. -/
def Extends {α : Type} (validate validate' : Validator α) : Prop :=
  ∀ v a, validate v = some a → validate' v = some a

theorem laxInt_extends (c : Coercions) : Extends strictInt (laxInt c) := by
  intro v n h
  cases v <;> first | exact h | cases h

theorem laxFloat_extends (c : Coercions) : Extends strictFloat (laxFloat c) := by
  intro v x h
  cases v <;> first | exact h | cases h

theorem Extends.bind {α β : Type} {validate validate' : Validator α}
    (h : Extends validate validate')
    (f : α → Option β) : Extends (fun v => (validate v).bind f) fun v => (validate' v).bind f := by
  intro v b hb
  obtain ⟨a, ha, hf⟩ := Option.bind_eq_some_iff.mp hb
  exact Option.bind_eq_some_iff.mpr ⟨a, h v a ha, hf⟩

theorem Extends.required {α : Type} {validate validate' : Validator α} {o : Obj} {key : String}
    {a : α} (h : Extends validate validate') (ha : required o key validate = some a) :
    required o key validate' = some a := by
  obtain ⟨v, hv, ha⟩ := Option.bind_eq_some_iff.mp ha
  exact Option.bind_eq_some_iff.mpr ⟨v, hv, h v a ha⟩

/-! ## Reading back -/

@[simp] theorem required_cons {α : Type} (k : String) (v : Json) (o : Obj) (key : String)
    (validate : Validator α) : required ((str k, v) :: o) key validate =
      if key = k then validate v else required o key validate := by
  unfold required
  rw [Obj.get?_cons]
  split <;> rfl

theorem intFrom_int {n lo : Nat} (h : lo ≤ n) : intFrom strictInt lo (.int n) = some ⟨n, h⟩ := by
  simp [intFrom, strictInt, h]

theorem intIn_int {n lo hi : Nat} (h : lo ≤ n ∧ n ≤ hi) :
    intIn strictInt lo hi (.int n) = some ⟨n, h⟩ := by
  simp [intIn, strictInt, h]

/-- A float that holds a number between the bounds passes them. -/
theorem numberIn_eq (float : Validator PyFloat) (lo hi : ℚ) :
    numberIn float lo hi = fun v => (float v).bind (·.within lo hi) := by
  funext v
  unfold numberIn floatIn
  cases float v with
  | none => rfl
  | some x =>
    rw [Option.bind_some, Option.bind_some]
    split
    · rfl
    · rename_i hout
      symm
      cases x with
      | finite neg m =>
        refine dif_neg fun h => hout ?_
        simpa [PyFloat.below, PyFloat.above] using h
      | inf _ | nan => rfl

theorem numberIn_float {q lo hi : ℚ} (h : lo ≤ q ∧ q ≤ hi) :
    numberIn strictFloat lo hi (.float (.ofRat q)) = some ⟨q, h⟩ := by
  rw [numberIn_eq]
  exact PyFloat.within_ofRat h

theorem text_str (s : String) : text (.str (str s)) = some s := decode_str s

theorem listOf_arr {α : Type} {validate : Validator α} {write : α → Json} {as : List α}
    (h : ∀ a ∈ as, validate (write a) = some a) :
    listOf validate (.arr (as.map write)) = some as := by
  show (as.map write).mapM validate = some as
  induction as with
  | nil => rfl
  | cons a as ih =>
    rw [List.map_cons, List.mapM_cons, h a List.mem_cons_self,
      ih fun b hb => h b (List.mem_cons_of_mem _ hb)]
    rfl

theorem model_obj {fields : List String} {o : Obj} (h : ∀ e ∈ o, e.1 ∈ fields.map str) :
    model fields (.obj o) = some o := if_pos h

theorem model_fields {fields : List String} {v : Json} {o : Obj} (h : model fields v = some o) :
    ∀ e ∈ o, e.1 ∈ fields.map str := by
  unfold model at h
  split at h
  · split at h
    · cases h
      assumption
    · cases h
  · cases h

theorem model_eq_some {fields : List String} {v : Json} {o : Obj} (h : model fields v = some o) :
    v = .obj o := by
  unfold model at h
  split at h
  · split at h
    · cases h
      rfl
    · cases h
  · cases h

end Lib.Pydantic
