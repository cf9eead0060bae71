import Mathlib.Data.List.Nodup
import PolyGate.Lib.Ecma

/-!
# `Lib/Zod.lean` — Zod's schemas over JavaScript values

A schema is what `safeParse` makes of a value, `none` where the value is refused. An object keeps
the fields its schema asks for and drops all others.

Beside each schema stands what it makes of a value that has been through `JSON`: there a field that
was `undefined` is absent, which `get` does not tell apart.
-/

namespace Lib.Zod

open Ecma

variable {α β : Type}

abbrev Schema (α : Type) := Value → Option α

/-- `z.string()` -/
def string : Schema PyStr
  | .string s => some s
  | _ => none

/-- `z.boolean()` -/
def boolean : Schema Bool
  | .bool b => some b
  | _ => none

/-- `z.number()`, which refuses what is not finite. -/
def number : Schema PyFloat
  | .number (.finite neg m) => some (.finite neg m)
  | _ => none

/-- A schema with one more check. -/
def check (schema : Schema α) (p : α → Bool) : Schema α := fun v => (schema v).filter p

/-- `.nonnegative()` -/
def nonnegative (schema : Schema PyFloat) : Schema PyFloat := check schema fun x => x.atLeast 0

/-- `.positive()` -/
def positive (schema : Schema PyFloat) : Schema PyFloat := check schema fun x => x.above 0

/-- `Number.isSafeInteger` -/
def isSafeInteger : PyFloat → Bool
  | .finite _ m => m.den = 1 ∧ m.num < 2 ^ 53
  | .inf _ | .nan => false

/-- `.int()` -/
def int (schema : Schema PyFloat) : Schema PyFloat := check schema isSafeInteger

/-- `.min(1)` -/
def nonempty (schema : Schema PyStr) : Schema PyStr := check schema fun s => s ≠ []

/-- `z.enum([...])`, and `z.literal` of a string. -/
def enum (choices : List (String × α)) : Schema α
  | .string s => (choices.find? fun c => s = str c.1).map (·.2)
  | _ => none

/-- `z.literal` of a number. -/
def literal (q : ℚ) : Schema Unit
  | .number x => if x.eq (.ofRat q) then some () else none
  | _ => none

/-- `.nullable()` -/
def nullable (schema : Schema α) : Schema (Option α)
  | .null => some none
  | v => (schema v).map some

/-- `.optional()` -/
def optional (schema : Schema α) : Schema (Option α)
  | .undefined => some none
  | v => (schema v).map some

/-- `.default(a)` -/
def default (schema : Schema α) (a : α) : Schema α
  | .undefined => some a
  | v => schema v

/-- `z.array(schema)` -/
def array (schema : Schema α) : Schema (List α)
  | .array elems => elems.mapM schema
  | _ => none

/-- `z.object({...})`, from what is made of the fields. -/
def object (read : Fields → Option α) : Schema α
  | .object fields => read fields
  | _ => none

/-- A field of the object. -/
def field (fields : Fields) (key : String) (schema : Schema α) : Option α :=
  schema (get fields (str key))

theorem optional_eq_some {schema : Schema α} {v : Value} {o : Option α}
    (h : optional schema v = some o) : ∀ a ∈ o, schema v = some a := by
  unfold optional at h
  split at h
  · obtain rfl := Option.some.inj h
    exact nofun
  · obtain ⟨b, hb, rfl⟩ := Option.map_eq_some_iff.mp h
    intro a ha
    rw [hb, ha]

theorem array_eq_some {schema : Schema α} {v : Value} {l : List α}
    (h : array schema v = some l) : ∀ a ∈ l, ∃ w, schema w = some a := by
  unfold array at h
  split at h
  · next elems =>
    induction elems generalizing l with
    | nil =>
      obtain rfl := Option.some.inj h
      exact nofun
    | cons w elems ih =>
      rw [List.mapM_cons] at h
      obtain ⟨b, hb, h⟩ := Option.bind_eq_some_iff.mp h
      obtain ⟨l', hl', h⟩ := Option.bind_eq_some_iff.mp h
      obtain rfl := Option.some.inj h
      exact List.forall_mem_cons.mpr ⟨⟨w, hb⟩, ih hl'⟩
  · cases h

/-! ## Objects that have been through JSON -/

/-- An object with the given fields. -/
def record (fields : List (String × Value)) : Value :=
  .object (fields.map fun kv => (str kv.1, kv.2))

theorem fieldsThroughJson_cons {k : PyStr} {v : Value} {fields : Fields} (h : v ≠ .undefined) :
    fieldsThroughJson ((k, v) :: fields) = (k, throughJson v) :: fieldsThroughJson fields := by
  cases v with
  | undefined => exact absurd rfl h
  | _ => rfl

theorem lookup_fieldsThroughJson {fields : Fields} {key : PyStr} (h : key ∉ fields.map (·.1)) :
    (fieldsThroughJson fields).lookup key = none := by
  induction fields with
  | nil => rfl
  | cons kv fields ih =>
    obtain ⟨k, v⟩ := kv
    rw [List.map_cons, List.mem_cons, not_or] at h
    have hk : (key == k) = false := beq_eq_false_iff_ne.mpr h.1
    rcases eq_or_ne v .undefined with rfl | hv
    · exact ih h.2
    · rw [fieldsThroughJson_cons hv, List.lookup_cons, hk]
      exact ih h.2

/-- A field of an object comes through as what its value comes through as. -/
theorem get_fieldsThroughJson {fields : Fields} (h : (fields.map (·.1)).Nodup) (key : PyStr) :
    get (fieldsThroughJson fields) key = throughJson (get fields key) := by
  induction fields with
  | nil => rfl
  | cons kv fields ih =>
    obtain ⟨k, v⟩ := kv
    rw [List.map_cons, List.nodup_cons] at h
    have ih := ih h.2
    unfold Ecma.get at ih ⊢
    rw [List.lookup_cons]
    cases hk : key == k with
    | true =>
      have hnot : (fieldsThroughJson fields).lookup key = none :=
        lookup_fieldsThroughJson (eq_of_beq hk ▸ h.1)
      rcases eq_or_ne v .undefined with rfl | hv
      · rw [fieldsThroughJson, hnot]
        rfl
      · rw [fieldsThroughJson_cons hv, List.lookup_cons, hk]
        rfl
    | false =>
      rcases eq_or_ne v .undefined with rfl | hv
      · exact ih
      · rw [fieldsThroughJson_cons hv, List.lookup_cons, hk]
        exact ih

theorem get_record (fields : List (String × Value)) (key : String) :
    get (fields.map fun kv => (str kv.1, kv.2)) (str key) =
      (fields.lookup key).getD .undefined := by
  unfold Ecma.get
  induction fields with
  | nil => rfl
  | cons kv fields ih =>
    obtain ⟨k, v⟩ := kv
    by_cases hk : key = k
    · simp [hk]
    · have hkey : (key == k) = false := beq_eq_false_iff_ne.mpr hk
      have hstr : (str key == str k) = false :=
        beq_eq_false_iff_ne.mpr fun he => hk (str_injective he)
      rw [List.map_cons, List.lookup_cons, List.lookup_cons, hkey, hstr]
      exact ih

/-- **What a schema reads in an object that has been through JSON.** -/
theorem field_throughJson {fields : List (String × Value)} (h : (fields.map (·.1)).Nodup)
    (key : String) (schema : Schema α) :
    field (fieldsThroughJson (fields.map fun kv => (str kv.1, kv.2))) key schema =
      schema (throughJson ((fields.lookup key).getD .undefined)) := by
  have hkeys : ((fields.map fun kv => (str kv.1, kv.2)).map (·.1)).Nodup := by
    have hmap : (fields.map fun kv => (str kv.1, kv.2)).map (·.1) =
        (fields.map (·.1)).map str := by
      rw [List.map_map, List.map_map]
      rfl
    rw [hmap]
    exact List.Nodup.map str_injective h
  rw [field, get_fieldsThroughJson hkeys, get_record]

theorem throughJson_record (fields : List (String × Value)) :
    throughJson (record fields) =
      .object (fieldsThroughJson (fields.map fun kv => (str kv.1, kv.2))) := rfl

/-! ## Arrays that have been through JSON -/

theorem elemsThroughJson_map {f : β → Value} (h : ∀ b, f b ≠ .undefined) (l : List β) :
    elemsThroughJson (l.map f) = l.map fun b => throughJson (f b) := by
  induction l with
  | nil => rfl
  | cons b l ih =>
    have hb := h b
    rw [List.map_cons, List.map_cons, ← ih]
    cases hf : f b with
    | undefined => exact absurd hf hb
    | _ => rfl

theorem mapM_of_forall {f : β → Option α} {p : β → Prop} [DecidablePred p] {g : β → α} {l : List β}
    (h : ∀ b ∈ l, f b = if p b then some (g b) else none) :
    l.mapM f = if ∀ b ∈ l, p b then some (l.map g) else none := by
  induction l with
  | nil => rfl
  | cons b l ih =>
    have ih := ih fun a ha => h a (List.mem_cons_of_mem _ ha)
    rw [List.mapM_cons, h b List.mem_cons_self, ih]
    by_cases hb : p b
    · by_cases hl : ∀ a ∈ l, p a
      · rw [if_pos hb, if_pos hl, if_pos (List.forall_mem_cons.mpr ⟨hb, hl⟩)]
        rfl
      · rw [if_pos hb, if_neg hl, if_neg fun hall => hl (List.forall_mem_cons.mp hall).2]
        rfl
    · rw [if_neg hb, if_neg fun hall => hb (List.forall_mem_cons.mp hall).1]
      rfl

/-- An array comes through where all its elements do. -/
theorem array_throughJson {schema : Schema α} {f : β → Value} {p : β → Prop} [DecidablePred p]
    {g : β → α} {l : List β} (hdefined : ∀ b, f b ≠ .undefined)
    (h : ∀ b ∈ l, schema (throughJson (f b)) = if p b then some (g b) else none) :
    array schema (throughJson (.array (l.map f))) =
      if ∀ b ∈ l, p b then some (l.map g) else none := by
  show (elemsThroughJson (l.map f)).mapM schema = _
  rw [elemsThroughJson_map hdefined, List.mapM_map]
  exact mapM_of_forall h

end Lib.Zod
