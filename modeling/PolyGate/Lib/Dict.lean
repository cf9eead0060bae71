import Mathlib.Data.List.Nodup

/-!
# `Lib/Dict.lean` — dictionaries

A `dict`: keys with a value each, in the order in which the keys were first set.
-/

namespace Lib

structure Dict (K V : Type) where
  entries : List (K × V)
  nodup : (entries.map (·.1)).Nodup

namespace Dict

variable {K V : Type}

theorem nodup_nil : (([] : List (K × V)).map (·.1)).Nodup := .nil

def empty : Dict K V := ⟨[], nodup_nil⟩

def keys (d : Dict K V) : List K := d.entries.map (·.1)

def values (d : Dict K V) : List V := d.entries.map (·.2)

theorem nodup_keys (d : Dict K V) : d.keys.Nodup := d.nodup

variable [DecidableEq K]

/-- `d.get(key)` -/
def get? (d : Dict K V) (key : K) : Option V := d.entries.lookup key

theorem map_fst_replace (entries : List (K × V)) (key : K) (value : V) :
    (entries.map fun e => if e.1 = key then (key, value) else e).map (·.1) =
      entries.map (·.1) := by
  induction entries with
  | nil => rfl
  | cons e entries ih =>
    rw [List.map_cons, List.map_cons, List.map_cons, ih]
    by_cases h : e.1 = key <;> simp [h]

/-- `d[key] = value`: a key that is there stays in its place. -/
def set (d : Dict K V) (key : K) (value : V) : Dict K V :=
  if h : key ∈ d.keys then
    ⟨d.entries.map fun e => if e.1 = key then (key, value) else e, by
      rw [map_fst_replace]
      exact d.nodup⟩
  else
    ⟨d.entries ++ [(key, value)], by
      rw [List.map_append]
      refine List.nodup_append'.mpr ⟨d.nodup, List.nodup_singleton _, ?_⟩
      simpa [keys] using h⟩

@[simp] theorem get?_empty (key : K) : (empty : Dict K V).get? key = none := rfl

variable {d : Dict K V} {key key' : K} {value : V}

theorem get?_eq_some : d.get? key = some value ↔ (key, value) ∈ d.entries := by
  obtain ⟨entries, hnodup⟩ := d
  show entries.lookup key = some value ↔ (key, value) ∈ entries
  induction entries with
  | nil => simp
  | cons e entries ih =>
    obtain ⟨k, v⟩ := e
    rw [List.map_cons, List.nodup_cons] at hnodup
    rw [List.lookup_cons]
    by_cases h : key = k
    · subst h
      have hother : (key, value) ∉ entries := fun hmem =>
        hnodup.1 (List.mem_map_of_mem (f := (·.1)) hmem)
      simp [hother, eq_comm]
    · simp [beq_eq_false_iff_ne.mpr h, ih hnodup.2, h]

theorem get?_eq_none : d.get? key = none ↔ key ∉ d.keys := by
  constructor
  · intro hnone hmem
    obtain ⟨⟨k, v⟩, he, rfl⟩ := List.mem_map.mp hmem
    rw [get?_eq_some.mpr he] at hnone
    cases hnone
  · intro hnot
    cases h : d.get? key with
    | none => rfl
    | some v => exact absurd (List.mem_map_of_mem (get?_eq_some.mp h)) hnot

theorem lookup_replace (entries : List (K × V)) (key key' : K) (value : V) :
    (entries.map fun e => if e.1 = key then (key, value) else e).lookup key' =
      if key' = key then (entries.lookup key).map fun _ => value else entries.lookup key' := by
  induction entries with
  | nil => simp
  | cons e entries ih =>
    obtain ⟨k, v⟩ := e
    rw [List.map_cons]
    by_cases hk : k = key
    · subst hk
      by_cases hk' : key' = k
      · simp [hk']
      · simp [List.lookup_cons, beq_eq_false_iff_ne.mpr hk', ih, hk']
    · rw [if_neg hk, List.lookup_cons, ih]
      by_cases hk' : key' = key
      · subst hk'
        simp [List.lookup_cons, beq_eq_false_iff_ne.mpr (Ne.symm hk)]
      · simp [List.lookup_cons, hk']

theorem filterMap_get?_keys (d : Dict K V) : d.keys.filterMap d.get? = d.values := by
  unfold keys values
  rw [List.filterMap_map, ← List.filterMap_eq_map]
  refine List.filterMap_congr fun e he => ?_
  exact get?_eq_some.mpr he

/-- A new key goes to the end. -/
theorem entries_set (h : d.get? key = none) :
    (d.set key value).entries = d.entries ++ [(key, value)] := by
  rw [set, dif_neg (get?_eq_none.mp h)]

theorem keys_set (h : d.get? key = none) : (d.set key value).keys = d.keys ++ [key] := by
  rw [keys, entries_set h, List.map_append]
  rfl

theorem values_set (h : d.get? key = none) :
    (d.set key value).values = d.values ++ [value] := by
  rw [values, entries_set h, List.map_append]
  rfl

@[simp] theorem get?_set :
    (d.set key value).get? key' = if key' = key then some value else d.get? key' := by
  by_cases hkey : key ∈ d.keys
  · obtain ⟨v, hv⟩ := Option.ne_none_iff_exists'.mp fun hnone => get?_eq_none.mp hnone hkey
    unfold get? at hv
    rw [set, dif_pos hkey]
    show List.lookup key' (d.entries.map _) = if key' = key then _ else d.entries.lookup key'
    rw [lookup_replace, hv]
    rfl
  · have hnone := get?_eq_none.mpr hkey
    unfold get? at hnone ⊢
    rw [entries_set (get?_eq_none.mpr hkey), List.lookup_append]
    by_cases h : key' = key
    · rw [h, hnone, if_pos rfl]
      simp
    · rw [if_neg h]
      simp [List.lookup_cons, beq_eq_false_iff_ne.mpr h]

end Dict

end Lib
