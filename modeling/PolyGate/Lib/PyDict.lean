import Mathlib.Data.List.Nodup
import PolyGate.Lib.JsonText

/-!
# `Lib/PyDict.lean` — what Python does with dictionaries

Setting, updating and removing items of a `dict` with string keys, and `dict(x)` and `list(x)` of a
value that may be anything.
-/

namespace Lib

/-- What Python raises at a value of another shape. -/
inductive ShapeError
  | typeError (message : String)
  | valueError (message : String)
  /-- "'…' object has no attribute '…'" -/
  | attributeError (type name : String)
  deriving DecidableEq, Repr

namespace Json

/-- `type(x).__name__` -/
def typeName : Json → String
  | .null => "NoneType"
  | .bool _ => "bool"
  | .int _ => "int"
  | .float _ => "float"
  | .str _ => "str"
  | .arr _ => "list"
  | .obj _ => "dict"

/-- `x`, asked for its `get`. -/
def asDict : Json → Except ShapeError Obj
  | .obj d => .ok d
  | v => .error (.attributeError v.typeName "get")

/-- The elements of an iterable. -/
def elements? : Json → Option (List Json)
  | .arr elems => some elems
  | .str s => some (s.map fun p => .str [p])
  | .obj d => some (d.map fun kv => .str kv.1)
  | .null | .bool _ | .int _ | .float _ => none

/-- `list(x)` -/
def toList (v : Json) : Except ShapeError (List Json) :=
  match v.elements? with
  | some elems => .ok elems
  | none => .error (.typeError ("'" ++ v.typeName ++ "' object is not iterable"))

/-- A key as it is written in a JSON text. -/
def keyText : Json → Except ShapeError PyStr
  | .arr _ => .error (.typeError "unhashable type: 'list'")
  | .obj _ => .error (.typeError "unhashable type: 'dict'")
  | .str s => .ok s
  | v => .ok (dumps v)

/-- The item that element `i` of a sequence of pairs stands for. -/
def toItem (i : Nat) (v : Json) : Except ShapeError (PyStr × Json) :=
  match v.elements? with
  | none => .error (.typeError
      ("cannot convert dictionary update sequence element #" ++ toString i ++ " to a sequence"))
  | some [key, value] => (keyText key).map fun k => (k, value)
  | some elems => .error (.valueError ("dictionary update sequence element #" ++ toString i ++
      " has length " ++ toString elems.length ++ "; 2 is required"))

end Json

/-! ## Items -/

/-- `d.update(items)` -/
def Obj.update (d items : Obj) : Obj := items.foldl (fun d kv => setItem d kv.1 kv.2) d

/-- `d.pop(key, None)` -/
def Obj.pop (d : Obj) (key : String) : Obj := d.filter fun kv => kv.1 ≠ str key

/-- `dict(x)` -/
def Json.toDict : Json → Except ShapeError Obj
  | .obj d => .ok d
  | v => do
    let elems ← v.toList
    let items ← elems.zipIdx.mapM fun e => Json.toItem e.2 e.1
    return Obj.update [] items

section Items
variable {d items : Obj} {k : PyStr} {key key' : String} {v : Json}

theorem lookup_eq_none_iff {d : Obj} : d.lookup k = none ↔ ∀ kv ∈ d, kv.1 ≠ k := by
  induction d with
  | nil => simp
  | cons kv d ih =>
    rw [List.forall_mem_cons, List.lookup_cons, ← ih]
    by_cases h : kv.1 = k
    · simp [h]
    · simp [h, beq_eq_false_iff_ne.mpr (Ne.symm h)]

/-- A key that is set has its new value, whatever it was before. -/
theorem forall_mem_setItem {P : PyStr × Json → Prop} (hset : P (k, v)) :
    (∀ kv ∈ setItem d k v, P kv) ↔ ∀ kv ∈ d, kv.1 ≠ k → P kv := by
  unfold setItem
  split
  · rw [List.forall_mem_map]
    refine forall₂_congr fun kv _ => ?_
    by_cases h : kv.1 = k
    · simp [h, hset]
    · simp [h]
  · next hnone =>
    have hother : ∀ kv ∈ d, kv.1 ≠ k := fun kv hkv heq =>
      hnone (List.any_eq_true.mpr ⟨kv, hkv, decide_eq_true heq⟩)
    rw [List.forall_mem_append]
    constructor
    · intro h kv hkv _
      exact h.1 kv hkv
    · intro h
      exact ⟨fun kv hkv => h kv hkv (hother kv hkv), List.forall_mem_singleton.mpr hset⟩

theorem lookup_replace (d : Obj) (k k' : PyStr) (v : Json) :
    (d.map fun kv => if kv.1 = k then (k, v) else kv).lookup k' =
      if k' = k then (d.lookup k).map fun _ => v else d.lookup k' := by
  induction d with
  | nil => simp
  | cons kv d ih =>
    obtain ⟨k₁, w⟩ := kv
    rw [List.map_cons]
    by_cases hk : k₁ = k
    · subst hk
      by_cases hk' : k' = k₁
      · simp [hk']
      · rw [if_pos rfl, List.lookup_cons, beq_eq_false_iff_ne.mpr hk', ih, if_neg hk', if_neg hk',
          List.lookup_cons, beq_eq_false_iff_ne.mpr hk']
    · rw [if_neg hk, List.lookup_cons, ih]
      by_cases hk' : k' = k
      · subst hk'
        simp [List.lookup_cons, beq_eq_false_iff_ne.mpr (Ne.symm hk)]
      · simp [List.lookup_cons, hk']

theorem lookup_setItem (d : Obj) (k k' : PyStr) (v : Json) :
    (setItem d k v).lookup k' = if k' = k then some v else d.lookup k' := by
  unfold setItem
  split
  · next hany =>
    rw [lookup_replace]
    by_cases hk : k' = k
    · obtain ⟨kv, hkv, heq⟩ := List.any_eq_true.mp hany
      rw [if_pos hk, if_pos hk]
      cases hd : d.lookup k with
      | none => exact absurd (of_decide_eq_true heq) (lookup_eq_none_iff.mp hd kv hkv)
      | some w => rfl
    · rw [if_neg hk, if_neg hk]
  · next hany =>
    have hnone : d.lookup k = none := by
      refine lookup_eq_none_iff.mpr fun kv hkv heq => hany ?_
      exact List.any_eq_true.mpr ⟨kv, hkv, decide_eq_true heq⟩
    rw [List.lookup_append]
    by_cases hk : k' = k
    · rw [hk, hnone, if_pos rfl]
      simp
    · rw [if_neg hk]
      simp [List.lookup_cons, beq_eq_false_iff_ne.mpr hk]

@[simp] theorem Obj.get?_setItem :
    Obj.get? (setItem d (str key) v) key' = if key' = key then some v else Obj.get? d key' := by
  unfold Obj.get?
  rw [lookup_setItem]
  simp only [str_inj]

theorem lookup_pop (d : Obj) (key : String) (k : PyStr) :
    (Obj.pop d key).lookup k = if k = str key then none else d.lookup k := by
  unfold Obj.pop
  induction d with
  | nil => simp
  | cons kv d ih =>
    by_cases hk : kv.1 = str key
    · rw [List.filter_cons_of_neg (by simp [hk]), ih, List.lookup_cons]
      by_cases hk' : k = str key
      · simp [hk']
      · rw [if_neg hk', if_neg hk', hk, beq_eq_false_iff_ne.mpr hk']
    · rw [List.filter_cons_of_pos (by simp [hk]), List.lookup_cons, List.lookup_cons, ih]
      by_cases hk' : k = str key
      · rw [hk', beq_eq_false_iff_ne.mpr (Ne.symm hk), if_pos rfl]
      · simp [hk']

@[simp] theorem Obj.get?_pop :
    Obj.get? (Obj.pop d key) key' = if key' = key then none else Obj.get? d key' := by
  unfold Obj.get?
  rw [lookup_pop]
  simp only [str_inj]

/-- What an update sets, it overrides; the rest stays. -/
theorem lookup_update (hitems : (items.map (·.1)).Nodup) (d : Obj) (k : PyStr) :
    (Obj.update d items).lookup k = (items.lookup k).or (d.lookup k) := by
  unfold Obj.update
  induction items generalizing d with
  | nil => rfl
  | cons kv items ih =>
    rw [List.map_cons, List.nodup_cons] at hitems
    rw [List.foldl_cons, ih hitems.2, lookup_setItem, List.lookup_cons]
    by_cases hk : k = kv.1
    · have hnone : items.lookup k = none := by
        refine lookup_eq_none_iff.mpr fun kv' hkv' heq => hitems.1 ?_
        exact hk ▸ heq ▸ List.mem_map_of_mem hkv'
      rw [hnone, if_pos hk, hk]
      simp
    · rw [if_neg hk, beq_eq_false_iff_ne.mpr hk]

theorem Obj.get?_update (hitems : (items.map (·.1)).Nodup) (d : Obj) (key : String) :
    Obj.get? (Obj.update d items) key = (Obj.get? items key).or (Obj.get? d key) :=
  lookup_update hitems d (str key)

/-! ## Keys -/

theorem keys_replace (d : Obj) (k : PyStr) (v : Json) :
    (d.map fun kv => if kv.1 = k then (k, v) else kv).map (·.1) = d.map (·.1) := by
  rw [List.map_map]
  refine List.map_congr_left fun kv _ => ?_
  by_cases h : kv.1 = k
  · simp [h]
  · simp [h]

theorem nodup_setItem (h : (d.map (·.1)).Nodup) (k : PyStr) (v : Json) :
    ((setItem d k v).map (·.1)).Nodup := by
  unfold setItem
  split
  · rw [keys_replace]
    exact h
  · next hany =>
    rw [List.map_append]
    refine List.nodup_append'.mpr ⟨h, List.nodup_singleton _, List.disjoint_singleton.mpr ?_⟩
    intro hmem
    obtain ⟨kv, hkv, heq⟩ := List.mem_map.mp hmem
    exact hany (List.any_eq_true.mpr ⟨kv, hkv, decide_eq_true heq⟩)

theorem nodup_update (h : (d.map (·.1)).Nodup) (items : Obj) :
    ((Obj.update d items).map (·.1)).Nodup := by
  unfold Obj.update
  induction items generalizing d with
  | nil => exact h
  | cons kv items ih => exact ih (nodup_setItem h kv.1 kv.2)

theorem nodup_pop (h : (d.map (·.1)).Nodup) (key : String) :
    ((Obj.pop d key).map (·.1)).Nodup := h.sublist (List.filter_sublist.map _)

/-- Setting an item that is there already. -/
theorem setItem_of_mem (hmem : k ∈ d.map (·.1)) (h : ∀ kv ∈ d, kv.1 = k → kv.2 = v) :
    setItem d k v = d := by
  obtain ⟨kv, hkv, heq⟩ := List.mem_map.mp hmem
  unfold setItem
  rw [if_pos (List.any_eq_true.mpr ⟨kv, hkv, decide_eq_true heq⟩)]
  refine (List.map_congr_left fun kv hkv => ?_).trans (List.map_id d)
  by_cases hk : kv.1 = k
  · rw [if_pos hk, ← hk, ← h kv hkv hk]
    rfl
  · rw [if_neg hk]
    rfl

/-- Once set, nothing changes by setting again. -/
theorem setItem_setItem (d : Obj) (k : PyStr) (v : Json) :
    setItem (setItem d k v) k v = setItem d k v := by
  refine setItem_of_mem ?_ ((forall_mem_setItem fun _ => rfl).mpr fun kv _ hne heq => ?_)
  · have hlookup := lookup_setItem d k k v
    rw [if_pos rfl] at hlookup
    by_contra hnot
    rw [lookup_eq_none_iff.mpr fun kv hkv heq => hnot (List.mem_map.mpr ⟨kv, hkv, heq⟩)] at hlookup
    cases hlookup
  · exact absurd heq hne

end Items

end Lib
