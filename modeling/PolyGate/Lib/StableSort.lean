import Mathlib.Data.List.Nodup

/-!
# `Lib/StableSort.lean` — what a stable sort leaves in its order

Of two elements that a stable sort takes for equal, the one that came first stays first.
-/

namespace Lib

variable {α : Type} {le : α → α → Bool} {r : α → α → Prop} {l : List α}

/-- The order of the indexed elements, taken apart. -/
theorem zipIdxLE_iff {a b : α × Nat} :
    List.zipIdxLE le a b = true ↔ le a.1 b.1 = true ∧ (le b.1 a.1 = true → a.2 ≤ b.2) := by
  unfold List.zipIdxLE
  cases le a.1 b.1 with
  | false => simp
  | true =>
    cases le b.1 a.1 with
    | false => simp
    | true => simp

/-- Sorted elements are in order, and equal ones related as they were before. -/
theorem pairwise_mergeSort_stable (trans : ∀ a b c, le a b = true → le b c = true → le a c = true)
    (total : ∀ a b, (le a b || le b a) = true) (h : l.Pairwise r) :
    (l.mergeSort le).Pairwise fun a b => le a b = true ∧ (le b a = true → r a b) := by
  have hsorted : (l.zipIdx.mergeSort (List.zipIdxLE le)).Pairwise
      fun a b => List.zipIdxLE le a b = true :=
    List.pairwise_mergeSort (List.zipIdxLE_trans trans) (List.zipIdxLE_total total) _
  have hnodup : (l.zipIdx.mergeSort (List.zipIdxLE le)).Pairwise fun a b => a.2 ≠ b.2 := by
    have hidx : (l.zipIdx.map (·.2)).Nodup := by
      rw [List.zipIdx_map_snd]
      exact List.nodup_range'
    have hperm := ((List.mergeSort_perm l.zipIdx (List.zipIdxLE le)).map (·.2)).nodup_iff.mpr hidx
    exact List.pairwise_map.mp hperm
  rw [← List.mergeSort_zipIdx, List.pairwise_map]
  refine (hsorted.and hnodup).imp_of_mem fun {a b} ha hb hab => ?_
  obtain ⟨hle, hback⟩ := zipIdxLE_iff.mp hab.1
  refine ⟨hle, fun hge => ?_⟩
  have hlt : a.2 < b.2 := Nat.lt_of_le_of_ne (hback hge) hab.2
  obtain ⟨ia, ha⟩ := List.getElem?_eq_some_iff.mp
    (List.mem_zipIdx_iff_getElem?.mp (List.mem_mergeSort.mp ha))
  obtain ⟨ib, hb⟩ := List.getElem?_eq_some_iff.mp
    (List.mem_zipIdx_iff_getElem?.mp (List.mem_mergeSort.mp hb))
  rw [← ha, ← hb]
  exact List.pairwise_iff_getElem.mp h a.2 b.2 ia ib hlt

end Lib
