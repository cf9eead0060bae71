import Mathlib.Data.List.MinMax

/-!
# `Lib/Choice.lean` — choosing one element of a list

A choice narrows a list by preferences and then takes the first of the least elements.
A preference is kept as long as something meets it (`preferring`), so narrowing never empties a
list; `FirstMin f xs x` is what `List.argmin` computes, with the ties going to the front.
-/

namespace Lib

variable {α β : Type}

/-! ## Preferences -/

/-- What meets `p`, if anything does; everything else. -/
def preferring (p : α → Bool) (xs : List α) : List α :=
  if xs.any p then xs.filter p else xs

section Preferring
variable {p : α → Bool} {xs : List α} {x : α}

theorem mem_preferring : x ∈ preferring p xs ↔ x ∈ xs ∧ ((∃ y ∈ xs, p y = true) → p x = true) := by
  unfold preferring
  by_cases h : ∃ y ∈ xs, p y = true
  · rw [if_pos (List.any_eq_true.mpr h), List.mem_filter]
    exact and_congr_right fun _ => ⟨fun hx _ => hx, fun hx => hx h⟩
  · rw [if_neg (mt List.any_eq_true.mp h)]
    exact ⟨fun hx => ⟨hx, fun hy => absurd hy h⟩, And.left⟩

/-- What the list is narrowed to, when something meets the preference. -/
theorem preferring_of_mem (hx : x ∈ xs) (hp : p x = true) : preferring p xs = xs.filter p :=
  if_pos (List.any_eq_true.mpr ⟨x, hx, hp⟩)

theorem preferring_of_forall (h : ∀ y ∈ xs, p y = false) : preferring p xs = xs := by
  refine if_neg fun hany => ?_
  obtain ⟨y, hy, hp⟩ := List.any_eq_true.mp hany
  rw [h y hy] at hp
  cases hp

theorem preferring_ne_nil (h : xs ≠ []) : preferring p xs ≠ [] := by
  unfold preferring
  split
  · next hany =>
    obtain ⟨y, hy, hp⟩ := List.any_eq_true.mp hany
    exact List.ne_nil_of_mem (List.mem_filter.mpr ⟨hy, hp⟩)
  · exact h

end Preferring

/-! ## First minima -/

/-- `x` is the first of the elements of `xs` at which `f` is least. -/
def FirstMin [Preorder β] (f : α → β) (xs : List α) (x : α) : Prop :=
  ∃ before after, xs = before ++ x :: after ∧ (∀ y ∈ before, f x < f y) ∧ ∀ y ∈ after, f x ≤ f y

section FirstMin
variable {f : α → β} {xs : List α} {x y : α}

theorem FirstMin.mem [Preorder β] (h : FirstMin f xs x) : x ∈ xs := by
  obtain ⟨before, after, rfl, -, -⟩ := h
  exact List.mem_append_right _ List.mem_cons_self

theorem FirstMin.le [Preorder β] (h : FirstMin f xs x) (hy : y ∈ xs) : f x ≤ f y := by
  obtain ⟨before, after, rfl, hbefore, hafter⟩ := h
  rcases List.mem_append.mp hy with hy | hy
  · exact (hbefore y hy).le
  · rcases List.mem_cons.mp hy with rfl | hy
    · exact le_rfl
    · exact hafter y hy

variable [LinearOrder β]

theorem firstMin_cons_iff {a : α} : FirstMin f (a :: xs) x ↔
    (x = a ∧ ∀ y ∈ xs, f a ≤ f y) ∨ (f x < f a ∧ FirstMin f xs x) := by
  constructor
  · rintro ⟨before, after, heq, hbefore, hafter⟩
    cases before with
    | nil =>
      obtain ⟨rfl, rfl⟩ := List.cons.inj heq
      exact Or.inl ⟨rfl, hafter⟩
    | cons b before =>
      obtain ⟨rfl, rfl⟩ := List.cons.inj heq
      refine Or.inr ⟨hbefore _ List.mem_cons_self, before, after, rfl, fun y hy => ?_, hafter⟩
      exact hbefore y (List.mem_cons_of_mem _ hy)
  · rintro (⟨rfl, hle⟩ | ⟨hlt, before, after, rfl, hbefore, hafter⟩)
    · exact ⟨[], xs, rfl, fun y hy => absurd hy List.not_mem_nil, hle⟩
    · exact ⟨a :: before, after, rfl, List.forall_mem_cons.mpr ⟨hlt, hbefore⟩, hafter⟩

/-- `List.argmin` takes the first minimum. -/
theorem argmin_eq_some_iff_firstMin : xs.argmin f = some x ↔ FirstMin f xs x := by
  induction xs generalizing x with
  | nil =>
    refine ⟨fun h => absurd h (by simp), fun h => absurd h.mem List.not_mem_nil⟩
  | cons a xs ih =>
    rw [List.argmin_cons, firstMin_cons_iff]
    cases hmin : xs.argmin f with
    | none =>
      obtain rfl := List.argmin_eq_none.mp hmin
      simp [eq_comm, FirstMin]
    | some m =>
      have hm : FirstMin f xs m := ih.mp hmin
      by_cases hlt : f m < f a
      · simp only [hlt, if_true]
        rw [Option.some_inj]
        constructor
        · rintro rfl
          exact Or.inr ⟨hlt, hm⟩
        · rintro (⟨rfl, hle⟩ | ⟨-, hx⟩)
          · exact absurd (hle m hm.mem) (not_le.mpr hlt)
          · exact Option.some_inj.mp (hmin.symm.trans (ih.mpr hx))
      · simp only [hlt, if_false]
        rw [Option.some_inj]
        have hle : ∀ y ∈ xs, f a ≤ f y := fun y hy => (not_lt.mp hlt).trans (hm.le hy)
        constructor
        · rintro rfl
          exact Or.inl ⟨rfl, hle⟩
        · rintro (⟨rfl, -⟩ | ⟨hx, hmem⟩)
          · rfl
          · exact absurd (hle x hmem.mem) (not_le.mpr hx)

theorem FirstMin.unique (hx : FirstMin f xs x) (hy : FirstMin f xs y) : x = y :=
  Option.some_inj.mp
    ((argmin_eq_some_iff_firstMin.mpr hx).symm.trans (argmin_eq_some_iff_firstMin.mpr hy))

theorem exists_firstMin (f : α → β) (h : xs ≠ []) : ∃ x, FirstMin f xs x := by
  cases hmin : xs.argmin f with
  | none => exact absurd (List.argmin_eq_none.mp hmin) h
  | some x => exact ⟨x, argmin_eq_some_iff_firstMin.mp hmin⟩

end FirstMin

/-! ## Without some of the others -/

/-- `ys` is what is left of `xs` without some of its elements, the first `x` not among them. -/
inductive Thinned (x : α) : List α → List α → Prop
  | here {xs ys : List α} (others : ys.Sublist xs) : Thinned x (x :: xs) (x :: ys)
  | keep {y : α} {xs ys : List α} (other : y ≠ x) (rest : Thinned x xs ys) :
      Thinned x (y :: xs) (y :: ys)
  | drop {y : α} {xs ys : List α} (other : y ≠ x) (rest : Thinned x xs ys) : Thinned x (y :: xs) ys

namespace Thinned
variable {x : α} {xs ys : List α} {p : α → Bool} {f : α → β}

theorem sublist (h : Thinned x xs ys) : ys.Sublist xs := by
  induction h with
  | here others => exact others.cons_cons x
  | keep _ _ ih => exact ih.cons_cons _
  | drop _ _ ih => exact ih.cons _

theorem mem (h : Thinned x xs ys) : x ∈ ys := by
  induction h with
  | here => exact List.mem_cons_self
  | keep _ _ ih => exact List.mem_cons_of_mem _ ih
  | drop _ _ ih => exact ih

theorem filter (h : Thinned x xs ys) (hx : p x = true) :
    Thinned x (xs.filter p) (ys.filter p) := by
  induction h with
  | here others =>
    rw [List.filter_cons_of_pos hx, List.filter_cons_of_pos hx]
    exact .here (others.filter p)
  | @keep y _ _ other _ ih =>
    cases hy : p y with
    | true =>
      rw [List.filter_cons_of_pos hy, List.filter_cons_of_pos hy]
      exact .keep other ih
    | false =>
      rw [List.filter_cons_of_neg (by simp [hy]), List.filter_cons_of_neg (by simp [hy])]
      exact ih
  | @drop y _ _ other _ ih =>
    cases hy : p y with
    | true =>
      rw [List.filter_cons_of_pos hy]
      exact .drop other ih
    | false =>
      rw [List.filter_cons_of_neg (by simp [hy])]
      exact ih

/-- A preference that `x` survives is kept or dropped without the others as with them. -/
theorem preferring (h : Thinned x xs ys) (hx : x ∈ preferring p xs) :
    Thinned x (Lib.preferring p xs) (Lib.preferring p ys) := by
  obtain ⟨hmem, hmeets⟩ := mem_preferring.mp hx
  by_cases hsome : ∃ y ∈ xs, p y = true
  · have hpx := hmeets hsome
    rw [preferring_of_mem hmem hpx, preferring_of_mem h.mem hpx]
    exact h.filter hpx
  · have hnone : ∀ y ∈ xs, p y = false := fun y hy =>
      Bool.eq_false_iff.mpr fun hp => hsome ⟨y, hy, hp⟩
    rw [preferring_of_forall hnone, preferring_of_forall fun y hy => hnone y (h.sublist.subset hy)]
    exact h

/-- The first minimum stays the first minimum. -/
theorem firstMin [LinearOrder β] (h : Thinned x xs ys) (hx : FirstMin f xs x) :
    FirstMin f ys x := by
  induction h with
  | here others =>
    rcases firstMin_cons_iff.mp hx with ⟨-, hle⟩ | ⟨hlt, -⟩
    · exact firstMin_cons_iff.mpr (Or.inl ⟨rfl, fun y hy => hle y (others.subset hy)⟩)
    · exact absurd hlt (lt_irrefl _)
  | keep other _ ih =>
    rcases firstMin_cons_iff.mp hx with ⟨heq, -⟩ | ⟨hlt, hrest⟩
    · exact absurd heq.symm other
    · exact firstMin_cons_iff.mpr (Or.inr ⟨hlt, ih hrest⟩)
  | drop other _ ih =>
    rcases firstMin_cons_iff.mp hx with ⟨heq, -⟩ | ⟨-, hrest⟩
    · exact absurd heq.symm other
    · exact ih hrest

/-- Filtering keeps the first `x` that it keeps at all. -/
theorem of_filter (hmem : x ∈ xs) (hx : p x = true) : Thinned x xs (xs.filter p) := by
  induction xs with
  | nil => exact absurd hmem List.not_mem_nil
  | cons y xs ih =>
    by_cases heq : y = x
    · subst heq
      rw [List.filter_cons_of_pos hx]
      exact .here List.filter_sublist
    · have hrest := ih ((List.mem_cons.mp hmem).resolve_left (Ne.symm heq))
      cases hy : p y with
      | true =>
        rw [List.filter_cons_of_pos hy]
        exact .keep heq hrest
      | false =>
        rw [List.filter_cons_of_neg (by simp [hy])]
        exact .drop heq hrest

/-- An element is taken out that is not `x`, or stands after an `x`. -/
theorem of_append {before after : List α} {y : α} (hmem : x ∈ before ++ y :: after)
    (hother : y ≠ x ∨ x ∈ before) : Thinned x (before ++ y :: after) (before ++ after) := by
  induction before with
  | nil =>
    have hne := hother.resolve_right List.not_mem_nil
    have hx := (List.mem_cons.mp hmem).resolve_left (Ne.symm hne)
    have hall : Thinned x after after := by
      simpa using of_filter (p := fun _ => true) hx rfl
    exact .drop hne hall
  | cons z before ih =>
    by_cases heq : z = x
    · subst heq
      exact .here ((List.sublist_cons_self y after).append_left before)
    · refine .keep heq (ih ((List.mem_cons.mp hmem).resolve_left (Ne.symm heq)) ?_)
      exact hother.imp_right fun h => (List.mem_cons.mp h).resolve_left (Ne.symm heq)

end Thinned

end Lib
