import Mathlib.Data.List.Basic

/-!
# `Lib/Cut.lean` — cutting a list at an element

`before x l` and `after x l` are what stands before and after the first `x` of `l`. Two lists that
are joined around an `x` are found again when one side has no other `x`.
-/

namespace Lib

variable {α : Type} [DecidableEq α] {x : α} {a b a' b' : List α}

def before (x : α) : List α → List α
  | [] => []
  | y :: l => if y = x then [] else y :: before x l

def after (x : α) : List α → List α
  | [] => []
  | y :: l => if y = x then l else after x l

theorem before_cut (h : x ∉ a) : before x (a ++ x :: b) = a := by
  induction a with
  | nil => simp [before]
  | cons y a ih =>
    obtain ⟨hy, ha⟩ := not_or.mp (List.mem_cons.not.mp h)
    simp [before, Ne.symm hy, ih ha]

theorem after_cut (h : x ∉ a) : after x (a ++ x :: b) = b := by
  induction a with
  | nil => simp [after]
  | cons y a ih =>
    obtain ⟨hy, ha⟩ := not_or.mp (List.mem_cons.not.mp h)
    simp [after, Ne.symm hy, ih ha]

theorem before_of_notMem (h : x ∉ a) : before x a = a := by
  induction a with
  | nil => rfl
  | cons y a ih =>
    obtain ⟨hy, ha⟩ := not_or.mp (List.mem_cons.not.mp h)
    simp [before, Ne.symm hy, ih ha]

theorem after_of_notMem (h : x ∉ a) : after x a = [] := by
  induction a with
  | nil => rfl
  | cons y a ih =>
    obtain ⟨hy, ha⟩ := not_or.mp (List.mem_cons.not.mp h)
    simp [after, Ne.symm hy, ih ha]

omit [DecidableEq α] in
/-- Cut at the first `x`. -/
theorem cut_first (h : x ∉ a) (h' : x ∉ a') (heq : a ++ x :: b = a' ++ x :: b') :
    a = a' ∧ b = b' := by
  classical
  have ha := congrArg (before x) heq
  have hb := congrArg (after x) heq
  rw [before_cut h, before_cut h'] at ha
  rw [after_cut h, after_cut h'] at hb
  exact ⟨ha, hb⟩

omit [DecidableEq α] in
/-- Cut at the last `x`. -/
theorem cut_last (h : x ∉ b) (h' : x ∉ b') (heq : a ++ x :: b = a' ++ x :: b') :
    a = a' ∧ b = b' := by
  have hrev := congrArg List.reverse heq
  simp only [List.reverse_append, List.reverse_cons, List.append_assoc, List.cons_append,
    List.nil_append] at hrev
  obtain ⟨hb, ha⟩ := cut_first (by simpa using h) (by simpa using h') hrev
  exact ⟨List.reverse_injective ha, List.reverse_injective hb⟩

end Lib
