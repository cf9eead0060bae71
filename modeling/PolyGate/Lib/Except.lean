import Mathlib.Data.List.Forall2
import Mathlib.Logic.Basic

/-!
# `Lib/Except.lean` — taking a computation that may fail apart

From the result of a sequence to the results of its parts.
-/

namespace Lib

variable {ε α β : Type}

/-- A sequence succeeds when its first part does and the rest does from there. -/
theorem bind_eq_ok {x : Except ε α} {f : α → Except ε β} {b : β} :
    (x >>= f) = .ok b ↔ ∃ a, x = .ok a ∧ f a = .ok b := by
  cases x with
  | error e =>
    constructor
    · intro h
      cases h
    · rintro ⟨a, h, -⟩
      cases h
  | ok a =>
    constructor
    · intro h
      exact ⟨a, rfl, h⟩
    · rintro ⟨a', h, hf⟩
      cases h
      exact hf

theorem bind_eq_error {x : Except ε α} {f : α → Except ε β} {e : ε} :
    (x >>= f) = .error e ↔ x = .error e ∨ ∃ a, x = .ok a ∧ f a = .error e := by
  cases x with
  | error e' =>
    constructor
    · intro h
      cases h
      exact Or.inl rfl
    · rintro (h | ⟨a, h, -⟩)
      · cases h
        rfl
      · cases h
  | ok a =>
    constructor
    · intro h
      exact Or.inr ⟨a, rfl, h⟩
    · rintro (h | ⟨a', h, hf⟩)
      · cases h
      · cases h
        exact hf

theorem mapError_eq_ok {ε' : Type} {x : Except ε α} {f : ε → ε'} {a : α} :
    x.mapError f = .ok a ↔ x = .ok a := by
  cases x with
  | error e =>
    constructor <;> intro h <;> cases h
  | ok b =>
    constructor <;> intro h <;> cases h <;> rfl

theorem bind_of_eq_ok {x : Except ε α} {f : α → Except ε β} {a : α} (h : x = .ok a) :
    (x >>= f) = f a := by
  rw [h]
  rfl

theorem bind_of_eq_error {x : Except ε α} {f : α → Except ε β} {e : ε} (h : x = .error e) :
    (x >>= f) = .error e := by
  rw [h]
  rfl

/-! ## Over a list -/

section MapM
variable {f : α → Except ε β} {xs : List α} {x : α} {e : ε}

theorem mapM_eq_ok {g : α → β} (h : ∀ x ∈ xs, f x = .ok (g x)) : xs.mapM f = .ok (xs.map g) := by
  induction xs with
  | nil => rfl
  | cons x xs ih =>
    obtain ⟨hx, hxs⟩ := List.forall_mem_cons.mp h
    rw [List.mapM_cons, hx, ih hxs]
    rfl

theorem mapM_eq_ok_iff {ys : List β} :
    xs.mapM f = .ok ys ↔ List.Forall₂ (fun x y => f x = .ok y) xs ys := by
  induction xs generalizing ys with
  | nil =>
    rw [List.forall₂_nil_left_iff]
    exact ⟨fun h => (Except.ok.inj h).symm, fun h => congrArg Except.ok h.symm⟩
  | cons x xs ih =>
    rw [List.mapM_cons]
    constructor
    · intro h
      obtain ⟨y, hy, h⟩ := bind_eq_ok.mp h
      obtain ⟨ys', hys, h⟩ := bind_eq_ok.mp h
      obtain rfl := Except.ok.inj h
      exact .cons hy (ih.mp hys)
    · intro h
      cases h with
      | cons hy hys =>
        rw [hy, ih.mpr hys]
        rfl

/-- What a list raises, one of its elements raises. -/
theorem mapM_eq_error (h : xs.mapM f = .error e) : ∃ x ∈ xs, f x = .error e := by
  induction xs with
  | nil => cases h
  | cons x xs ih =>
    rw [List.mapM_cons] at h
    rcases bind_eq_error.mp h with hx | ⟨y, -, h⟩
    · exact ⟨x, List.mem_cons_self, hx⟩
    · rcases bind_eq_error.mp h with hxs | ⟨ys, -, h⟩
      · obtain ⟨x', hx', he⟩ := ih hxs
        exact ⟨x', List.mem_cons_of_mem _ hx', he⟩
      · cases h

/-- What is raised at an element, the list raises, unless something is raised in front of it. -/
theorem mapM_raises (hx : x ∈ xs) (he : f x = .error e) : ∃ e', xs.mapM f = .error e' := by
  induction xs with
  | nil => cases hx
  | cons y xs ih =>
    rw [List.mapM_cons]
    cases hy : f y with
    | error e' => exact ⟨e', rfl⟩
    | ok b =>
      rcases List.mem_cons.mp hx with rfl | hx
      · cases he.symm.trans hy
      · obtain ⟨e', he'⟩ := ih hx
        exact ⟨e', by rw [he']; rfl⟩

/-- The first element that `g` picks out decides, if the others are all right. -/
theorem mapM_of_find_eq_none {g : α → Bool} (hok : ∀ x ∈ xs, g x = false → ∃ y, f x = .ok y)
    (h : xs.find? g = none) : ∃ ys, xs.mapM f = .ok ys := by
  cases hall : xs.mapM f with
  | ok ys => exact ⟨ys, rfl⟩
  | error e =>
    obtain ⟨x, hx, he⟩ := mapM_eq_error hall
    obtain ⟨y, hy⟩ := hok x hx (Bool.eq_false_iff.mpr (List.find?_eq_none.mp h x hx))
    cases hy.symm.trans he

theorem mapM_of_find_eq_some {g : α → Bool} (hok : ∀ x ∈ xs, g x = false → ∃ y, f x = .ok y)
    (h : xs.find? g = some x) (he : f x = .error e) : xs.mapM f = .error e := by
  induction xs with
  | nil => cases h
  | cons y xs ih =>
    rw [List.mapM_cons]
    cases hy : g y with
    | true =>
      rw [List.find?_cons, hy] at h
      obtain rfl := Option.some.inj h
      rw [he]
      rfl
    | false =>
      rw [List.find?_cons, hy] at h
      obtain ⟨z, hz⟩ := hok y List.mem_cons_self hy
      rw [hz, ih (fun x hx => hok x (List.mem_cons_of_mem _ hx)) h]
      rfl

end MapM

section AnyM
variable {f : α → Except ε Bool} {g : α → Bool} {xs : List α}

theorem anyM_eq_ok (h : ∀ x ∈ xs, f x = .ok (g x)) : xs.anyM f = .ok (xs.any g) := by
  induction xs with
  | nil => rfl
  | cons x xs ih =>
    obtain ⟨hx, hxs⟩ := List.forall_mem_cons.mp h
    rw [List.anyM, hx, List.any_cons]
    cases g x with
    | true => rfl
    | false => exact ih hxs

theorem anyM_eq_ok_false : xs.anyM f = .ok false ↔ ∀ x ∈ xs, f x = .ok false := by
  induction xs with
  | nil => exact ⟨fun _ x hx => absurd hx List.not_mem_nil, fun _ => rfl⟩
  | cons x xs ih =>
    rw [List.anyM, List.forall_mem_cons, ← ih]
    constructor
    · intro h
      obtain ⟨b, hb, h⟩ := bind_eq_ok.mp h
      cases b with
      | true => cases h
      | false => exact ⟨hb, h⟩
    · rintro ⟨hx, hxs⟩
      rw [hx]
      exact hxs

/-- A search that stops at the first element which `g` picks out. -/
theorem anyM_total_iff (hfree : ∀ x ∈ xs, g x = false → f x = .ok false)
    (hstop : ∀ x ∈ xs, g x = true → f x ≠ .ok false) :
    (∃ b, xs.anyM f = .ok b) ↔ ∀ x ∈ xs.find? g, ∃ b, f x = .ok b := by
  induction xs with
  | nil =>
    refine ⟨fun _ x hx => ?_, fun _ => ⟨false, rfl⟩⟩
    cases hx
  | cons x xs ih =>
    obtain ⟨hx, hfree⟩ := List.forall_mem_cons.mp hfree
    obtain ⟨hx', hstop⟩ := List.forall_mem_cons.mp hstop
    rw [List.anyM, List.find?_cons]
    cases hg : g x with
    | false =>
      rw [hx hg]
      exact ih hfree hstop
    | true =>
      cases hf : f x with
      | error e =>
        refine ⟨?_, fun h => ?_⟩
        · rintro ⟨b, hb⟩
          cases hb
        · obtain ⟨b, hb⟩ := h x rfl
          cases hf.symm.trans hb
      | ok b =>
        cases b with
        | false => exact absurd hf (hx' hg)
        | true =>
          refine ⟨fun _ y hy => ?_, fun _ => ⟨true, rfl⟩⟩
          obtain rfl := Option.some.inj hy
          exact ⟨true, hf⟩

end AnyM

/-! ## Evaluated results -/

/-- A property of a result that can be evaluated. -/
theorem exists_eq_ok {x : Except ε α} {P : α → Prop} [DecidablePred P]
    (h : (match x with
      | .ok a => decide (P a)
      | .error _ => false) = true) : ∃ a, x = .ok a ∧ P a := by
  cases x with
  | error e => cases h
  | ok a => exact ⟨a, rfl, of_decide_eq_true h⟩

theorem exists_eq_error {x : Except ε α} {P : ε → Prop} [DecidablePred P]
    (h : (match x with
      | .ok _ => false
      | .error e => decide (P e)) = true) : ∃ e, x = .error e ∧ P e := by
  cases x with
  | error e => exact ⟨e, rfl, of_decide_eq_true h⟩
  | ok a => cases h

end Lib
