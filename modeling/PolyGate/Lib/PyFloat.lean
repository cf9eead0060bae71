import Mathlib.Algebra.Field.Rat
import Mathlib.Algebra.Order.Ring.Rat
import Mathlib.Data.NNRat.Defs

/-!
# `Lib/PyFloat.lean` — the numbers a Python `float` holds

A finite float stands here for the shortest decimal that reads back as it, the one `repr`
prints: two floats are the same when these numbers and their signs are, and what is computed with
them is computed exactly. `0.0` and `-0.0` are two floats, and a comparison with `nan` is false.
-/

namespace Lib

inductive PyFloat
  | finite (neg : Bool) (magnitude : ℚ≥0)
  | inf (neg : Bool)
  | nan
  deriving DecidableEq

/-- Seconds, of a clock or since the epoch: what a finite float holds. -/
abbrev Time := ℚ

namespace PyFloat

/-- The value of `finite neg magnitude`. -/
def value (neg : Bool) (magnitude : ℚ≥0) : ℚ := if neg then -magnitude else magnitude

/-- The float that holds a number. -/
def ofRat (q : ℚ) : PyFloat := .finite (decide (q < 0)) q.nnabs

/-- `q <= x` -/
def atLeast (x : PyFloat) (q : ℚ) : Bool :=
  match x with
  | .finite neg m => q ≤ value neg m
  | .inf neg => !neg
  | .nan => false

/-- `x < q` -/
def below (x : PyFloat) (q : ℚ) : Bool :=
  match x with
  | .finite neg m => value neg m < q
  | .inf neg => neg
  | .nan => false

/-- `q < x` -/
def above (x : PyFloat) (q : ℚ) : Bool :=
  match x with
  | .finite neg m => q < value neg m
  | .inf neg => !neg
  | .nan => false

/-- `x == y` -/
def eq : PyFloat → PyFloat → Bool
  | .finite neg m, .finite neg' m' => value neg m = value neg' m'
  | .inf neg, .inf neg' => neg = neg'
  | _, _ => false

/-- The number held by a float between two bounds. -/
def within (lo hi : ℚ) (x : PyFloat) : Option {q : ℚ // lo ≤ q ∧ q ≤ hi} :=
  match x with
  | .finite neg m =>
    if h : lo ≤ value neg m ∧ value neg m ≤ hi then some ⟨value neg m, h⟩ else none
  | .inf _ | .nan => none

@[simp] theorem value_ofRat (q : ℚ) : value (decide (q < 0)) q.nnabs = q := by
  unfold value
  by_cases h : q < 0
  · simp [h, abs_of_neg h]
  · simp [h, abs_of_nonneg (not_lt.mp h)]

theorem eq_ofRat (p q : ℚ) : (ofRat p).eq (ofRat q) = decide (p = q) := by
  simp only [ofRat, eq, value_ofRat]

theorem within_ofRat {lo hi q : ℚ} (h : lo ≤ q ∧ q ≤ hi) :
    (ofRat q).within lo hi = some ⟨q, h⟩ := by
  simp only [ofRat, within, value_ofRat]
  exact dif_pos h

end PyFloat

end Lib
