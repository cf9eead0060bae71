import Mathlib.Algebra.Order.Sub.Basic
import PolyGate.Lib.PyRepr

/-!
# `Lib/ReadFloat.lean` — which float a decimal is read as

The nearest double, half to even, stands again for its shortest decimal (`Lib/PyFloat.lean`); what
is beyond the largest double is an infinity. `IsDouble` are the magnitudes that stand for a double:
reading one gives it back.
-/

namespace Lib.PyFloat

/-- A power of two or of ten. -/
def power (base : Nat) : Int → ℚ≥0
  | .ofNat n => base ^ n
  | .negSucc n => 1 / base ^ (n + 1)

/-- The exponent of the first digit. -/
def exponentOf (base : Nat) (q : ℚ≥0) : Int :=
  let e : Int := (Nat.toDigits base q.num).length - (Nat.toDigits base q.den).length
  if power base e ≤ q then e else e - 1

/-- The nearest integer, half to even. -/
def nearest (q : ℚ≥0) : Nat :=
  let n := q.num / q.den
  let rest := 2 * (q.num % q.den)
  if rest < q.den ∨ rest = q.den ∧ n % 2 = 0 then n else n + 1

/-- The nearest double, if the exponents had no upper end. -/
def double (q : ℚ≥0) : ℚ≥0 :=
  let ulp := power 2 (max (exponentOf 2 q - 52) (-1074))
  nearest (q / ulp) * ulp

/-- The shortest decimal that is read as the double `d`, and of these the nearest to it. -/
def shortest (d : ℚ≥0) : ℚ≥0 :=
  let shortestOf (digits : Nat) : Option ℚ≥0 :=
    let ulp := power 10 (exponentOf 10 d - digits)
    let below := ((d / ulp).num / (d / ulp).den : Nat) * ulp
    let above := below + ulp
    (if d - below ≤ above - d then [below, above] else [above, below]).find? (double · = d)
  if d = 0 then 0 else ((List.range 17).findSome? shortestOf).getD d

/-- The float that a decimal is read as. -/
def ofDecimal (neg : Bool) (q : ℚ≥0) : PyFloat :=
  if 2 ^ 1024 ≤ double q then .inf neg else .finite neg (shortest (double q))

/-- The magnitude of a float: the shortest decimal of a double. -/
def IsDouble (q : ℚ≥0) : Prop := (decimals q).isSome ∧ ofDecimal false q = .finite false q

instance (q : ℚ≥0) : Decidable (IsDouble q) := inferInstanceAs (Decidable (_ ∧ _))

theorem IsDouble.ofDecimal {q : ℚ≥0} (h : IsDouble q) (neg : Bool) :
    ofDecimal neg q = .finite neg q := by
  have hread := h.2
  unfold PyFloat.ofDecimal at hread ⊢
  split
  · rename_i hbig
    rw [if_pos hbig] at hread
    cases hread
  · rename_i hbig
    rw [if_neg hbig] at hread
    rw [(PyFloat.finite.inj hread).2]

example : IsDouble (1 / 10) := by decide +kernel
example : ofDecimal false (3 / 10 + 1 / 10 ^ 20) = .finite false (3 / 10) := by decide +kernel
example : ofDecimal true (10 ^ 400) = .inf true := by decide +kernel

end Lib.PyFloat
