import PolyGate.Lib.Ecma

/-!
# `Automation/PolicyAdmin.lean` — what the policy editor in the browser shows as changed

`diffObjects` of `policy-admin.js`. It tells values apart by their JSON text, and takes the keys in
the order of their UTF-16 code units.
-/

namespace PolyGate.Automation

open Lib Ecma

/-- `clone(value)` -/
def clone (value : Value) : Value := throughJson value

/-- An entry of the list that `diffObjects` returns. -/
structure EditorChange where
  path : PyStr
  before : Value
  after : Value

/-- `[...new Set([...Object.keys(before), ...Object.keys(after)])].sort()` -/
def editorKeys (before after : Fields) : List PyStr :=
  sort (newSet (before.map (·.1) ++ after.map (·.1)))

/-- `diffObjects` -/
def diffObjects : Value → Value → PyStr → List EditorChange
  | .object before, .object after, currentPath =>
    (editorKeys before after).flatMap fun key =>
      diffObjects (get before key) (get after key)
        (if currentPath = [] then key else currentPath ++ str "." ++ key)
  | before, after, currentPath =>
    if stringify before ≠ stringify after then [⟨currentPath, clone before, clone after⟩] else []
termination_by before => sizeOf before
decreasing_by exact sizeOf_get before key

theorem diffObjects_leaf {before : Value} (h : ∀ fields, before ≠ .object fields) (after : Value)
    (currentPath : PyStr) :
    diffObjects before after currentPath =
      if stringify before ≠ stringify after then [⟨currentPath, clone before, clone after⟩]
      else [] := by
  cases before with
  | object fields => exact absurd rfl (h fields)
  | _ => rw [diffObjects]; simp

end PolyGate.Automation
