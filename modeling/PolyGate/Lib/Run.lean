import Mathlib.Data.List.Induction
import Mathlib.Logic.Relation

/-!
# `Lib/Run.lean` — runs of a transition system, and their invariants

A `Run step w ts w'` takes the transitions `ts`, oldest first, from `w` to `w'`. A transition
is kept whole — the state before, the label, the state after — because the conditions stated
about runs are conditions on *the state before a step*: "no crash strikes while …" is
`∀ t ∈ ts, ok t.1 t.2.1`.

The induction over runs is packaged once, in three strengths: a state invariant
(`Run.invariant`), an invariant that may also look at the history (`Run.history`), and an
invariant kept by the steps that meet a condition (`Run.restrict`, which turns such a run into
a run of the restricted system).
-/

namespace Lib

variable {W L : Type}

inductive Run (step : W → L → W → Prop) (w : W) : List (W × L × W) → W → Prop
  | refl : Run step w [] w
  | tail {w' w'' : W} {l : L} {ts : List (W × L × W)} :
      Run step w ts w' → step w' l w'' → Run step w (ts ++ [(w', l, w'')]) w''

namespace Run

variable {step step' : W → L → W → Prop} {w w' : W} {ts : List (W × L × W)}

/-- An invariant of the history and the state holds at the end of every run. -/
theorem history {I : List (W × L × W) → W → Prop} (h : Run step w ts w') (h0 : I [] w)
    (hs : ∀ ts w₁ l w₂, I ts w₁ → step w₁ l w₂ → I (ts ++ [(w₁, l, w₂)]) w₂) : I ts w' := by
  induction h with
  | refl => exact h0
  | tail _ hst ih => exact hs _ _ _ _ ih hst

/-- A state invariant holds at the end of every run. -/
theorem invariant {I : W → Prop} (h : Run step w ts w') (h0 : I w)
    (hs : ∀ w₁ l w₂, I w₁ → step w₁ l w₂ → I w₂) : I w' :=
  h.history (I := fun _ w => I w) h0 fun _ => hs

/-- An invariant that makes every step do what it should. -/
theorem each {I : W → Prop} {P : W → L → W → Prop} (h : Run step w ts w') (h0 : I w)
    (hs : ∀ w₁ l w₂, I w₁ → step w₁ l w₂ → P w₁ l w₂ ∧ I w₂) :
    (∀ t ∈ ts, P t.1 t.2.1 t.2.2) ∧ I w' := by
  induction h with
  | refl => exact ⟨fun _ ht => absurd ht (by simp), h0⟩
  | tail _ hst ih =>
    obtain ⟨hstep, hnext⟩ := hs _ _ _ ih.2 hst
    refine ⟨fun t ht => ?_, hnext⟩
    rcases List.mem_append.mp ht with ht | ht
    · exact ih.1 t ht
    · exact List.mem_singleton.mp ht ▸ hstep

/-- A run whose transitions all meet a condition is a run of the system restricted to it. -/
theorem restrictStep {P : W → L → W → Prop} (h : Run step w ts w')
    (hok : ∀ t ∈ ts, P t.1 t.2.1 t.2.2) : Run (fun a l b => P a l b ∧ step a l b) w ts w' := by
  induction h with
  | refl => exact .refl
  | @tail w₁ w₂ l ts _ hst ih =>
    refine .tail (ih fun t ht => hok t (List.mem_append_left _ ht)) ⟨?_, hst⟩
    exact hok (w₁, l, w₂) (List.mem_append_right _ List.mem_cons_self)

/-- The same for a condition on the state before and the label. -/
theorem restrict {P : W → L → Prop} (h : Run step w ts w')
    (hok : ∀ t ∈ ts, P t.1 t.2.1) : Run (fun a l b => P a l ∧ step a l b) w ts w' :=
  h.restrictStep (P := fun a l _ => P a l) hok

theorem steps (h : Run step w ts w') : ∀ t ∈ ts, step t.1 t.2.1 t.2.2 := by
  induction h with
  | refl => exact fun _ ht => absurd ht (by simp)
  | tail _ hst ih =>
    intro t ht
    rcases List.mem_append.mp ht with ht | ht
    · exact ih t ht
    · exact List.mem_singleton.mp ht ▸ hst

theorem mono (h : Run step w ts w') (hle : ∀ a l b, step a l b → step' a l b) :
    Run step' w ts w' := by
  induction h with
  | refl => exact .refl
  | tail _ hst ih => exact .tail ih (hle _ _ _ hst)

theorem head {w₀ : W} {l : L} (hst : step w₀ l w) (h : Run step w ts w') :
    Run step w₀ ((w₀, l, w) :: ts) w' := by
  induction h with
  | refl => exact .tail .refl hst
  | tail _ hst' ih => exact .tail ih hst'

theorem append {w'' : W} {us : List (W × L × W)} (h : Run step w ts w')
    (h' : Run step w' us w'') : Run step w (ts ++ us) w'' := by
  induction h' with
  | refl => simpa using h
  | tail _ hst ih =>
    rw [← List.append_assoc]
    exact .tail ih hst

/-- The last transition of a run. -/
theorem last {t : W × L × W} (h : Run step w (ts ++ [t]) w') :
    Run step w ts t.1 ∧ step t.1 t.2.1 t.2.2 ∧ t.2.2 = w' := by
  generalize hl : ts ++ [t] = l at h
  cases h with
  | refl => simp at hl
  | tail h hst =>
    obtain ⟨rfl, ht⟩ := List.append_inj' hl rfl
    obtain rfl := List.singleton_inj.mp ht
    exact ⟨h, hst, rfl⟩

/-- A run of two parts is two runs. -/
theorem split {us : List (W × L × W)} (h : Run step w (ts ++ us) w') :
    ∃ w₁, Run step w ts w₁ ∧ Run step w₁ us w' := by
  induction us using List.reverseRecOn generalizing w' with
  | nil => exact ⟨w', by simpa using h, .refl⟩
  | append_singleton us t ih =>
    rw [← List.append_assoc] at h
    obtain ⟨hinit, hst, rfl⟩ := h.last
    obtain ⟨w₁, hts, hus⟩ := ih hinit
    exact ⟨w₁, hts, hus.tail hst⟩

/-- A stretch of a run is a run. -/
theorem stretch {us : List (W × L × W)} (h : Run step w ts w') (hus : us <:+: ts) :
    ∃ w₁ w₂, Run step w₁ us w₂ := by
  obtain ⟨pre, post, rfl⟩ := hus
  obtain ⟨w₂, hinit, -⟩ := h.split
  obtain ⟨w₁, -, hrun⟩ := hinit.split
  exact ⟨w₁, w₂, hrun⟩

end Run

end Lib
