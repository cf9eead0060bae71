import Mathlib.Algebra.Order.Ring.Rat
import PolyGate.Lib.Prog

/-!
# `Lib/Timed.lean` — programs in time, and deadlines

A `Pace` says how long the commands of a program take, and which answers they get when. With it a
program has timed runs, and `Ensures ok p t Q` says of all of them from the time `t` on: every
command of the run is `ok`, and `Q` holds of its outcome and its end. The rules take a program
apart; `Ensures.embed` and `Ensures.outcome` do so where each command stands for a program.

What is wanted of a deadline is `Deadline`: some commands are not sent from it on, and all but the
slow ones are over by it if they are sent by it. Then a run is over in time exactly when its slow
commands are: `Ensures.inTime`.
-/

namespace Lib.Prog

variable {C C' : Type} {R : C → Type} {R' : C' → Type} {ε ε' α β : Type}

/-- `takes t c x t'`: the command `c`, sent at `t`, is answered by `x` at `t'`. -/
structure Pace (C : Type) (R : C → Type) where
  takes : ℚ → (c : C) → R c → ℚ → Prop
  forward : ∀ {t c x t'}, takes t c x t' → t ≤ t'

/-- A command of a run. -/
structure Stamped (C : Type) (R : C → Type) where
  command : C
  answer : R command
  sent : ℚ
  answered : ℚ

/-- `TimedRun pace p t ss o t'`: from `t` to `t'`, `p` can send the commands of `ss` and end in
`o`. -/
def TimedRun (pace : Pace C R) :
    Prog C R ε α → ℚ → List (Stamped C R) → Except ε α → ℚ → Prop
  | .ret a, t, ss, o, t' => ss = [] ∧ o = .ok a ∧ t' = t
  | .raise e, t, ss, o, t' => ss = [] ∧ o = .error e ∧ t' = t
  | .cmd c k, t, ss, o, t' => ∃ x t₁ ss', pace.takes t c x t₁ ∧ ss = ⟨c, x, t, t₁⟩ :: ss' ∧
    TimedRun pace (k (.ok x)) t₁ ss' o t'

/-- `ok t c t'`: the command `c` may be sent at `t` and answered at `t'`. -/
abbrev Allowed (C : Type) := ℚ → C → ℚ → Prop

/-- In every timed run from `t` on the commands are allowed, and `Q` holds at the end. -/
def Ensures (pace : Pace C R) (ok : Allowed C) :
    Prog C R ε α → ℚ → (Except ε α → ℚ → Prop) → Prop
  | .ret a, t, Q => Q (.ok a) t
  | .raise e, t, Q => Q (.error e) t
  | .cmd c k, t, Q => ∀ x t', pace.takes t c x t' → ok t c t' ∧ Ensures pace ok (k (.ok x)) t' Q

section Rules
variable {pace : Pace C R} {pace' : Pace C' R'} {ok : Allowed C} {ok' : Allowed C'}
  {p : Prog C R ε α} {t : ℚ} {P Q : Except ε α → ℚ → Prop}

theorem Ensures.imp (h : Ensures pace ok p t P) (hPQ : ∀ o t', t ≤ t' → P o t' → Q o t') :
    Ensures pace ok p t Q := by
  induction p generalizing t with
  | ret a => exact hPQ _ _ le_rfl h
  | raise e => exact hPQ _ _ le_rfl h
  | cmd c k ih =>
    intro x t' hx
    obtain ⟨hok, hrest⟩ := h x t' hx
    exact ⟨hok, ih _ hrest fun o t'' hle => hPQ o t'' ((pace.forward hx).trans hle)⟩

theorem ensures_perform {c : C} {Q : Except ε (R c) → ℚ → Prop}
    (h : ∀ x t', pace.takes t c x t' → ok t c t' ∧ Q (.ok x) t') :
    Ensures pace ok (perform c : Prog C R ε (R c)) t Q :=
  h

theorem Ensures.andThen {f : Except ε α → Prog C R ε β} {Q : Except ε β → ℚ → Prop}
    (h : Ensures pace ok p t P) (hf : ∀ o t', t ≤ t' → P o t' → Ensures pace ok (f o) t' Q) :
    Ensures pace ok (p.andThen f) t Q := by
  induction p generalizing t with
  | ret a => exact hf _ _ le_rfl h
  | raise e => exact hf _ _ le_rfl h
  | cmd c k ih =>
    intro x t' hx
    obtain ⟨hok, hrest⟩ := h x t' hx
    exact ⟨hok, ih _ hrest fun o t'' hle => hf o t'' ((pace.forward hx).trans hle)⟩

theorem Ensures.bind {f : α → Prog C R ε β} {Q : Except ε β → ℚ → Prop}
    (h : Ensures pace ok p t P) (hf : ∀ a t', t ≤ t' → P (.ok a) t' → Ensures pace ok (f a) t' Q)
    (herror : ∀ e t', t ≤ t' → P (.error e) t' → Q (.error e) t') :
    Ensures pace ok (p >>= f) t Q := by
  rw [bind_eq_andThen]
  refine h.andThen fun o t' hle ho => ?_
  cases o with
  | ok a => exact hf a t' hle ho
  | error e => exact herror e t' hle ho

theorem Ensures.catch {f : ε → Prog C R ε α} (h : Ensures pace ok p t P)
    (hok : ∀ a t', t ≤ t' → P (.ok a) t' → Q (.ok a) t')
    (hf : ∀ e t', t ≤ t' → P (.error e) t' → Ensures pace ok (f e) t' Q) :
    Ensures pace ok (tryCatch p f) t Q := by
  rw [← andThen_ofOutcome (tryCatch p f), catch_andThen]
  refine h.andThen fun o t' hle ho => ?_
  cases o with
  | ok a => exact hok a t' hle ho
  | error e =>
    show Ensures pace ok ((f e).andThen ofOutcome) t' Q
    rw [andThen_ofOutcome]
    exact hf e t' hle ho

/-- As `ensures_of_only`, for commands that take no time. -/
theorem ensures_of_instant {S : C → Prop} (h : Only S p)
    (hok : ∀ t c x t', S c → pace.takes t c x t' → ok t c t' ∧ t' = t) :
    Ensures pace ok p t fun _ t' => t' = t := by
  induction p generalizing t with
  | ret a => rfl
  | raise e => rfl
  | cmd c k ih =>
    intro x t' hx
    obtain ⟨hallowed, rfl⟩ := hok t c x t' h.1 hx
    exact ⟨hallowed, ih _ (h.2 _)⟩

/-- The commands of `p` are done by programs that keep the pace of `p`, and may rely on what is
ensured of `p`. -/
theorem Ensures.embed {into : (c : C) → Prog C' R' ε' (R c)} {wrap : ε → ε'}
    (h : Ensures pace ok p t Q)
    (hinto : ∀ c t, (∀ x t', pace.takes t c x t' → ok t c t') →
      Ensures pace' ok' (into c) t fun o t' => ∃ x, o = .ok x ∧ pace.takes t c x t') :
    Ensures pace' ok' (p.embed into wrap) t fun o t' => ∃ o', o = o'.mapError wrap ∧ Q o' t' := by
  induction p generalizing t with
  | ret a => exact ⟨.ok a, rfl, h⟩
  | raise e => exact ⟨.error e, rfl, h⟩
  | cmd c k ih =>
    refine (hinto c t fun x t' hx => (h x t' hx).1).bind ?_ ?_
    · intro x t' _ hx
      obtain ⟨_, heq, hx⟩ := hx
      obtain rfl := Except.ok.inj heq
      exact ih _ (h x t' hx).2
    · intro e t' _ hx
      obtain ⟨_, heq, -⟩ := hx
      cases heq

/-- The same for a program whose outcome is returned. -/
theorem Ensures.outcome {into : (c : C) → Prog C' R' ε' (R c)} (h : Ensures pace ok p t Q)
    (hinto : ∀ c t, (∀ x t', pace.takes t c x t' → ok t c t') →
      Ensures pace' ok' (into c) t fun o t' => ∃ x, o = .ok x ∧ pace.takes t c x t') :
    Ensures pace' ok' (p.outcome into) t fun o t' => ∃ o', o = .ok o' ∧ Q o' t' := by
  induction p generalizing t with
  | ret a => exact ⟨.ok a, rfl, h⟩
  | raise e => exact ⟨.error e, rfl, h⟩
  | cmd c k ih =>
    refine (hinto c t fun x t' hx => (h x t' hx).1).bind ?_ ?_
    · intro x t' _ hx
      obtain ⟨_, heq, hx⟩ := hx
      obtain rfl := Except.ok.inj heq
      exact ih _ (h x t' hx).2
    · intro e t' _ hx
      obtain ⟨_, heq, -⟩ := hx
      cases heq

end Rules

/-! ## Runs -/

section Runs
variable {pace : Pace C R} {ok : Allowed C} {p : Prog C R ε α} {t t' : ℚ}
  {ss : List (Stamped C R)} {o : Except ε α} {Q : Except ε α → ℚ → Prop}

/-- The commands are sent one after the other, from `t` to `t'`. -/
def Paced (pace : Pace C R) : ℚ → List (Stamped C R) → ℚ → Prop
  | t, [], t' => t' = t
  | t, s :: ss, t' => s.sent = t ∧ pace.takes t s.command s.answer s.answered ∧
    Paced pace s.answered ss t'

/-- A timed run is what the program was seen to do, at its pace. -/
theorem timedRun_iff : TimedRun pace p t ss o t' ↔
    Emits p (ss.map fun s => ⟨s.command, s.answer⟩) o ∧ Paced pace t ss t' := by
  induction p generalizing t ss with
  | ret a =>
    constructor
    · rintro ⟨rfl, rfl, rfl⟩
      exact ⟨⟨rfl, rfl⟩, rfl⟩
    · rintro ⟨⟨hss, rfl⟩, hpaced⟩
      obtain rfl := List.map_eq_nil_iff.mp hss
      exact ⟨rfl, rfl, hpaced⟩
  | raise e =>
    constructor
    · rintro ⟨rfl, rfl, rfl⟩
      exact ⟨⟨rfl, rfl⟩, rfl⟩
    · rintro ⟨⟨hss, rfl⟩, hpaced⟩
      obtain rfl := List.map_eq_nil_iff.mp hss
      exact ⟨rfl, rfl, hpaced⟩
  | cmd c k ih =>
    constructor
    · rintro ⟨x, t₁, ss', hx, rfl, hrest⟩
      obtain ⟨hemits, hpaced⟩ := (ih _).mp hrest
      exact ⟨⟨x, _, rfl, hemits⟩, rfl, hx, hpaced⟩
    · rintro ⟨⟨x, es, hss, hemits⟩, hpaced⟩
      cases ss with
      | nil => cases hss
      | cons s ss =>
        obtain ⟨c', x', sent, answered⟩ := s
        obtain ⟨hhead, rfl⟩ := List.cons.inj hss
        cases hhead
        obtain ⟨rfl, hx, hpaced⟩ := hpaced
        exact ⟨x', answered, ss, hx, rfl, (ih _).mpr ⟨hemits, hpaced⟩⟩

theorem TimedRun.forward (h : TimedRun pace p t ss o t') :
    t ≤ t' ∧ ∀ s ∈ ss, s.answered ≤ t' := by
  induction p generalizing t ss with
  | ret a =>
    obtain ⟨rfl, -, rfl⟩ := h
    exact ⟨le_rfl, fun s hs => absurd hs List.not_mem_nil⟩
  | raise e =>
    obtain ⟨rfl, -, rfl⟩ := h
    exact ⟨le_rfl, fun s hs => absurd hs List.not_mem_nil⟩
  | cmd c k ih =>
    obtain ⟨x, t₁, ss', hx, rfl, hrest⟩ := h
    obtain ⟨hle, hall⟩ := ih _ hrest
    exact ⟨(pace.forward hx).trans hle, List.forall_mem_cons.mpr ⟨hle, hall⟩⟩

theorem Ensures.sound (h : Ensures pace ok p t Q) (hrun : TimedRun pace p t ss o t') :
    (∀ s ∈ ss, ok s.sent s.command s.answered) ∧ Q o t' := by
  induction p generalizing t ss with
  | ret a =>
    obtain ⟨rfl, rfl, rfl⟩ := hrun
    exact ⟨fun s hs => absurd hs List.not_mem_nil, h⟩
  | raise e =>
    obtain ⟨rfl, rfl, rfl⟩ := hrun
    exact ⟨fun s hs => absurd hs List.not_mem_nil, h⟩
  | cmd c k ih =>
    obtain ⟨x, t₁, ss', hx, rfl, hrest⟩ := hrun
    obtain ⟨hok, hensures⟩ := h x t₁ hx
    obtain ⟨hall, hQ⟩ := ih _ hensures hrest
    exact ⟨List.forall_mem_cons.mpr ⟨hok, hall⟩, hQ⟩

/-- Commands that `begins` marks are sent before the deadline, and all but the `slow` ones that
are sent by the deadline are answered by it. -/
def Deadline (deadline : ℚ) (begins slow : C → Prop) : Allowed C := fun t c t' =>
  (begins c → t < deadline) ∧ (slow c ∨ (t ≤ deadline → t' ≤ deadline))

/-- **A run is over by the deadline exactly when its slow commands are.** -/
theorem Ensures.inTime {deadline : ℚ} {begins slow : C → Prop}
    (h : Ensures pace (Deadline deadline begins slow) p t Q) (hrun : TimedRun pace p t ss o t')
    (ht : t ≤ deadline) :
    (∀ s ∈ ss, begins s.command → s.sent < deadline) ∧
      (t' ≤ deadline ↔ ∀ s ∈ ss, slow s.command → s.answered ≤ deadline) := by
  refine ⟨fun s hs => ((h.sound hrun).1 s hs).1, fun ht' s hs _ => ?_, fun hslow => ?_⟩
  · exact (hrun.forward.2 s hs).trans ht'
  · induction p generalizing t ss with
    | ret a =>
      obtain ⟨-, -, rfl⟩ := hrun
      exact ht
    | raise e =>
      obtain ⟨-, -, rfl⟩ := hrun
      exact ht
    | cmd c k ih =>
      obtain ⟨x, t₁, ss', hx, rfl, hrest⟩ := hrun
      obtain ⟨hok, hensures⟩ := h x t₁ hx
      rw [List.forall_mem_cons] at hslow
      have ht₁ : t₁ ≤ deadline := hok.2.elim hslow.1 fun hfast => hfast ht
      exact ih _ hensures hrest ht₁ hslow.2

end Runs

end Lib.Prog
