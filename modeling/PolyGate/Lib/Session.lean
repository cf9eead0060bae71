import PolyGate.Lib.RelyGuarantee

/-!
# `Lib/Session.lean` — calls one after another

A session runs one program at a time on a world; what is left of the call in progress is part
of its state, so a run shows every command and not only what each call comes to.

`Session.invariant` is the rule: what holds between calls is kept if every call, begun where it
holds, is safe and ends where it holds. As for `Run.restrict`, the rule takes a condition that
every command of the run meets.
-/

namespace Lib

variable {Q C : Type} {R : C → Type} {ε α σ : Type}

structure Session (σ C : Type) (R : C → Type) (ε α : Type) where
  world : σ
  /-- what the call in progress has left -/
  call : Option (Prog C R ε α)

namespace Session

inductive Label (Q C : Type)
  | begin (q : Q)
  | command (c : C) (answered : Bool)
  | finish

inductive Step (exec : Exec C R ε σ) (program : Q → Prog C R ε α) (w : Session σ C R ε α) :
    Label Q C → Session σ C R ε α → Prop
  | begin {q : Q} (idle : w.call = none) :
      Step exec program w (.begin q) ⟨w.world, some (program q)⟩
  | command {c : C} {k : Except ε (R c) → Prog C R ε α} {v : Except ε (R c)} {s : σ}
      (next : w.call = some (.cmd c k)) (does : exec w.world c v s) :
      Step exec program w (.command c v.isOk) ⟨s, some (k v)⟩
  | finish {o : Except ε α} (ended : w.call = some (.ofOutcome o)) :
      Step exec program w .finish ⟨w.world, none⟩

/-- Between calls `I` holds; a call in progress is safe and will end where it does. -/
def Within (exec : Exec C R ε σ) (ok : σ → C → Bool → Prop) (I : σ → Prop)
    (w : Session σ C R ε α) : Prop :=
  match w.call with
  | none => I w.world
  | some p => p.Safe (exec.within ok) Eq (fun _ _ _ _ => True) (fun _ s => I s) w.world

section
variable {exec : Exec C R ε σ} {program : Q → Prog C R ε α} {ok : σ → C → Bool → Prop}
  {I : σ → Prop} {w w' : Session σ C R ε α}

theorem Within.step {l : Label Q C} (h : w.Within exec ok I)
    (hst : Step exec program w l w') (hok : ∀ c a, l = .command c a → ok w.world c a)
    (hcall : ∀ q s, I s →
      (program q).Safe (exec.within ok) Eq (fun _ _ _ _ => True) (fun _ s => I s) s) :
    w'.Within exec ok I := by
  cases hst with
  | begin idle =>
    rw [Within, idle] at h
    exact hcall _ _ h
  | @command c k v s next does =>
    rw [Within, next] at h
    exact (Prog.safe_cmd_alone.mp h v s ⟨hok _ _ rfl, does⟩).2
  | @finish o ended =>
    rw [Within, ended] at h
    cases o with
    | ok a => exact h _ rfl
    | error e => exact h _ rfl

/-- **What every call keeps holds between calls.** -/
theorem invariant {s₀ : σ} {ts : List (Session σ C R ε α × Label Q C × Session σ C R ε α)}
    (hrun : Run (Step exec program) ⟨s₀, none⟩ ts w)
    (hok : ∀ t ∈ ts, ∀ c a, t.2.1 = .command c a → ok t.1.world c a) (h0 : I s₀)
    (hcall : ∀ q s, I s →
      (program q).Safe (exec.within ok) Eq (fun _ _ _ _ => True) (fun _ s => I s) s)
    (hidle : w.call = none) : I w.world := by
  have hres : Run (fun a l b => (∀ c r, l = .command c r → ok a.world c r) ∧
      Step exec program a l b) ⟨s₀, none⟩ ts w := hrun.restrict hok
  have hw : w.Within exec ok I := hres.invariant (I := Within exec ok I) h0
    fun _ _ _ h hst => h.step hst.2 hst.1 hcall
  rwa [Within, hidle] at hw

/-- As `Within`, and every command does what `G` says. -/
def Guarded (exec : Exec C R ε σ) (G : σ → σ → Prop) (I : σ → Prop) (w : Session σ C R ε α) :
    Prop :=
  match w.call with
  | none => I w.world
  | some p => p.Safe exec Eq (fun s _ s' _ => G s s') (fun _ s => I s) w.world

theorem Guarded.step {G : σ → σ → Prop} {l : Label Q C} (h : w.Guarded exec G I)
    (hst : Step exec program w l w') (hrefl : ∀ s, G s s)
    (hcall : ∀ q s, I s → (program q).Safe exec Eq (fun s _ s' _ => G s s') (fun _ s => I s) s) :
    G w.world w'.world ∧ w'.Guarded exec G I := by
  cases hst with
  | begin idle =>
    rw [Guarded, idle] at h
    exact ⟨hrefl _, hcall _ _ h⟩
  | @command c k v s next does =>
    rw [Guarded, next] at h
    exact Prog.safe_cmd_alone.mp h v s does
  | @finish o ended =>
    rw [Guarded, ended] at h
    refine ⟨hrefl _, ?_⟩
    cases o with
    | ok a => exact h _ rfl
    | error e => exact h _ rfl

/-- A call that runs to its end, as a run of the session. -/
theorem run_call (q : Q) {s s' : σ} {o : Except ε α} (h : (program q).Runs exec s o s') :
    ∃ ts, Run (Step exec program) ⟨s, none⟩ ts ⟨s', none⟩ := by
  have hrun : ∀ {p p' : Prog C R ε α} {a b : σ}, Prog.Steps exec p a p' b →
      ∃ ts, Run (Step exec program) ⟨a, some p⟩ ts ⟨b, some p'⟩ := by
    intro p p' a b hst
    induction hst with
    | refl => exact ⟨[], .refl⟩
    | cmd hx _ ih =>
      obtain ⟨ts, hts⟩ := ih
      exact ⟨_, .head (.command rfl hx) hts⟩
  obtain ⟨ts, hts⟩ := hrun h.steps
  exact ⟨_, .head (.begin rfl) (.tail hts (.finish rfl))⟩

/-- A run in which every command is executed within a condition, read as one that meets it. -/
theorem run_within {s₀ : Session σ C R ε α}
    {ts : List (Session σ C R ε α × Label Q C × Session σ C R ε α)}
    (hrun : Run (Step (exec.within ok) program) s₀ ts w) :
    Run (Step exec program) s₀ ts w ∧
      ∀ t ∈ ts, ∀ c a, t.2.1 = .command c a → ok t.1.world c a := by
  refine ⟨hrun.mono fun a l b hst => ?_, fun t ht c a hl => ?_⟩
  · cases hst with
    | begin idle => exact .begin idle
    | command next does => exact .command next does.2
    | finish ended => exact .finish ended
  · obtain ⟨w₁, l, w₂⟩ := t
    have hst := hrun.steps _ ht
    dsimp only at hl hst
    subst hl
    cases hst with
    | command next does => exact does.1

end

end Session

end Lib
