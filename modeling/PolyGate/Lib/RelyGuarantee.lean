import PolyGate.Lib.Prog
import PolyGate.Lib.Run

/-!
# `Lib/RelyGuarantee.lean` — programs beside other programs

`Safe exec rely guar post p s`: started in `s`, with the others changing the world only within
`rely` before each of its commands, `p` changes it only within `guar`, and whatever it ends
with satisfies `post`. The guarantee sees the program before and after the step, so it can say
"this step takes the item out, and what is left will put it back".

A `Pool` is a shared world and one program per thread. `Pool.safe_step` is the parallel rule:
when each thread's guarantee is within every other thread's rely, one step of the pool keeps
every thread safe. A thread may also rely on what the others are still going to do: its state
is then the world together with a ghost value computed from each thread's program.
-/

namespace Lib

variable {C : Type} {R : C → Type} {ε α β σ γ ι : Type}

namespace Prog

def Safe (exec : Exec C R ε σ) (rely : σ → σ → Prop)
    (guar : σ → Prog C R ε α → σ → Prog C R ε α → Prop) (post : Except ε α → σ → Prop) :
    Prog C R ε α → σ → Prop
  | .ret a, s => ∀ s', rely s s' → post (.ok a) s'
  | .raise e, s => ∀ s', rely s s' → post (.error e) s'
  | .cmd c k, s => ∀ s', rely s s' → ∀ v s'', exec s' c v s'' →
      guar s' (.cmd c k) s'' (k v) ∧ Safe exec rely guar post (k v) s''

section
variable {exec : Exec C R ε σ} {rely : σ → σ → Prop}
  {guar : σ → Prog C R ε α → σ → Prog C R ε α → Prop}
  {post post' : Except ε α → σ → Prop} {p : Prog C R ε α} {s s' : σ}

@[simp] theorem safe_ret {a : α} :
    Safe exec rely guar post (.ret a) s ↔ ∀ s', rely s s' → post (.ok a) s' := Iff.rfl

@[simp] theorem safe_raise {e : ε} :
    Safe exec rely guar post (.raise e) s ↔ ∀ s', rely s s' → post (.error e) s' := Iff.rfl

/-- The command rule for a program that is alone. -/
theorem safe_cmd_alone {c : C} {k : Except ε (R c) → Prog C R ε α} :
    Safe exec Eq guar post (.cmd c k) s ↔ ∀ v s', exec s c v s' →
      guar s (.cmd c k) s' (k v) ∧ Safe exec Eq guar post (k v) s' :=
  ⟨fun h => h s rfl, fun h _ hs => hs ▸ h⟩

/-- The command rule in a world in which no command raises. -/
theorem safe_onReply {ans : σ → (c : C) → R c → σ → Prop} {c : C} {f : R c → Prog C R ε α} :
    Safe (.ofAnswers ans) rely guar post (.cmd c (onReply f)) s ↔
      ∀ s', rely s s' → ∀ x s'', ans s' c x s'' →
        guar s' (.cmd c (onReply f)) s'' (f x) ∧
          Safe (.ofAnswers ans) rely guar post (f x) s'' := by
  constructor
  · exact fun h s' hr x s'' hx => h s' hr (.ok x) s'' ⟨x, rfl, hx⟩
  · rintro h s' hr _ s'' ⟨x, rfl, hx⟩
    exact h s' hr x s'' hx

/-- What the others do within the rely leaves a program safe. -/
theorem Safe.stable (trans : ∀ a b c, rely a b → rely b c → rely a c)
    (h : Safe exec rely guar post p s) (hr : rely s s') : Safe exec rely guar post p s' := by
  cases p with
  | ret a => exact fun t ht => h t (trans _ _ _ hr ht)
  | raise e => exact fun t ht => h t (trans _ _ _ hr ht)
  | cmd c k => exact fun t ht => h t (trans _ _ _ hr ht)

theorem Safe.weaken (h : Safe exec rely guar post p s)
    (himp : ∀ o t, post o t → post' o t) : Safe exec rely guar post' p s := by
  induction p generalizing s with
  | ret a => exact fun t ht => himp _ _ (h t ht)
  | raise e => exact fun t ht => himp _ _ (h t ht)
  | cmd c k ih => exact fun t ht v t' hx => ⟨(h t ht v t' hx).1, ih v (h t ht v t' hx).2⟩

/-- A guarantee is only ever looked at where a command is sent. -/
theorem Safe.weakenGuar {guar' : σ → Prog C R ε α → σ → Prog C R ε α → Prop}
    (h : Safe exec rely guar post p s)
    (himp : ∀ a c k b v, guar a (.cmd c k) b (k v) → guar' a (.cmd c k) b (k v)) :
    Safe exec rely guar' post p s := by
  induction p generalizing s with
  | ret a => exact h
  | raise e => exact h
  | cmd c k ih =>
    exact fun t ht v t' hx => ⟨himp t c k t' v (h t ht v t' hx).1, ih v (h t ht v t' hx).2⟩

/-- The sequence rule. The first part is checked against the guarantee of the whole, read at
the program it leaves followed by the second part. -/
theorem Safe.bind {guar : σ → Prog C R ε β → σ → Prog C R ε β → Prop}
    {post : Except ε β → σ → Prop} {mid : Except ε α → σ → Prop} {f : α → Prog C R ε β}
    (refl : ∀ a, rely a a)
    (h : Safe exec rely (fun a p b q => guar a (p >>= f) b (q >>= f)) mid p s)
    (hf : ∀ a t, mid (.ok a) t → Safe exec rely guar post (f a) t)
    (he : ∀ e t, mid (.error e) t → post (.error e) t) :
    Safe exec rely guar post (p >>= f) s := by
  induction p generalizing s with
  | ret a => exact hf a s (h s (refl s))
  | raise e => exact fun t ht => he e t (h t ht)
  | cmd c k ih => exact fun t ht v t' hx => ⟨(h t ht v t' hx).1, ih v (h t ht v t' hx).2⟩

/-- The rule for a `try`. -/
theorem Safe.catch {guar' : σ → σ → Prop} {mid : Except ε α → σ → Prop} {f : ε → Prog C R ε α}
    (refl : ∀ a, rely a a) (h : Safe exec rely (fun a _ b _ => guar' a b) mid p s)
    (hf : ∀ e t, mid (.error e) t → Safe exec rely (fun a _ b _ => guar' a b) post (f e) t)
    (hr : ∀ a t, mid (.ok a) t → post (.ok a) t) :
    Safe exec rely (fun a _ b _ => guar' a b) post (tryCatch p f) s := by
  induction p generalizing s with
  | ret a => exact fun t ht => hr a t (h t ht)
  | raise e => exact hf e s (h s (refl s))
  | cmd c k ih => exact fun t ht v t' hx => ⟨(h t ht v t' hx).1, ih v (h t ht v t' hx).2⟩

/-- Run alone, a safe program ends within its postcondition. -/
theorem Safe.runs {o : Except ε α} (refl : ∀ a, rely a a) (h : Safe exec rely guar post p s)
    (hr : Runs exec p s o s') : post o s' := by
  induction p generalizing s with
  | ret a =>
    obtain ⟨rfl, rfl⟩ := hr
    exact h _ (refl _)
  | raise e =>
    obtain ⟨rfl, rfl⟩ := hr
    exact h _ (refl _)
  | cmd c k ih =>
    obtain ⟨v, s₁, hx, hr⟩ := hr
    exact ih v (h s (refl s) v s₁ hx).2 hr

/-- Run alone, a safe program stays safe. -/
theorem Safe.steps {q : Prog C R ε α} (refl : ∀ a, rely a a)
    (h : Safe exec rely guar post p s) (hst : Steps exec p s q s') :
    Safe exec rely guar post q s' := by
  induction hst with
  | refl => exact h
  | @cmd c k v q s s₁ s' hx _ ih => exact ih (h s (refl s) v s₁ hx).2

end

end Prog

/-! ## Pools of threads -/

/-- A shared world and the program each thread has left. -/
structure Pool (ι σ C : Type) (R : C → Type) (ε α : Type) where
  shared : σ
  threads : ι → Prog C R ε α

/-- A world with a ghost value for every thread; commands leave the ghost values alone. -/
def Exec.withGhost (exec : Exec C R ε σ) : Exec C R ε (σ × (ι → γ)) :=
  fun s c v s' => exec s.1 c v s'.1 ∧ s'.2 = s.2

namespace Pool

variable [DecidableEq ι]

/-- One thread executes its next command. -/
inductive Step (exec : ι → Exec C R ε σ) (w : Pool ι σ C R ε α) :
    ι × C → Pool ι σ C R ε α → Prop
  | run {i : ι} {c : C} {k : Except ε (R c) → Prog C R ε α} {v : Except ε (R c)} {s : σ}
      (next : w.threads i = .cmd c k) (does : exec i w.shared c v s) :
      Step exec w (i, c) ⟨s, Function.update w.threads i (k v)⟩

/-- A step leaves the programs of the other threads alone. -/
theorem Step.frame {exec : ι → Exec C R ε σ} {w w' : Pool ι σ C R ε α} {l : ι × C}
    (hst : Step exec w l w') {j : ι} (hj : j ≠ l.1) : w'.threads j = w.threads j := by
  cases hst with
  | run next does => exact Function.update_of_ne hj ..

/-- The world as a thread sees it: what is shared, and a ghost value of every program. -/
def view (ghost : Prog C R ε α → γ) (w : Pool ι σ C R ε α) : σ × (ι → γ) :=
  (w.shared, fun i => ghost (w.threads i))

/-- **The parallel rule with ghosts.** Each thread is safe under its own rely, which does not depend
on its own ghost value, and each thread's steps are within the others' relies: then one step of the
pool is within the guarantee of the thread that took it, and leaves every thread safe. -/
theorem safe_step_ghost {exec : ι → Exec C R ε σ} {ghost : Prog C R ε α → γ}
    {rely : ι → σ × (ι → γ) → σ × (ι → γ) → Prop}
    {guar : ι → σ × (ι → γ) → Prog C R ε α → σ × (ι → γ) → Prog C R ε α → Prop}
    {post : ι → Except ε α → σ × (ι → γ) → Prop} {w w' : Pool ι σ C R ε α} {l : ι × C}
    (h : ∀ i, Prog.Safe (exec i).withGhost (rely i) (guar i) (post i) (w.threads i)
      (w.view ghost))
    (hst : Step exec w l w')
    (refl : ∀ i a, rely i a a) (trans : ∀ i a b c, rely i a b → rely i b c → rely i a c)
    (own : ∀ i s g x, rely i (s, g) (s, Function.update g i x))
    (sides : ∀ i j s p s' q g, i ≠ j → g i = ghost p → guar i (s, g) p (s', g) q →
      rely j (s, g) (s', Function.update g i (ghost q))) :
    guar l.1 (w.view ghost) (w.threads l.1) (w'.shared, (w.view ghost).2) (w'.threads l.1) ∧
    ∀ i, Prog.Safe (exec i).withGhost (rely i) (guar i) (post i) (w'.threads i)
      (w'.view ghost) := by
  cases hst with
  | @run i c k v s next does =>
  have hi := h i
  rw [next] at hi
  obtain ⟨hg, hk⟩ := hi (w.view ghost) (refl i _) v (s, (w.view ghost).2) ⟨does, rfl⟩
  have hview : view ghost ⟨s, Function.update w.threads i (k v)⟩ =
      (s, Function.update (w.view ghost).2 i (ghost (k v))) := by
    refine Prod.ext rfl (funext fun j => ?_)
    rcases eq_or_ne j i with rfl | hj
    · simp [view]
    · simp [view, Function.update_of_ne hj]
  rw [hview]
  refine ⟨by simpa [next] using hg, fun j => ?_⟩
  rcases eq_or_ne j i with rfl | hj
  · simpa using hk.stable (trans j) (own j s _ (ghost (k v)))
  · have hr := sides i j w.shared (.cmd c k) s (k v) (w.view ghost).2 hj.symm
      (by simp [view, next]) hg
    simpa [Function.update_of_ne hj] using (h j).stable (trans j) hr

/-- **The parallel rule**, for threads that rely on the shared world only. -/
theorem safe_step {exec : ι → Exec C R ε σ} {rely : ι → σ → σ → Prop}
    {guar : ι → σ → Prog C R ε α → σ → Prog C R ε α → Prop}
    {post : ι → Except ε α → σ → Prop} {w w' : Pool ι σ C R ε α} {l : ι × C}
    (h : ∀ i, Prog.Safe (exec i) (rely i) (guar i) (post i) (w.threads i) w.shared)
    (hst : Step exec w l w')
    (refl : ∀ i a, rely i a a) (trans : ∀ i a b c, rely i a b → rely i b c → rely i a c)
    (sides : ∀ i j s p s' q, i ≠ j → guar i s p s' q → rely j s s') :
    guar l.1 w.shared (w.threads l.1) w'.shared (w'.threads l.1) ∧
    ∀ i, Prog.Safe (exec i) (rely i) (guar i) (post i) (w'.threads i) w'.shared := by
  cases hst with
  | @run i c k v s next does =>
  have hi := h i
  rw [next] at hi
  obtain ⟨hg, hk⟩ := hi w.shared (refl i _) v s does
  refine ⟨by simpa [next] using hg, fun j => ?_⟩
  rcases eq_or_ne j i with rfl | hj
  · simpa using hk
  · have hr := sides i j _ _ _ _ hj.symm hg
    simpa [Function.update_of_ne hj] using (h j).stable (trans j) hr

/-- What a thread's program can do alone, the pool can do by scheduling only that thread. -/
theorem schedule {exec : ι → Exec C R ε σ} (i : ι) {p q : Prog C R ε α} {s s' : σ}
    {threads : ι → Prog C R ε α} (hp : threads i = p) (h : Prog.Steps (exec i) p s q s') :
    ∃ ts, Run (Step exec) ⟨s, threads⟩ ts ⟨s', Function.update threads i q⟩ ∧
      ∀ t ∈ ts, t.2.1.1 = i := by
  induction h generalizing threads with
  | refl =>
    refine ⟨[], ?_, fun _ ht => absurd ht List.not_mem_nil⟩
    rw [← hp, Function.update_eq_self]
    exact .refl
  | @cmd c k v _ _ s₁ _ hx _ ih =>
    have hnext : Function.update threads i (k v) i = k v := Function.update_self ..
    obtain ⟨us, hrun, hlabels⟩ := ih hnext
    rw [Function.update_idem] at hrun
    exact ⟨_, Run.head (.run hp hx) hrun, List.forall_mem_cons.mpr ⟨rfl, hlabels⟩⟩

theorem run_thread {exec : ι → Exec C R ε σ} (i : ι) {p q : Prog C R ε α} {s s' : σ}
    {threads : ι → Prog C R ε α} (hp : threads i = p) (h : Prog.Steps (exec i) p s q s') :
    ∃ ts, Run (Step exec) ⟨s, threads⟩ ts ⟨s', Function.update threads i q⟩ := by
  obtain ⟨ts, hrun, -⟩ := schedule i hp h
  exact ⟨ts, hrun⟩

/-- A run goes on with one thread scheduled. -/
theorem run_on {exec : ι → Exec C R ε σ} {w₀ w : Pool ι σ C R ε α}
    {ts : List (Pool ι σ C R ε α × (ι × C) × Pool ι σ C R ε α)} {q : Prog C R ε α} {s' : σ}
    (hrun : Run (Step exec) w₀ ts w) (i : ι)
    (h : Prog.Steps (exec i) (w.threads i) w.shared q s') :
    ∃ us, Run (Step exec) w₀ us ⟨s', Function.update w.threads i q⟩ := by
  obtain ⟨us, hus⟩ := run_thread i rfl h
  exact ⟨_, hrun.append hus⟩

/-- A run in which every command is executed within a condition, read as one that meets it. -/
theorem run_within {exec : ι → Exec C R ε σ} {ok : σ → C → Prop} {w₀ w : Pool ι σ C R ε α}
    {ts : List (Pool ι σ C R ε α × (ι × C) × Pool ι σ C R ε α)}
    (hrun : Run (Step fun i => (exec i).within fun s c _ => ok s c) w₀ ts w) :
    Run (Step exec) w₀ ts w ∧ ∀ t ∈ ts, ok t.1.shared t.2.1.2 := by
  refine ⟨hrun.mono fun a l b hst => ?_, fun t ht => ?_⟩
  · cases hst with
    | run next does => exact .run next does.2
  · obtain ⟨w₁, l, w₂⟩ := t
    have hst := hrun.steps _ ht
    dsimp only at hst ⊢
    cases hst with
    | run next does => exact does.1

end Pool

end Lib
