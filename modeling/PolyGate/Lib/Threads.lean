import PolyGate.Lib.RelyGuarantee

/-!
# `Lib/Threads.lean` — threads that make one call after another

Each thread is idle or has a call in progress, and begins whichever call it likes next. Between
the commands the world may also move by itself.

`Threads.Within.step` is the parallel rule of `Lib/RelyGuarantee` for calls that come and go: an
invariant `inv` of the world, a condition `idle` on it for each thread between its calls, and for
each call that it is safe from there and ends there. `Threads.alone` is about a call that no other
call runs beside, and is total: the steps of its own thread bring it to its end from wherever it
stands. `Threads.own_le` bounds their number.
-/

namespace Lib

variable {ι Q C : Type} {R : C → Type} {ε α β σ : Type}

namespace Prog

/-- Total correctness beside others: every command of `p` can be executed, and whatever `p` ends
with satisfies `post`. -/
def Completes (exec : Exec C R ε σ) (rely : σ → σ → Prop) (post : Except ε α → σ → Prop) :
    Prog C R ε α → σ → Prop
  | .ret a, s => ∀ s', rely s s' → post (.ok a) s'
  | .raise e, s => ∀ s', rely s s' → post (.error e) s'
  | .cmd c k, s => ∀ s', rely s s' → (∃ v s'', exec s' c v s'') ∧
      ∀ v s'', exec s' c v s'' → Completes exec rely post (k v) s''

section
variable {exec : Exec C R ε σ} {rely : σ → σ → Prop} {post : Except ε α → σ → Prop}
  {p : Prog C R ε α} {s s' : σ}

theorem Completes.stable (trans : ∀ a b c, rely a b → rely b c → rely a c)
    (h : Completes exec rely post p s) (hr : rely s s') : Completes exec rely post p s' := by
  cases p with
  | ret a => exact fun t ht => h t (trans _ _ _ hr ht)
  | raise e => exact fun t ht => h t (trans _ _ _ hr ht)
  | cmd c k => exact fun t ht => h t (trans _ _ _ hr ht)

theorem Completes.weaken {post' : Except ε α → σ → Prop} (h : Completes exec rely post p s)
    (himp : ∀ o t, post o t → post' o t) : Completes exec rely post' p s := by
  induction p generalizing s with
  | ret a => exact fun t ht => himp _ _ (h t ht)
  | raise e => exact fun t ht => himp _ _ (h t ht)
  | cmd c k ih =>
    intro t ht
    obtain ⟨hcan, hall⟩ := h t ht
    exact ⟨hcan, fun v t' hx => ih v (hall v t' hx)⟩

theorem completes_ofOutcome {o : Except ε α} :
    Completes exec rely post (.ofOutcome o) s ↔ ∀ s', rely s s' → post o s' := by
  cases o <;> exact Iff.rfl

theorem safe_ofOutcome {guar : σ → Prog C R ε α → σ → Prog C R ε α → Prop} {o : Except ε α} :
    Safe exec rely guar post (.ofOutcome o) s ↔ ∀ s', rely s s' → post o s' := by
  cases o <;> exact Iff.rfl

/-- Going on after either outcome. -/
theorem Completes.andThen {mid : Except ε α → σ → Prop} {post : Except ε β → σ → Prop}
    {f : Except ε α → Prog C R ε β} (refl : ∀ a, rely a a) (h : Completes exec rely mid p s)
    (hf : ∀ o t, mid o t → Completes exec rely post (f o) t) :
    Completes exec rely post (p.andThen f) s := by
  induction p generalizing s with
  | ret a => exact hf _ s (h s (refl s))
  | raise e => exact hf _ s (h s (refl s))
  | cmd c k ih =>
    intro t ht
    obtain ⟨hcan, hall⟩ := h t ht
    exact ⟨hcan, fun v t' hx => ih v (hall v t' hx)⟩

theorem Completes.bind {mid : Except ε α → σ → Prop} {post : Except ε β → σ → Prop}
    {f : α → Prog C R ε β} (refl : ∀ a, rely a a) (h : Completes exec rely mid p s)
    (hf : ∀ a t, mid (.ok a) t → Completes exec rely post (f a) t)
    (he : ∀ e t, mid (.error e) t → post (.error e) t) :
    Completes exec rely post (p >>= f) s := by
  induction p generalizing s with
  | ret a => exact hf a s (h s (refl s))
  | raise e => exact fun t ht => he e t (h t ht)
  | cmd c k ih =>
    intro t ht
    obtain ⟨hcan, hall⟩ := h t ht
    exact ⟨hcan, fun v t' hx => ih v (hall v t' hx)⟩

theorem Completes.catch {mid : Except ε α → σ → Prop} {f : ε → Prog C R ε α}
    (refl : ∀ a, rely a a) (h : Completes exec rely mid p s)
    (hf : ∀ e t, mid (.error e) t → Completes exec rely post (f e) t)
    (hr : ∀ a t, mid (.ok a) t → post (.ok a) t) :
    Completes exec rely post (tryCatch p f) s := by
  induction p generalizing s with
  | ret a => exact fun t ht => hr a t (h t ht)
  | raise e => exact hf e s (h s (refl s))
  | cmd c k ih =>
    intro t ht
    obtain ⟨hcan, hall⟩ := h t ht
    exact ⟨hcan, fun v t' hx => ih v (hall v t' hx)⟩

theorem completes_perform {c : C} {post : Except ε (R c) → σ → Prop}
    (h : ∀ t, rely s t → (∃ v t', exec t c v t') ∧
      ∀ v t', exec t c v t' → ∀ t'', rely t' t'' → post v t'') :
    Completes exec rely post (perform c) s := by
  intro t ht
  obtain ⟨hcan, hall⟩ := h t ht
  refine ⟨hcan, fun v t' hx => ?_⟩
  cases v with
  | ok a => exact hall _ t' hx
  | error e => exact hall _ t' hx

variable {guar : σ → σ → Prop}

theorem Safe.andThen {mid : Except ε α → σ → Prop} {post : Except ε β → σ → Prop}
    {f : Except ε α → Prog C R ε β} (refl : ∀ a, rely a a)
    (h : Safe exec rely (fun a _ b _ => guar a b) mid p s)
    (hf : ∀ o t, mid o t → Safe exec rely (fun a _ b _ => guar a b) post (f o) t) :
    Safe exec rely (fun a _ b _ => guar a b) post (p.andThen f) s := by
  induction p generalizing s with
  | ret a => exact hf _ s (h s (refl s))
  | raise e => exact hf _ s (h s (refl s))
  | cmd c k ih =>
    exact fun t ht v t' hx => ⟨(h t ht v t' hx).1, ih v (h t ht v t' hx).2⟩

theorem safe_perform {c : C} {post : Except ε (R c) → σ → Prop}
    (h : ∀ t, rely s t → ∀ v t', exec t c v t' → guar t t' ∧ ∀ t'', rely t' t'' → post v t'') :
    Safe exec rely (fun a _ b _ => guar a b) post (perform c) s := by
  intro t ht v t' hx
  obtain ⟨hg, hpost⟩ := h t ht v t' hx
  refine ⟨hg, ?_⟩
  cases v with
  | ok a => exact hpost
  | error e => exact hpost

end

/-- Whatever it is answered, the program ends after at most `n` commands. -/
def AtMost : Prog C R ε α → Nat → Prop
  | .ret _, _ => True
  | .raise _, _ => True
  | .cmd _ _, 0 => False
  | .cmd _ k, n + 1 => ∀ v, AtMost (k v) n

section
variable {p : Prog C R ε α} {m n : Nat}

theorem AtMost.mono (h : AtMost p m) (hle : m ≤ n) : AtMost p n := by
  induction p generalizing m n with
  | ret a => trivial
  | raise e => trivial
  | cmd c k ih =>
    cases m with
    | zero => exact absurd h id
    | succ m =>
      obtain ⟨n, rfl⟩ := Nat.exists_eq_succ_of_ne_zero (Nat.ne_zero_of_lt hle)
      exact fun v => ih v (h v) (Nat.le_of_succ_le_succ hle)

theorem AtMost.andThen {f : Except ε α → Prog C R ε β} (h : AtMost p m)
    (hf : ∀ o, AtMost (f o) n) : AtMost (p.andThen f) (m + n) := by
  induction p generalizing m with
  | ret a => exact (hf _).mono (Nat.le_add_left n m)
  | raise e => exact (hf _).mono (Nat.le_add_left n m)
  | cmd c k ih =>
    cases m with
    | zero => exact absurd h id
    | succ m =>
      rw [Nat.succ_add]
      exact fun v => ih v (h v)

/-- The bounds of the parts are added. -/
theorem AtMost.bind {f : α → Prog C R ε β} (h : AtMost p m) (hf : ∀ a, AtMost (f a) n) :
    AtMost (p >>= f) (m + n) := by
  rw [bind_eq_andThen]
  refine h.andThen fun o => ?_
  cases o with
  | ok a => exact hf a
  | error e => trivial

/-- A handler may come on top, wherever the body stops. -/
theorem AtMost.catch {f : ε → Prog C R ε α} (h : AtMost p m) (hf : ∀ e, AtMost (f e) n) :
    AtMost (tryCatch p f) (m + n) := by
  induction p generalizing m with
  | ret a => trivial
  | raise e => exact (hf e).mono (Nat.le_add_left n m)
  | cmd c k ih =>
    cases m with
    | zero => exact absurd h id
    | succ m =>
      rw [Nat.succ_add]
      exact fun v => ih v (h v)

theorem atMost_perform {c : C} : AtMost (perform c : Prog C R ε (R c)) 1 := by
  intro v
  cases v <;> trivial

theorem atMost_ofOutcome {o : Except ε α} : AtMost (.ofOutcome o : Prog C R ε α) 0 := by
  cases o <;> trivial

end

end Prog

/-- A shared world, and for each thread the call it is in and what is left of it. -/
structure Threads (ι σ Q C : Type) (R : C → Type) (ε α : Type) where
  world : σ
  calls : ι → Option (Q × Prog C R ε α)

namespace Threads

inductive Label (ι Q C ε α : Type)
  | begin (i : ι) (q : Q)
  | command (i : ι) (c : C)
  | finish (i : ι) (q : Q) (o : Except ε α)
  /-- the world moves by itself -/
  | outside

/-- The label is not of another thread than `i`, and begins nothing. -/
def Label.GoesOn (i : ι) : Label ι Q C ε α → Prop
  | .begin _ _ => False
  | .command j _ => j = i
  | .finish j _ _ => j = i
  | .outside => True

/-- The label is a step of thread `i` itself, in the call it is in. -/
def Label.own [DecidableEq ι] (i : ι) : Label ι Q C ε α → Bool
  | .command j _ => j = i
  | .finish j _ _ => j = i
  | .begin _ _ | .outside => false

section
variable [DecidableEq ι] {i j : ι} {q : Q}

@[simp] theorem Label.own_command {c : C} :
    (.command j c : Label ι Q C ε α).own i = decide (j = i) := rfl

@[simp] theorem Label.own_finish {o : Except ε α} :
    (.finish j q o : Label ι Q C ε α).own i = decide (j = i) := rfl

@[simp] theorem Label.own_outside : (.outside : Label ι Q C ε α).own i = false := rfl

end

section
variable {exec : ι → Exec C R ε σ} {rely guar : ι → σ → σ → Prop} {idle : ι → σ → Prop}
  {post : ι → Q → Except ε α → σ → Prop} {i : ι} {s : σ}

/-- What holds of a thread, by whether it has a call in progress. -/
def Holds (exec : ι → Exec C R ε σ) (rely guar : ι → σ → σ → Prop) (idle : ι → σ → Prop)
    (post : ι → Q → Except ε α → σ → Prop) (i : ι) (s : σ) :
    Option (Q × Prog C R ε α) → Prop
  | none => idle i s
  | some (q, p) => p.Safe (exec i) (rely i) (fun a _ b _ => guar i a b) (post i q) s

@[simp] theorem holds_none : Holds exec rely guar idle post i s none ↔ idle i s := Iff.rfl

@[simp] theorem holds_some {q : Q} {p : Prog C R ε α} :
    Holds exec rely guar idle post i s (some (q, p)) ↔
      p.Safe (exec i) (rely i) (fun a _ b _ => guar i a b) (post i q) s := Iff.rfl

end

variable [DecidableEq ι]

/-- Thread `i` gets a program to do. -/
def put (w : Threads ι σ Q C R ε α) (i : ι) (q : Q) (p : Prog C R ε α) :
    Threads ι σ Q C R ε α :=
  ⟨w.world, Function.update w.calls i (some (q, p))⟩

inductive Step (exec : ι → Exec C R ε σ) (outside : σ → σ → Prop) (program : Q → Prog C R ε α)
    (w : Threads ι σ Q C R ε α) : Label ι Q C ε α → Threads ι σ Q C R ε α → Prop
  | begin {i : ι} {q : Q} (free : w.calls i = none) :
      Step exec outside program w (.begin i q) (w.put i q (program q))
  | command {i : ι} {q : Q} {c : C} {k : Except ε (R c) → Prog C R ε α} {v : Except ε (R c)}
      {s : σ} (next : w.calls i = some (q, .cmd c k)) (does : exec i w.world c v s) :
      Step exec outside program w (.command i c) (put ⟨s, w.calls⟩ i q (k v))
  | finish {i : ι} {q : Q} {o : Except ε α} (ended : w.calls i = some (q, .ofOutcome o)) :
      Step exec outside program w (.finish i q o) ⟨w.world, Function.update w.calls i none⟩
  | outside {s : σ} (moves : outside w.world s) :
      Step exec outside program w .outside ⟨s, w.calls⟩

section
variable {exec : ι → Exec C R ε σ} {outside : σ → σ → Prop} {program : Q → Prog C R ε α}
  {inv : σ → Prop} {rely guar : ι → σ → σ → Prop} {idle : ι → σ → Prop}
  {post : ι → Q → Except ε α → σ → Prop} {w w' : Threads ι σ Q C R ε α}

def Within (exec : ι → Exec C R ε σ) (inv : σ → Prop) (rely guar : ι → σ → σ → Prop)
    (idle : ι → σ → Prop) (post : ι → Q → Except ε α → σ → Prop)
    (w : Threads ι σ Q C R ε α) : Prop :=
  inv w.world ∧ ∀ i, Holds exec rely guar idle post i w.world (w.calls i)

/-- **The parallel rule.** A step keeps the invariant and leaves every thread where its own
condition holds; a call that ends does so within its postcondition. -/
theorem Within.step {l : Label ι Q C ε α} (h : w.Within exec inv rely guar idle post)
    (hst : Step exec outside program w l w')
    (refl : ∀ i a, rely i a a) (trans : ∀ i a b c, rely i a b → rely i b c → rely i a c)
    (sides : ∀ i j a b, i ≠ j → guar i a b → rely j a b)
    (keeps : ∀ i a b, guar i a b → inv a → inv b)
    (moves : ∀ a b, outside a b → (inv a → inv b) ∧ ∀ i, rely i a b)
    (stays : ∀ i a b, rely i a b → idle i a → idle i b)
    (begins : ∀ i q s, inv s → idle i s →
      (program q).Safe (exec i) (rely i) (fun a _ b _ => guar i a b) (post i q) s)
    (ends : ∀ i q o s, post i q o s → idle i s) :
    w'.Within exec inv rely guar idle post ∧
      ∀ i q o, l = .finish i q o → post i q o w.world := by
  -- what one thread relies on survives the steps of the others
  have stable : ∀ {j : ι} {s s' : σ} {c : Option (Q × Prog C R ε α)}, rely j s s' →
      Holds exec rely guar idle post j s c → Holds exec rely guar idle post j s' c := by
    intro j s s' c hr hc
    match c with
    | none => exact stays j s s' hr hc
    | some (q, p) => exact Prog.Safe.stable (trans j) hc hr
  obtain ⟨hinv, hall⟩ := h
  cases hst with
  | @begin i q free =>
    refine ⟨⟨hinv, fun j => ?_⟩, nofun⟩
    rcases eq_or_ne j i with rfl | hj
    · have hidle : idle j w.world := by
        have := hall j
        rwa [free] at this
      simpa [put] using begins j q w.world hinv hidle
    · simpa [put, Function.update_of_ne hj] using hall j
  | @command i q c k v s next does =>
    have hi := hall i
    rw [next] at hi
    obtain ⟨hg, hk⟩ := hi w.world (refl i _) v s does
    refine ⟨⟨keeps i _ _ hg hinv, fun j => ?_⟩, nofun⟩
    rcases eq_or_ne j i with rfl | hj
    · simpa [put] using hk
    · simpa [put, Function.update_of_ne hj] using stable (sides i j _ _ hj.symm hg) (hall j)
  | @finish i q o ended =>
    have hpost : post i q o w.world := by
      have hi := hall i
      rw [ended] at hi
      exact Prog.safe_ofOutcome.mp hi w.world (refl i _)
    refine ⟨⟨hinv, fun j => ?_⟩, ?_⟩
    · rcases eq_or_ne j i with rfl | hj
      · simpa using ends j q o w.world hpost
      · simpa [Function.update_of_ne hj] using hall j
    · rintro _ _ _ ⟨⟩
      exact hpost
  | @outside s hmoves =>
    obtain ⟨hkeep, hrely⟩ := moves _ _ hmoves
    exact ⟨⟨hkeep hinv, fun j => stable (hrely j) (hall j)⟩, nofun⟩

/-! ## A call that no other runs beside -/

section
variable {solo : σ → σ → Prop} {post : Except ε α → σ → Prop} {i : ι} {q : Q}
  {p : Prog C R ε α} {n : Nat}
  {us : List (Threads ι σ Q C R ε α × Label ι Q C ε α × Threads ι σ Q C R ε α)}

/-- Somewhere in the transitions the call of `i` ends, within its postcondition. -/
def Ends (post : Except ε α → σ → Prop) (i : ι) (q : Q)
    (us : List (Threads ι σ Q C R ε α × Label ι Q C ε α × Threads ι σ Q C R ε α)) : Prop :=
  ∃ t ∈ us, ∃ o, t.2.1 = .finish i q o ∧ post o t.1.world

/-- After the transitions `us` the call of `i` is over, or what is left of it completes. -/
def Stands (exec : Exec C R ε σ) (solo : σ → σ → Prop) (post : Except ε α → σ → Prop) (i : ι)
    (q : Q) (us : List (Threads ι σ Q C R ε α × Label ι Q C ε α × Threads ι σ Q C R ε α))
    (w : Threads ι σ Q C R ε α) : Prop :=
  (∀ t ∈ us, ∀ q o, t.2.1 = .finish i q o → post o t.1.world) ∧
    (w.calls i = none ∧ Ends post i q us ∨
      ∃ p, w.calls i = some (q, p) ∧ p.Completes exec solo post w.world)

/-- A step of its own takes the program one command on; a step of the surroundings leaves it where
it is. -/
theorem Stands.step {l : Label ι Q C ε α} (refl : ∀ a, solo a a)
    (trans : ∀ a b c, solo a b → solo b c → solo a c) (h : Stands (exec i) solo post i q us w)
    (hl : l.GoesOn i) (hsolo : l = .outside → solo w.world w'.world)
    (hst : Step exec outside program w l w') :
    Stands (exec i) solo post i q (us ++ [(w, l, w')]) w' := by
  obtain ⟨hends, hleft⟩ := h
  have hlast : (∀ q' o, l = .finish i q' o → post o w.world) →
      ∀ t ∈ us ++ [(w, l, w')], ∀ q' o, t.2.1 = .finish i q' o → post o t.1.world :=
    fun h => List.forall_mem_append.mpr ⟨hends, List.forall_mem_singleton.mpr h⟩
  cases hst with
  | begin _ => exact absurd hl id
  | @command j q' c k v s next does =>
    obtain rfl : j = i := hl
    refine ⟨hlast nofun, .inr ?_⟩
    obtain ⟨hnone, -⟩ | ⟨p, hcall, hp⟩ := hleft
    · simp [hnone] at next
    · obtain ⟨rfl, rfl⟩ : q' = q ∧ .cmd c k = p := by simpa [next] using hcall
      exact ⟨k v, by simp [put], (hp _ (refl _)).2 v s does⟩
  | @finish j q' o ended =>
    obtain rfl : j = i := hl
    obtain ⟨hnone, -⟩ | ⟨p, hcall, hp⟩ := hleft
    · simp [hnone] at ended
    · obtain ⟨rfl, rfl⟩ : q' = q ∧ .ofOutcome o = p := by simpa [ended] using hcall
      have hpost := Prog.completes_ofOutcome.mp hp _ (refl _)
      refine ⟨hlast ?_, .inl ⟨by simp, _, List.mem_concat_self, o, rfl, hpost⟩⟩
      rintro _ _ ⟨⟩
      exact hpost
  | @outside s hmoves =>
    refine ⟨hlast nofun, ?_⟩
    obtain ⟨hnone, t, ht, hend⟩ | ⟨p, hcall, hp⟩ := hleft
    · exact .inl ⟨hnone, t, List.mem_append_left _ ht, hend⟩
    · exact .inr ⟨p, hcall, hp.stable trans (hsolo rfl)⟩

/-- What completes comes to its end by the thread's own steps. -/
theorem run_of_completes (refl : ∀ a, solo a a) (hcall : w.calls i = some (q, p))
    (hp : p.Completes (exec i) solo post w.world) :
    ∃ vs w'', Run (Step exec outside program) w vs w'' ∧ (∀ t ∈ vs, t.2.1.own i) ∧
      w''.calls i = none ∧ Ends post i q vs := by
  induction p generalizing w with
  | ret a =>
    refine ⟨_, _, .head (.finish (o := .ok a) hcall) .refl, by simp, by simp, ?_⟩
    exact ⟨_, List.mem_cons_self, .ok a, rfl, hp _ (refl _)⟩
  | raise e =>
    refine ⟨_, _, .head (.finish (o := .error e) hcall) .refl, by simp, by simp, ?_⟩
    exact ⟨_, List.mem_cons_self, .error e, rfl, hp _ (refl _)⟩
  | cmd c k ih =>
    -- some answer is possible, and whichever comes, the rest completes
    obtain ⟨⟨v, s, hx⟩, hall⟩ := hp _ (refl _)
    have hnext : (put ⟨s, w.calls⟩ i q (k v)).calls i = some (q, k v) := by simp [put]
    obtain ⟨vs, w'', hrun, hown, hnone, t, ht, hend⟩ := ih v hnext (hall v s hx)
    refine ⟨_, w'', .head (.command hcall hx) hrun, ?_, hnone, t, List.mem_cons_of_mem _ ht, hend⟩
    exact List.forall_mem_cons.mpr ⟨by simp, hown⟩

/-- **A call alone.** While nothing but `i` and the outside moves, what the call of `i` has left
completes: the call ends within its postcondition, and from wherever it stands the steps of `i`
itself bring it there. -/
theorem alone (hrun : Run (Step exec outside program) (w.put i q p) us w')
    (hgo : ∀ t ∈ us, t.2.1.GoesOn i ∧ (t.2.1 = .outside → solo t.1.world t.2.2.world))
    (refl : ∀ a, solo a a) (trans : ∀ a b c, solo a b → solo b c → solo a c)
    (hp : p.Completes (exec i) solo post w.world) :
    (∀ t ∈ us, ∀ q o, t.2.1 = .finish i q o → post o t.1.world) ∧
      ∃ vs w'', Run (Step exec outside program) w' vs w'' ∧ (∀ t ∈ vs, t.2.1.own i) ∧
        w''.calls i = none ∧ Ends post i q (us ++ vs) := by
  have hres := hrun.restrictStep (P := fun a l b => l.GoesOn i ∧
    (l = .outside → solo a.world b.world)) hgo
  have hfirst : Stands (exec i) solo post i q [] (w.put i q p) :=
    ⟨nofun, .inr ⟨p, by simp [put], hp⟩⟩
  have hlast : Stands (exec i) solo post i q us w' :=
    hres.history hfirst fun _ _ _ _ h hst => h.step refl trans hst.1.1 hst.1.2 hst.2
  obtain ⟨hends, ⟨hnone, hended⟩ | ⟨p', hcall, hp'⟩⟩ := hlast
  · exact ⟨hends, [], w', .refl, nofun, hnone, by simpa using hended⟩
  · have hgoOn : ∃ vs w'', Run (Step exec outside program) w' vs w'' ∧
        (∀ t ∈ vs, t.2.1.own i) ∧ w''.calls i = none ∧ Ends post i q vs :=
      run_of_completes refl hcall hp'
    obtain ⟨vs, w'', hvs, hown, hnone, t, ht, hend⟩ := hgoOn
    exact ⟨hends, vs, w'', hvs, hown, hnone, t, List.mem_append_right _ ht, hend⟩

/-- The steps that `i` has taken, and what is left of its call, come to at most `n` commands and
the end. -/
def Spends (i : ι) (n : Nat)
    (us : List (Threads ι σ Q C R ε α × Label ι Q C ε α × Threads ι σ Q C R ε α))
    (w : Threads ι σ Q C R ε α) : Prop :=
  w.calls i = none ∧ us.countP (fun t => t.2.1.own i) ≤ n + 1 ∨
    ∃ q p m, w.calls i = some (q, p) ∧ p.AtMost m ∧ us.countP (fun t => t.2.1.own i) + m ≤ n

/-- And each step of its own costs one. -/
theorem Spends.step {l : Label ι Q C ε α} (h : Spends i n us w) (hl : l.GoesOn i)
    (hst : Step exec outside program w l w') : Spends i n (us ++ [(w, l, w')]) w' := by
  cases hst with
  | begin _ => exact absurd hl id
  | @command j q c k v s next does =>
    obtain rfl : j = i := hl
    obtain ⟨hnone, -⟩ | ⟨q', p, m, hcall, hp, hle⟩ := h
    · simp [hnone] at next
    · obtain ⟨rfl, rfl⟩ : q = q' ∧ .cmd c k = p := by simpa [next] using hcall
      cases m with
      | zero => exact absurd hp id
      | succ m =>
        refine .inr ⟨q, k v, m, by simp [put], hp v, ?_⟩
        simp only [List.countP_append, List.countP_singleton, Label.own_command, decide_true,
          if_true]
        omega
  | @finish j q o ended =>
    obtain rfl : j = i := hl
    obtain ⟨hnone, -⟩ | ⟨_, _, m, -, -, hle⟩ := h
    · simp [hnone] at ended
    · refine .inl ⟨by simp, ?_⟩
      simp only [List.countP_append, List.countP_singleton, Label.own_finish, decide_true,
        if_true]
      omega
  | outside _ => simpa [Spends, List.countP_append] using h

/-- **A call is soon over.** While nothing but `i` and the outside moves, `i` takes a step for each
command of its call and one to end it, and no more. -/
theorem own_le (hrun : Run (Step exec outside program) (w.put i q p) us w')
    (hgo : ∀ t ∈ us, t.2.1.GoesOn i) (hp : p.AtMost n) :
    us.countP (fun t => t.2.1.own i) ≤ n + 1 := by
  have hres := hrun.restrict (P := fun _ l => l.GoesOn i) hgo
  have hfirst : Spends i n [] (w.put i q p) := .inr ⟨q, p, n, by simp [put], hp, by simp⟩
  have hlast : Spends i n us w' :=
    hres.history hfirst fun _ _ _ _ h hst => h.step hst.1 hst.2
  obtain ⟨-, hle⟩ | ⟨_, _, m, -, -, hle⟩ := hlast
  · exact hle
  · omega

end

/-! ## What one thread can do -/

/-- What a program can do alone, the world moving before each command, thread `i` can do while
the other threads stand still. -/
theorem run_steps {i : ι} {q : Q} {p p' : Prog C R ε α} {s s' : σ}
    {calls : ι → Option (Q × Prog C R ε α)}
    (h : Prog.Steps (fun s c v s' => ∃ t, outside s t ∧ exec i t c v s') p s p' s') :
    ∃ us, Run (Step exec outside program) (put ⟨s, calls⟩ i q p) us (put ⟨s', calls⟩ i q p') := by
  induction h with
  | refl => exact ⟨[], .refl⟩
  | @cmd c k v _ s₀ s₁ _ hx _ ih =>
    obtain ⟨us, hus⟩ := ih
    obtain ⟨t, hmoves, hx⟩ := hx
    have hnext : (put ⟨t, calls⟩ i q (.cmd c k)).calls i = some (q, .cmd c k) := by simp [put]
    have hst : Step exec outside program (put ⟨t, calls⟩ i q (.cmd c k)) (.command i c)
        (put ⟨s₁, calls⟩ i q (k v)) := by
      have hnew : Step exec outside program _ (.command i c) _ := .command hnext hx
      simpa [put] using hnew
    exact ⟨_, .head (.outside hmoves) (.head hst hus)⟩

/-- A call from its beginning to its end. -/
theorem run_call {i : ι} {q : Q} {o : Except ε α} {s s' : σ}
    {calls : ι → Option (Q × Prog C R ε α)} (hidle : calls i = none)
    (h : Prog.Steps (fun s c v s' => ∃ t, outside s t ∧ exec i t c v s') (program q) s
      (.ofOutcome o) s') :
    ∃ us, Run (Step exec outside program) ⟨s, calls⟩ us ⟨s', calls⟩ := by
  have hrun : ∃ us, Run (Step exec outside program) (put ⟨s, calls⟩ i q (program q)) us
      (put ⟨s', calls⟩ i q (.ofOutcome o)) := run_steps h
  obtain ⟨us, hus⟩ := hrun
  have hend : Step exec outside program (put ⟨s', calls⟩ i q (.ofOutcome o)) (.finish i q o)
      ⟨s', calls⟩ := by
    have hnew : Step exec outside program _ (.finish i q o) _ :=
      .finish (w := put ⟨s', calls⟩ i q (.ofOutcome o)) (by simp [put])
    have hcalls : Function.update calls i none = calls := by rw [← hidle, Function.update_eq_self]
    simpa [put, hcalls] using hnew
  exact ⟨_, .head (.begin hidle) (hus.tail hend)⟩

end

end Threads

end Lib
