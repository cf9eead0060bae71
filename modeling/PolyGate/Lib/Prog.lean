import Mathlib.Data.List.Forall2
import Mathlib.Logic.Function.Basic

/-!
# `Lib/Prog.lean` — programs that talk to a world one command at a time

A `Prog C R ε α` is a sequential program over commands `C`. The world answers a command `c`
with a value of type `R c` or with an exception of type `ε`; the program then goes on, returns
an `α`, or raises. It says nothing about what a command *does*: that is an `Exec`, given
separately, so one program text can be run alone, step by step beside others, or against a
world that loses replies.

Three readings of a program are defined here and used by everything above:

* `Runs` — the program alone, from one world to another;
* `Will P` — on every path without an exception, a command satisfying `P` is still to come,
  and `Until B Q` — on every path, only commands satisfying `Q` come before the next `B`;
* the unfolding lemmas, so that proofs step through a program by `simp`.
-/

namespace Lib

inductive Prog (C : Type) (R : C → Type) (ε : Type) (α : Type) : Type where
  | ret (a : α)
  | raise (e : ε)
  | cmd (c : C) (k : Except ε (R c) → Prog C R ε α)

/-- What a command does: from a world, to an answer and a world. -/
abbrev Exec (C : Type) (R : C → Type) (ε σ : Type) : Type :=
  σ → (c : C) → Except ε (R c) → σ → Prop

/-- The world in which no command raises, from what it answers. -/
def Exec.ofAnswers {C : Type} {R : C → Type} {ε σ : Type} (ans : σ → (c : C) → R c → σ → Prop) :
    Exec C R ε σ :=
  fun s c v s' => ∃ x, v = .ok x ∧ ans s c x s'

/-- The commands that meet a condition on the world, the command and whether it is answered. -/
def Exec.within {C : Type} {R : C → Type} {ε σ : Type} (exec : Exec C R ε σ)
    (ok : σ → C → Bool → Prop) : Exec C R ε σ :=
  fun s c v s' => ok s c v.isOk ∧ exec s c v s'

namespace Prog

variable {C : Type} {R : C → Type} {ε α β γ σ : Type}

/-! ## The monad -/

def bind : Prog C R ε α → (α → Prog C R ε β) → Prog C R ε β
  | .ret a, f => f a
  | .raise e, _ => .raise e
  | .cmd c k, f => .cmd c fun v => (k v).bind f

def catchExc : Prog C R ε α → (ε → Prog C R ε α) → Prog C R ε α
  | .ret a, _ => .ret a
  | .raise e, h => h e
  | .cmd c k, h => .cmd c fun v => (k v).catchExc h

instance : Monad (Prog C R ε) where
  pure := .ret
  bind := bind

instance : MonadExceptOf ε (Prog C R ε) where
  throw := .raise
  tryCatch := catchExc

/-- Continue with the answer, or pass the exception on. -/
def onReply {ρ : Type} (f : ρ → Prog C R ε α) : Except ε ρ → Prog C R ε α
  | .ok v => f v
  | .error e => .raise e

/-- Go on after either outcome; a sequence and a `try` are two ways of doing so. -/
def andThen : Prog C R ε α → (Except ε α → Prog C R ε β) → Prog C R ε β
  | .ret a, f => f (.ok a)
  | .raise e, f => f (.error e)
  | .cmd c k, f => .cmd c fun v => (k v).andThen f

/-- The program that has ended with the given outcome. -/
def ofOutcome : Except ε α → Prog C R ε α
  | .ok a => .ret a
  | .error e => .raise e

/-- Execute one command and return what it answers. -/
def perform (c : C) : Prog C R ε (R c) := .cmd c (onReply .ret)

@[simp] theorem pure_eq (a : α) : (pure a : Prog C R ε α) = .ret a := rfl
@[simp] theorem throw_eq (e : ε) : (throw e : Prog C R ε α) = .raise e := rfl
@[simp] theorem ret_bind (a : α) (f : α → Prog C R ε β) : (.ret a >>= f) = f a := rfl
@[simp] theorem raise_bind (e : ε) (f : α → Prog C R ε β) :
    ((.raise e : Prog C R ε α) >>= f) = .raise e := rfl
@[simp] theorem cmd_bind (c : C) (k : Except ε (R c) → Prog C R ε α) (f : α → Prog C R ε β) :
    (.cmd c k >>= f) = .cmd c fun v => k v >>= f := rfl
@[simp] theorem ret_catch (a : α) (h : ε → Prog C R ε α) :
    tryCatch (.ret a : Prog C R ε α) h = .ret a := rfl
@[simp] theorem raise_catch (e : ε) (h : ε → Prog C R ε α) :
    tryCatch (.raise e : Prog C R ε α) h = h e := rfl
@[simp] theorem cmd_catch (c : C) (k : Except ε (R c) → Prog C R ε α) (h : ε → Prog C R ε α) :
    tryCatch (.cmd c k) h = .cmd c fun v => tryCatch (k v) h := rfl
@[simp] theorem onReply_ok {ρ : Type} (f : ρ → Prog C R ε α) (v : ρ) :
    onReply f (.ok v) = f v := rfl
@[simp] theorem onReply_error {ρ : Type} (f : ρ → Prog C R ε α) (e : ε) :
    onReply f (.error e) = .raise e := rfl

@[simp] theorem onReply_bind {ρ : Type} (f : ρ → Prog C R ε α) (v : Except ε ρ)
    (g : α → Prog C R ε β) : (onReply f v >>= g) = onReply (fun x => f x >>= g) v := by
  cases v <;> rfl

@[simp] theorem perform_bind (c : C) (f : R c → Prog C R ε α) :
    (perform c >>= f) = .cmd c (onReply f) := by
  show Prog.cmd c _ = _
  congr 1
  funext v
  cases v <;> rfl

/-- A handler around one command sees its error only. -/
theorem perform_catch (c : C) (h : ε → Prog C R ε (R c)) :
    tryCatch (perform c : Prog C R ε (R c)) h =
      .cmd c fun v => match v with
        | .ok x => .ret x
        | .error e => h e := by
  simp only [perform, cmd_catch]
  congr 1
  funext v
  cases v <;> rfl

theorem bind_assoc (p : Prog C R ε α) (f : α → Prog C R ε β) (g : β → Prog C R ε γ) :
    (p >>= f >>= g) = (p >>= fun a => f a >>= g) := by
  induction p with
  | ret a => rfl
  | raise e => rfl
  | cmd c k ih =>
    simp only [cmd_bind]
    congr 1
    funext v
    exact ih v

@[simp] theorem ret_andThen (a : α) (f : Except ε α → Prog C R ε β) :
    (.ret a : Prog C R ε α).andThen f = f (.ok a) := rfl
@[simp] theorem raise_andThen (e : ε) (f : Except ε α → Prog C R ε β) :
    (.raise e : Prog C R ε α).andThen f = f (.error e) := rfl
@[simp] theorem cmd_andThen (c : C) (k : Except ε (R c) → Prog C R ε α)
    (f : Except ε α → Prog C R ε β) :
    (Prog.cmd c k).andThen f = .cmd c fun v => (k v).andThen f := rfl
@[simp] theorem perform_andThen (c : C) (f : Except ε (R c) → Prog C R ε β) :
    (perform c : Prog C R ε (R c)).andThen f = .cmd c f := by
  show Prog.cmd c _ = _
  congr 1
  funext v
  cases v <;> rfl

theorem andThen_ofOutcome (p : Prog C R ε α) : p.andThen ofOutcome = p := by
  induction p with
  | ret a => rfl
  | raise e => rfl
  | cmd c k ih =>
    simp only [cmd_andThen]
    congr 1
    funext v
    exact ih v

/-- Sequencing is `andThen` where errors are passed on. -/
theorem bind_eq_andThen (p : Prog C R ε α) (f : α → Prog C R ε β) :
    (p >>= f) = p.andThen (onReply f) := by
  induction p with
  | ret a => rfl
  | raise e => rfl
  | cmd c k ih =>
    simp only [cmd_bind, cmd_andThen]
    congr 1
    funext v
    exact ih v

theorem bind_andThen (p : Prog C R ε α) (f : α → Prog C R ε β)
    (g : Except ε β → Prog C R ε γ) :
    (p >>= f).andThen g =
      p.andThen fun o => match o with
        | .ok a => (f a).andThen g
        | .error e => g (.error e) := by
  induction p with
  | ret a => rfl
  | raise e => rfl
  | cmd c k ih =>
    simp only [cmd_bind, cmd_andThen]
    congr 1
    funext v
    exact ih v

theorem catch_andThen (p : Prog C R ε α) (h : ε → Prog C R ε α)
    (g : Except ε α → Prog C R ε β) :
    (tryCatch p h).andThen g =
      p.andThen fun o => match o with
        | .ok a => g (.ok a)
        | .error e => (h e).andThen g := by
  induction p with
  | ret a => rfl
  | raise e => rfl
  | cmd c k ih =>
    simp only [cmd_catch, cmd_andThen]
    congr 1
    funext v
    exact ih v

/-! ## Running a program alone -/

/-- `Runs exec p s o s'`: executed with nothing else touching the world, `p` can take `s` to
`s'` with outcome `o`. -/
def Runs (exec : Exec C R ε σ) : Prog C R ε α → σ → Except ε α → σ → Prop
  | .ret a, s, o, s' => o = .ok a ∧ s' = s
  | .raise e, s, o, s' => o = .error e ∧ s' = s
  | .cmd c k, s, o, s' => ∃ v s₁, exec s c v s₁ ∧ Runs exec (k v) s₁ o s'

section
variable {exec : Exec C R ε σ} {s s' : σ}

@[simp] theorem runs_ret {a : α} {o : Except ε α} :
    Runs exec (.ret a : Prog C R ε α) s o s' ↔ o = .ok a ∧ s' = s := Iff.rfl

@[simp] theorem runs_raise {e : ε} {o : Except ε α} :
    Runs exec (.raise e : Prog C R ε α) s o s' ↔ o = .error e ∧ s' = s := Iff.rfl

theorem runs_cmd {c : C} {k : Except ε (R c) → Prog C R ε α} {o : Except ε α} :
    Runs exec (.cmd c k) s o s' ↔ ∃ v s₁, exec s c v s₁ ∧ Runs exec (k v) s₁ o s' := Iff.rfl

/-- A program that never sees an error of its commands. -/
theorem runs_onReply {ans : σ → (c : C) → R c → σ → Prop} {c : C} {f : R c → Prog C R ε α}
    {o : Except ε α} :
    Runs (.ofAnswers ans) (.cmd c (onReply f)) s o s' ↔
      ∃ x s₁, ans s c x s₁ ∧ Runs (.ofAnswers ans) (f x) s₁ o s' := by
  constructor
  · rintro ⟨_, s₁, ⟨x, rfl, hx⟩, h⟩
    exact ⟨x, s₁, hx, h⟩
  · rintro ⟨x, s₁, hx, h⟩
    exact ⟨.ok x, s₁, ⟨x, rfl, hx⟩, h⟩

/-- A sequence runs its first part to a value and then the rest, or stops at an exception. -/
theorem runs_bind {p : Prog C R ε α} {f : α → Prog C R ε β} {o : Except ε β} :
    Runs exec (p >>= f) s o s' ↔
      (∃ a s₁, Runs exec p s (.ok a) s₁ ∧ Runs exec (f a) s₁ o s') ∨
      (∃ e, Runs exec p s (.error e) s' ∧ o = .error e) := by
  induction p generalizing s with
  | ret a =>
    constructor
    · exact fun h => Or.inl ⟨a, s, ⟨rfl, rfl⟩, h⟩
    · rintro (⟨_, _, ⟨h, rfl⟩, hf⟩ | ⟨_, ⟨h, _⟩, _⟩)
      · cases h; exact hf
      · cases h
  | raise e =>
    constructor
    · rintro ⟨ho, rfl⟩; exact Or.inr ⟨e, ⟨rfl, rfl⟩, ho⟩
    · rintro (⟨_, _, ⟨h, _⟩, _⟩ | ⟨_, ⟨h, rfl⟩, ho⟩)
      · cases h
      · cases h; exact ⟨ho, rfl⟩
  | cmd c k ih =>
    simp only [cmd_bind, runs_cmd, ih]
    constructor
    · rintro ⟨v, s₁, hx, ⟨a, s₂, hp, hf⟩ | ⟨e, hp, ho⟩⟩
      · exact Or.inl ⟨a, s₂, ⟨v, s₁, hx, hp⟩, hf⟩
      · exact Or.inr ⟨e, ⟨v, s₁, hx, hp⟩, ho⟩
    · rintro (⟨a, s₂, ⟨v, s₁, hx, hp⟩, hf⟩ | ⟨e, ⟨v, s₁, hx, hp⟩, ho⟩)
      · exact ⟨v, s₁, hx, Or.inl ⟨a, s₂, hp, hf⟩⟩
      · exact ⟨v, s₁, hx, Or.inr ⟨e, hp, ho⟩⟩

end

/-- `Steps exec p s q s'`: executed alone, `p` can take `s` to `s'` with `q` left to do. -/
inductive Steps (exec : Exec C R ε σ) : Prog C R ε α → σ → Prog C R ε α → σ → Prop
  | refl {p : Prog C R ε α} {s : σ} : Steps exec p s p s
  | cmd {c : C} {k : Except ε (R c) → Prog C R ε α} {v : Except ε (R c)} {q : Prog C R ε α}
      {s s₁ s' : σ} : exec s c v s₁ → Steps exec (k v) s₁ q s' → Steps exec (.cmd c k) s q s'

section
variable {exec : Exec C R ε σ} {p q r : Prog C R ε α} {s s' s'' : σ}

theorem Steps.trans (h : Steps exec p s q s') (h' : Steps exec q s' r s'') :
    Steps exec p s r s'' := by
  induction h with
  | refl => exact h'
  | cmd hx _ ih => exact .cmd hx (ih h')

theorem Steps.onReply {ans : σ → (c : C) → R c → σ → Prop} {c : C} {f : R c → Prog C R ε α}
    {x : R c} (hx : ans s c x s') (h : Steps (.ofAnswers ans) (f x) s' q s'') :
    Steps (.ofAnswers ans) (.cmd c (Prog.onReply f)) s q s'' :=
  .cmd ⟨x, rfl, hx⟩ h

/-- More behaviours of the commands, more steps. -/
theorem Steps.mono {exec' : Exec C R ε σ} (h : Steps exec p s q s')
    (hle : ∀ a c v b, exec a c v b → exec' a c v b) : Steps exec' p s q s' := by
  induction h with
  | refl => exact .refl
  | cmd hx _ ih => exact .cmd (hle _ _ _ _ hx) ih

/-- Some steps, and then a run to the end. -/
theorem Runs.of_steps {o : Except ε α} (h : Steps exec p s q s') (hq : Runs exec q s' o s'') :
    Runs exec p s o s'' := by
  induction h with
  | refl => exact hq
  | cmd hx _ ih => exact ⟨_, _, hx, ih hq⟩

/-- A complete run is one that leaves an ended program. -/
theorem Runs.steps {o : Except ε α} (h : Runs exec p s o s') :
    Steps exec p s (.ofOutcome o) s' := by
  induction p generalizing s with
  | ret a =>
    obtain ⟨rfl, rfl⟩ := h
    exact .refl
  | raise e =>
    obtain ⟨rfl, rfl⟩ := h
    exact .refl
  | cmd c k ih =>
    obtain ⟨v, s₁, hx, hr⟩ := h
    exact .cmd hx (ih v hr)

end

/-! ## Running with a record of the answers -/

/-- A command and how it was answered, an exception included. -/
abbrev Exchange (C : Type) (R : C → Type) (ε : Type) : Type := (c : C) × Except ε (R c)

/-- `RunsWith exec p s es o s'`: as `Runs`, and `es` is what was sent and answered. -/
def RunsWith (exec : Exec C R ε σ) :
    Prog C R ε α → σ → List (Exchange C R ε) → Except ε α → σ → Prop
  | .ret a, s, es, o, s' => es = [] ∧ o = .ok a ∧ s' = s
  | .raise e, s, es, o, s' => es = [] ∧ o = .error e ∧ s' = s
  | .cmd c k, s, es, o, s' =>
    ∃ v s₁ es₁, exec s c v s₁ ∧ es = ⟨c, v⟩ :: es₁ ∧ RunsWith exec (k v) s₁ es₁ o s'

section
variable {exec : Exec C R ε σ} {s s' : σ} {es : List (Exchange C R ε)}

@[simp] theorem runsWith_ret {a : α} {o : Except ε α} :
    RunsWith exec (.ret a : Prog C R ε α) s es o s' ↔ es = [] ∧ o = .ok a ∧ s' = s := Iff.rfl

@[simp] theorem runsWith_raise {e : ε} {o : Except ε α} :
    RunsWith exec (.raise e : Prog C R ε α) s es o s' ↔ es = [] ∧ o = .error e ∧ s' = s :=
  Iff.rfl

theorem runsWith_cmd {c : C} {k : Except ε (R c) → Prog C R ε α} {o : Except ε α} :
    RunsWith exec (.cmd c k) s es o s' ↔
      ∃ v s₁ es₁, exec s c v s₁ ∧ es = ⟨c, v⟩ :: es₁ ∧ RunsWith exec (k v) s₁ es₁ o s' := Iff.rfl

/-- A command that changes nothing, whatever it is answered. -/
theorem runsWith_still {c : C} {k : Except ε (R c) → Prog C R ε α} {o : Except ε α}
    (hc : ∀ v s₁, exec s c v s₁ ↔ s₁ = s) :
    RunsWith exec (.cmd c k) s es o s' ↔
      ∃ v es₁, es = ⟨c, v⟩ :: es₁ ∧ RunsWith exec (k v) s es₁ o s' := by
  rw [runsWith_cmd]
  constructor
  · rintro ⟨v, s₁, es₁, hx, he, hk⟩
    obtain rfl := (hc v s₁).mp hx
    exact ⟨v, es₁, he, hk⟩
  · rintro ⟨v, es₁, he, hk⟩
    exact ⟨v, s, es₁, (hc v s).mpr rfl, he, hk⟩

@[simp] theorem runsWith_ofOutcome {o o' : Except ε α} :
    RunsWith exec (.ofOutcome o' : Prog C R ε α) s es o s' ↔ es = [] ∧ o = o' ∧ s' = s := by
  cases o' <;> rfl

end

/-! ## One program inside another -/

/-- The program with each command done by a program over `C'`. -/
def embed {C' : Type} {R' : C' → Type} {ε' : Type} (into : (c : C) → Prog C' R' ε' (R c))
    (wrap : ε → ε') : Prog C R ε α → Prog C' R' ε' α
  | .ret a => .ret a
  | .raise e => .raise (wrap e)
  | .cmd c k => into c >>= fun x => (k (.ok x)).embed into wrap

/-- The same for a program whose outcome is returned, an exception included. -/
def outcome {C' : Type} {R' : C' → Type} {ε' : Type} (into : (c : C) → Prog C' R' ε' (R c)) :
    Prog C R ε α → Prog C' R' ε' (Except ε α)
  | .ret a => .ret (.ok a)
  | .raise e => .ret (.error e)
  | .cmd c k => into c >>= fun x => (k (.ok x)).outcome into

/-! ## What a program was seen to do -/

/-- A command together with the answer it got. -/
abbrev Event (C : Type) (R : C → Type) : Type := (c : C) × R c

/-- `Emits p es o`: answered as in `es`, `p` sends exactly the commands of `es` and ends in
`o`. Nothing is assumed about the answers. -/
def Emits : Prog C R ε α → List (Event C R) → Except ε α → Prop
  | .ret a, es, o => es = [] ∧ o = .ok a
  | .raise e, es, o => es = [] ∧ o = .error e
  | .cmd c k, es, o => ∃ x es', es = ⟨c, x⟩ :: es' ∧ Emits (k (.ok x)) es' o

section
variable {p : Prog C R ε α} {es : List (Event C R)}

@[simp] theorem emits_ret {a : α} {o : Except ε α} :
    Emits (.ret a : Prog C R ε α) es o ↔ es = [] ∧ o = .ok a := Iff.rfl

@[simp] theorem emits_raise {e : ε} {o : Except ε α} :
    Emits (.raise e : Prog C R ε α) es o ↔ es = [] ∧ o = .error e := Iff.rfl

@[simp] theorem emits_cmd {c : C} {k : Except ε (R c) → Prog C R ε α} {o : Except ε α} :
    Emits (.cmd c k) es o ↔ ∃ x es', es = ⟨c, x⟩ :: es' ∧ Emits (k (.ok x)) es' o := Iff.rfl

/-- Whatever is answered, the program comes to an end. -/
theorem emits_exists (answer : (c : C) → R c) (p : Prog C R ε α) :
    ∃ es o, Emits p es o ∧ ∀ e ∈ es, e.2 = answer e.1 := by
  induction p with
  | ret a => exact ⟨[], .ok a, ⟨rfl, rfl⟩, fun e he => absurd he List.not_mem_nil⟩
  | raise e => exact ⟨[], .error e, ⟨rfl, rfl⟩, fun e he => absurd he List.not_mem_nil⟩
  | cmd c k ih =>
    obtain ⟨es, o, hes, hanswers⟩ := ih (.ok (answer c))
    exact ⟨⟨c, answer c⟩ :: es, o, ⟨answer c, es, rfl, hes⟩,
      List.forall_mem_cons.mpr ⟨rfl, hanswers⟩⟩

/-- What is done in sequence is seen in sequence. -/
theorem emits_andThen {f : Except ε α → Prog C R ε β} {o : Except ε β} :
    Emits (p.andThen f) es o ↔
      ∃ es₁ es₂ o₁, es = es₁ ++ es₂ ∧ Emits p es₁ o₁ ∧ Emits (f o₁) es₂ o := by
  induction p generalizing es with
  | ret a =>
    constructor
    · exact fun h => ⟨[], es, .ok a, rfl, ⟨rfl, rfl⟩, h⟩
    · rintro ⟨_, es₂, _, rfl, ⟨rfl, rfl⟩, h⟩
      exact h
  | raise e =>
    constructor
    · exact fun h => ⟨[], es, .error e, rfl, ⟨rfl, rfl⟩, h⟩
    · rintro ⟨_, es₂, _, rfl, ⟨rfl, rfl⟩, h⟩
      exact h
  | cmd c k ih =>
    simp only [cmd_andThen, emits_cmd, ih]
    constructor
    · rintro ⟨x, _, rfl, es₁, es₂, o₁, rfl, hp, hf⟩
      exact ⟨⟨c, x⟩ :: es₁, es₂, o₁, rfl, ⟨x, es₁, rfl, hp⟩, hf⟩
    · rintro ⟨_, es₂, o₁, rfl, ⟨x, es₁, rfl, hp⟩, hf⟩
      exact ⟨x, es₁ ++ es₂, rfl, es₁, es₂, o₁, rfl, hp, hf⟩

/-- A sequence emits what its parts do, and stops at an error. -/
theorem emits_bind {f : α → Prog C R ε β} {o : Except ε β} :
    Emits (p >>= f) es o ↔
      (∃ es₁ es₂ a, es = es₁ ++ es₂ ∧ Emits p es₁ (.ok a) ∧ Emits (f a) es₂ o) ∨
      ∃ e, Emits p es (.error e) ∧ o = .error e := by
  rw [bind_eq_andThen, emits_andThen]
  constructor
  · rintro ⟨es₁, es₂, a | a, rfl, hp, hf⟩
    · obtain ⟨rfl, rfl⟩ := hf
      exact Or.inr ⟨a, by simpa using hp, rfl⟩
    · exact Or.inl ⟨es₁, es₂, a, rfl, hp, hf⟩
  · rintro (⟨es₁, es₂, a, rfl, hp, hf⟩ | ⟨e, hp, rfl⟩)
    · exact ⟨es₁, es₂, .ok a, rfl, hp, hf⟩
    · exact ⟨es, [], .error e, by simp, hp, rfl, rfl⟩

/-- A handler begins where the error was raised. -/
theorem emits_catch {h : ε → Prog C R ε α} {o : Except ε α} :
    Emits (tryCatch p h) es o ↔
      (∃ a, Emits p es (.ok a) ∧ o = .ok a) ∨
      ∃ es₁ es₂ e, es = es₁ ++ es₂ ∧ Emits p es₁ (.error e) ∧ Emits (h e) es₂ o := by
  have hrw : tryCatch p h = p.andThen fun o => match o with
      | .ok a => .ret a
      | .error e => h e := by
    rw [← andThen_ofOutcome (tryCatch p h), catch_andThen]
    congr 1
    funext o
    cases o with
    | ok a => rfl
    | error e => exact andThen_ofOutcome (h e)
  rw [hrw, emits_andThen]
  constructor
  · rintro ⟨es₁, es₂, a | a, rfl, hp, hf⟩
    · exact Or.inr ⟨es₁, es₂, a, rfl, hp, hf⟩
    · obtain ⟨rfl, rfl⟩ := hf
      exact Or.inl ⟨a, by simpa using hp, rfl⟩
  · rintro (⟨a, hp, rfl⟩ | ⟨es₁, es₂, e, rfl, hp, hf⟩)
    · exact ⟨es, [], .ok a, by simp, hp, rfl, rfl⟩
    · exact ⟨es₁, es₂, .error e, rfl, hp, hf⟩

end

section
variable {C' : Type} {R' : C' → Type} {ε' : Type} {into : (c : C) → Prog C' R' ε' (R c)}
  {p : Prog C R ε α} {es : List (Event C' R')}

/-- The events of the outer program come in pieces, one for each command of the inner one. -/
theorem emits_embed_ok {wrap : ε → ε'} {a : α} (h : Emits (p.embed into wrap) es (.ok a)) :
    ∃ fs ess, Emits p fs (.ok a) ∧ es = ess.flatten ∧
      List.Forall₂ (fun f es => Emits (into f.1) es (.ok f.2)) fs ess := by
  induction p generalizing es with
  | ret b =>
    obtain ⟨rfl, hb⟩ := h
    exact ⟨[], [], ⟨rfl, congrArg Except.ok (Except.ok.inj hb)⟩, rfl, .nil⟩
  | raise e => cases h.2
  | cmd c k ih =>
    rcases emits_bind.mp h with ⟨es₁, es₂, x, rfl, h₁, h₂⟩ | ⟨e, -, ho⟩
    · obtain ⟨fs, ess, hp, rfl, hpieces⟩ := ih (.ok x) h₂
      exact ⟨⟨c, x⟩ :: fs, es₁ :: ess, ⟨x, fs, rfl, hp⟩, rfl, .cons h₁ hpieces⟩
    · cases ho

theorem emits_outcome {o : Except ε α} (h : Emits (p.outcome into) es (.ok o)) :
    ∃ fs ess, Emits p fs o ∧ es = ess.flatten ∧
      List.Forall₂ (fun f es => Emits (into f.1) es (.ok f.2)) fs ess := by
  induction p generalizing es with
  | ret b =>
    obtain ⟨rfl, hb⟩ := h
    exact ⟨[], [], ⟨rfl, Except.ok.inj hb⟩, rfl, .nil⟩
  | raise e =>
    obtain ⟨rfl, hb⟩ := h
    exact ⟨[], [], ⟨rfl, Except.ok.inj hb⟩, rfl, .nil⟩
  | cmd c k ih =>
    rcases emits_bind.mp h with ⟨es₁, es₂, x, rfl, h₁, h₂⟩ | ⟨e, -, ho⟩
    · obtain ⟨fs, ess, hp, rfl, hpieces⟩ := ih (.ok x) h₂
      exact ⟨⟨c, x⟩ :: fs, es₁ :: ess, ⟨x, fs, rfl, hp⟩, rfl, .cons h₁ hpieces⟩
    · cases ho

/-- The pieces of a program whose commands are each sent as one. -/
theorem flatten_singletons {P : Event C R → List (Event C' R') → Prop}
    {lift : Event C R → Event C' R'} {fs : List (Event C R)} {ess : List (List (Event C' R'))}
    (hlift : ∀ f es, P f es → es = [lift f]) (h : List.Forall₂ P fs ess) :
    ess.flatten = fs.map lift := by
  induction h with
  | nil => rfl
  | cons hfirst _ ih =>
    rw [List.flatten_cons, hlift _ _ hfirst, ih, List.map_cons, List.singleton_append]

end

/-- Every command the program can come to send satisfies `P`. -/
def Only (P : C → Prop) : Prog C R ε α → Prop
  | .ret _ => True
  | .raise _ => True
  | .cmd c k => P c ∧ ∀ v, Only P (k v)

section
variable {P : C → Prop} {p : Prog C R ε α}

@[simp] theorem only_ret {a : α} : Only P (.ret a : Prog C R ε α) := trivial
@[simp] theorem only_raise {e : ε} : Only P (.raise e : Prog C R ε α) := trivial

@[simp] theorem only_perform {c : C} : Only P (perform c : Prog C R ε (R c)) ↔ P c :=
  ⟨fun h => h.1, fun h => ⟨h, fun v => by cases v <;> trivial⟩⟩

@[simp] theorem only_perform_bind {c : C} {f : R c → Prog C R ε α} :
    Only P (perform c >>= f) ↔ P c ∧ ∀ x, Only P (f x) := by
  rw [perform_bind]
  constructor
  · intro h
    exact ⟨h.1, fun x => h.2 (.ok x)⟩
  · intro h
    refine ⟨h.1, fun v => ?_⟩
    cases v with
    | ok x => exact h.2 x
    | error e => trivial

theorem Only.imp {Q : C → Prop} (h : Only P p) (himp : ∀ c, P c → Q c) : Only Q p := by
  induction p with
  | ret a => trivial
  | raise e => trivial
  | cmd c k ih => exact ⟨himp c h.1, fun v => ih v (h.2 v)⟩

/-- What a program may command is all that it emits. -/
theorem Only.emits {es : List (Event C R)} {o : Except ε α} (h : Only P p)
    (he : Emits p es o) : ∀ e ∈ es, P e.1 := by
  induction p generalizing es with
  | ret a =>
    obtain ⟨rfl, -⟩ := he
    simp
  | raise e =>
    obtain ⟨rfl, -⟩ := he
    simp
  | cmd c k ih =>
    obtain ⟨x, es', rfl, he⟩ := he
    exact List.forall_mem_cons.mpr ⟨h.1, ih (.ok x) (h.2 _) he⟩

theorem Only.andThen {f : Except ε α → Prog C R ε β} (h : Only P p) (hf : ∀ o, Only P (f o)) :
    Only P (p.andThen f) := by
  induction p with
  | ret a => exact hf _
  | raise e => exact hf _
  | cmd c k ih => exact ⟨h.1, fun v => ih v (h.2 v)⟩

theorem Only.bind {f : α → Prog C R ε β} (h : Only P p) (hf : ∀ a, Only P (f a)) :
    Only P (p >>= f) := by
  rw [bind_eq_andThen]
  refine h.andThen fun o => ?_
  cases o with
  | ok a => exact hf a
  | error e => trivial

/-- Commands that are programs themselves. -/
theorem Only.embed {C' : Type} {R' : C' → Type} {ε' : Type} {P' : C' → Prop}
    {into : (c : C) → Prog C' R' ε' (R c)} {wrap : ε → ε'} (hp : Only P p)
    (hinto : ∀ c, P c → Only P' (into c)) : Only P' (p.embed into wrap) := by
  induction p with
  | ret a => trivial
  | raise e => trivial
  | cmd c k ih => exact (hinto c hp.1).bind fun x => ih (.ok x) (hp.2 (.ok x))

theorem only_true (p : Prog C R ε α) : Only (fun _ => True) p := by
  induction p with
  | ret a => trivial
  | raise e => trivial
  | cmd c k ih => exact ⟨trivial, ih⟩

theorem Only.catch {h : ε → Prog C R ε α} (hp : Only P p) (hh : ∀ e, Only P (h e)) :
    Only P (tryCatch p h) := by
  induction p with
  | ret a => trivial
  | raise e => exact hh e
  | cmd c k ih => exact ⟨hp.1, fun v => ih v (hp.2 v)⟩

end

/-! ## What a program is still going to do -/

/-- On every path on which no command raises, a command satisfying `P` is still to come. -/
def Will (P : C → Prop) : Prog C R ε α → Prop
  | .ret _ => False
  | .raise _ => False
  | .cmd c k => P c ∨ ∀ v, Will P (k (.ok v))

@[simp] theorem will_ret {P : C → Prop} {a : α} : ¬ Will P (.ret a : Prog C R ε α) := id
@[simp] theorem will_raise {P : C → Prop} {e : ε} : ¬ Will P (.raise e : Prog C R ε α) := id

@[simp] theorem will_cmd {P : C → Prop} {c : C} {k : Except ε (R c) → Prog C R ε α} :
    Will P (.cmd c k) ↔ P c ∨ ∀ v, Will P (k (.ok v)) := Iff.rfl

/-- What will be commanded is commanded before anything that follows. -/
theorem Will.bind {P : C → Prop} {p : Prog C R ε α} (h : Will P p) (f : α → Prog C R ε β) :
    Will P (p >>= f) := by
  induction p with
  | ret a => exact h.elim
  | raise e => exact h.elim
  | cmd c k ih => exact h.imp id fun hk v => ih (.ok v) (hk v)

/-- Taking one step of a program that will do `P` either does it or leaves it still to do. -/
theorem Will.step {P : C → Prop} {c : C} {k : Except ε (R c) → Prog C R ε α}
    (h : Will P (.cmd c k)) (hc : ¬ P c) (v : R c) : Will P (k (.ok v)) :=
  (h.resolve_left hc) v

/-- As `Will`, with only commands satisfying `Q` before the one satisfying `P`. -/
def Soon (Q P : C → Prop) : Prog C R ε α → Prop
  | .ret _ => False
  | .raise _ => False
  | .cmd c k => P c ∨ Q c ∧ ∀ v, Soon Q P (k (.ok v))

@[simp] theorem soon_ret {Q P : C → Prop} {a : α} : ¬ Soon Q P (.ret a : Prog C R ε α) := id
@[simp] theorem soon_raise {Q P : C → Prop} {e : ε} : ¬ Soon Q P (.raise e : Prog C R ε α) := id

@[simp] theorem soon_cmd {Q P : C → Prop} {c : C} {k : Except ε (R c) → Prog C R ε α} :
    Soon Q P (.cmd c k) ↔ P c ∨ Q c ∧ ∀ v, Soon Q P (k (.ok v)) := Iff.rfl

/-! ## What a program does before it looks again -/

/-- Until the program sends a command satisfying `B`, it sends only commands satisfying `Q`. -/
def Until (B Q : C → Prop) : Prog C R ε α → Prop
  | .ret _ => True
  | .raise _ => True
  | .cmd c k => B c ∨ Q c ∧ ∀ v, Until B Q (k v)

section
variable {B Q : C → Prop} {p : Prog C R ε α}

@[simp] theorem until_ret {a : α} : Until B Q (.ret a : Prog C R ε α) := trivial
@[simp] theorem until_raise {e : ε} : Until B Q (.raise e : Prog C R ε α) := trivial

@[simp] theorem until_cmd {c : C} {k : Except ε (R c) → Prog C R ε α} :
    Until B Q (.cmd c k) ↔ B c ∨ Q c ∧ ∀ v, Until B Q (k v) := Iff.rfl

/-- Any other command leaves the program where it was. -/
theorem Until.step {c : C} {k : Except ε (R c) → Prog C R ε α} (h : Until B Q (.cmd c k))
    (hc : ¬ B c) (v : Except ε (R c)) : Until B Q (k v) :=
  (h.resolve_left hc).2 v

theorem Until.imp {Q' : C → Prop} (h : Until B Q p) (himp : ∀ c, Q c → Q' c) : Until B Q' p := by
  induction p with
  | ret a => trivial
  | raise e => trivial
  | cmd c k ih => exact Or.imp_right (fun hq => ⟨himp c hq.1, fun v => ih v (hq.2 v)⟩) h

theorem Until.bind {f : α → Prog C R ε β} (h : Until B Q p) (hf : ∀ a, Until B Q (f a)) :
    Until B Q (p >>= f) := by
  induction p with
  | ret a => exact hf a
  | raise e => trivial
  | cmd c k ih => exact Or.imp_right (fun hq => ⟨hq.1, fun v => ih v (hq.2 v)⟩) h

theorem Until.catch {h : ε → Prog C R ε α} (hp : Until B Q p) (hh : ∀ e, Until B Q (h e)) :
    Until B Q (tryCatch p h) := by
  induction p with
  | ret a => trivial
  | raise e => exact hh e
  | cmd c k ih => exact Or.imp_right (fun hq => ⟨hq.1, fun v => ih v (hq.2 v)⟩) hp

end

end Prog

end Lib
