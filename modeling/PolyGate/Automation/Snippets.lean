import PolyGate.Automation.CompilePreview
import PolyGate.Automation.Policy.NextDocument
import PolyGate.Lib.JsonEncode
import PolyGate.Lib.JsonRead
import PolyGate.Lib.PyLiteral
import PolyGate.Lib.ShellWords

/-!
# `Automation/Snippets.lean` — the snippets denote the request

One prompt goes through the grammars of JSON, of a shell and of Python. JSON and Python share what
the indented text needs (`Reader.Lawful`), so that the text is read once for both; the shell takes
what is quoted for one word.
-/

namespace PolyGate.Automation

open Lib

/-! ## What JSON and Python write alike -/

section Shared

/-- Written on one line. -/
def Scalar : Json → Prop
  | .int n => digitCount (intStr n) ≤ 4300
  | .float (.finite _ q) => PyFloat.IsDouble q
  | .str _ | .arr [] | .obj [] => True
  | _ => False

mutual

/-- Without the words that JSON and Python spell differently. -/
def Shared : Json → Prop
  | .arr (v :: elems) => Shared v ∧ SharedElems elems
  | .obj ((k, v) :: fields) =>
    (((k, v) :: fields).map (·.1)).Nodup ∧ Shared v ∧ SharedFields fields
  | v => Scalar v

def SharedElems : List Json → Prop
  | [] => True
  | v :: elems => Shared v ∧ SharedElems elems

def SharedFields : List (PyStr × Json) → Prop
  | [] => True
  | (_, v) :: fields => Shared v ∧ SharedFields fields

end

/-- A string, a number, an array or an object begins so. -/
def IsOpening (p : CodePoint) : Prop :=
  PyLiteral.isDigit p = true ∨ p = codePoint '-' ∨ p = codePoint '"' ∨ p = codePoint '[' ∨
    p = codePoint '\x7b'

def Opens (s : PyStr) : Prop := ∃ p t, s = p :: t ∧ IsOpening p

/-- What can stand after a value in the text. -/
def Follows (r : PyStr) : Prop :=
  ∀ p, r.head? = some p → p = codePoint ',' ∨ p = codePoint '\n'

theorem Opens.append {s : PyStr} (h : Opens s) (r : PyStr) : Opens (s ++ r) := by
  obtain ⟨p, t, rfl, hp⟩ := h
  exact ⟨p, t ++ r, rfl, hp⟩

theorem Opens.begins {s : PyStr} (h : Opens s) : Begins s := by
  obtain ⟨p, t, rfl, hp⟩ := h
  refine ⟨p, t, rfl, ?_⟩
  rcases hp with hp | rfl | rfl | rfl | rfl
  · simp only [PyLiteral.isDigit, Bool.and_eq_true, decide_eq_true_iff] at hp
    refine ⟨by omega, ?_⟩
    rintro rfl
    exact absurd hp.2 (by decide)
  all_goals decide

theorem Follows.endsNumber {r : PyStr} (h : Follows r) : EndsNumber r := by
  intro p hp
  rcases h p hp with rfl | rfl
  · decide
  · decide

theorem follows_comma (r : PyStr) : Follows (codePoint ',' :: r) :=
  fun _ hp => Or.inl (Option.some.inj hp).symm

theorem follows_newline (n : Nat) (r : PyStr) : Follows (newline n ++ r) :=
  fun _ hp => Or.inr (Option.some.inj hp).symm

/-- A number begins with a digit or its sign. -/
theorem opens_number {text : List Char} {kind : NumberKind} (h : numberKind text = some kind) :
    Opens (text.map codePoint) := by
  obtain ⟨s, hs, hkind⟩ := Option.bind_eq_some_iff.mp h
  cases text with
  | nil =>
    cases hs
    cases hkind
  | cons c text =>
    obtain ⟨s₁, hnext, -⟩ := Option.bind_eq_some_iff.mp hs
    refine ⟨codePoint c, text.map codePoint, rfl, ?_⟩
    by_cases hsign : c = '-'
    · exact Or.inr (Or.inl (hsign ▸ rfl))
    · refine Or.inl ?_
      have hdigit : c.isDigit = true := by
        rw [NumberState.next, if_neg hsign, NumberState.next.first] at hnext
        split at hnext
        · rename_i hzero
          rw [hzero]
          rfl
        · split at hnext
          · assumption
          · cases hnext
      simp only [Char.isDigit, Bool.and_eq_true, decide_eq_true_iff, ge_iff_le,
        UInt32.le_iff_toNat_le] at hdigit
      unfold PyLiteral.isDigit
      rw [Bool.and_eq_true, decide_eq_true_iff, decide_eq_true_iff]
      exact hdigit

theorem opens_dumpsIndent {v : Json} (h : Shared v) (level : Nat) :
    Opens (dumpsIndent level v) := by
  cases v with
  | null => exact h.elim
  | bool b => exact h.elim
  | int n => exact opens_number (numberKind_intStr n)
  | float x =>
    cases x with
    | finite neg q => exact opens_number (numberKind_repr h.1)
    | inf neg => exact h.elim
    | nan => exact h.elim
  | str s => exact ⟨_, _, rfl, by simp [IsOpening]⟩
  | arr elems =>
    cases elems with
    | nil => exact ⟨codePoint '[', str "]", rfl, by simp [IsOpening]⟩
    | cons v elems => exact ⟨codePoint '[', _, by rw [dumpsIndent]; rfl, by simp [IsOpening]⟩
  | obj fields =>
    cases fields with
    | nil => exact ⟨codePoint '\x7b', str "\x7d", rfl, by simp [IsOpening]⟩
    | cons kv fields => exact ⟨codePoint '\x7b', _, by rw [dumpsIndent]; rfl, by simp [IsOpening]⟩

mutual

theorem plain_of_shared {d : Dialect} (hd : ∀ m ∈ d.maxDigits, 4300 ≤ m) : ∀ {v : Json},
    Shared v → Plain d v
  | .null, h | .bool _, h => h.elim
  | .int _, h => fun m hm => h.trans (hd m hm)
  | .float (.finite _ _), h => h
  | .float (.inf _), h | .float .nan, h => h.elim
  | .str _, _ | .arr [], _ => trivial
  | .obj [], _ => ⟨List.nodup_nil, trivial⟩
  | .arr (_ :: _), h => ⟨plain_of_shared hd h.1, plainElems_of_shared hd h.2⟩
  | .obj ((_, _) :: _), h => ⟨h.1, plain_of_shared hd h.2.1, plainFields_of_shared hd h.2.2⟩

theorem plainElems_of_shared {d : Dialect} (hd : ∀ m ∈ d.maxDigits, 4300 ≤ m) :
    ∀ {elems : List Json}, SharedElems elems → PlainElems d elems
  | [], _ => trivial
  | _ :: _, h => ⟨plain_of_shared hd h.1, plainElems_of_shared hd h.2⟩

theorem plainFields_of_shared {d : Dialect} (hd : ∀ m ∈ d.maxDigits, 4300 ≤ m) :
    ∀ {fields : List (PyStr × Json)}, SharedFields fields → PlainFields d fields
  | [], _ => trivial
  | (_, _) :: _, h => ⟨plain_of_shared hd h.1, plainFields_of_shared hd h.2⟩

end

end Shared

/-! ## Reading the indented text -/

/-- What stands before `r` in the text `s`: a value, or the elements or members that are still to
come. -/
structure Reader where
  value : PyStr → Json → PyStr → Prop
  elements : PyStr → List Json → PyStr → Prop
  members : PyStr → List (PyStr × Json) → PyStr → Prop

/-- A reader for which an indentation is nothing. -/
structure Reader.Lawful (R : Reader) : Prop where
  scalar {v : Json} {r : PyStr} : Scalar v → Follows r → R.value (dumps v ++ r) v r
  arr {n : Nat} {s r : PyStr} {vs : List Json} : Opens s → R.elements s vs r →
    R.value (codePoint '[' :: (newline n ++ s)) (.arr vs) r
  obj {n : Nat} {k s r : PyStr} {kvs : List (PyStr × Json)} : R.members (quote k ++ s) kvs r →
    R.value (codePoint '\x7b' :: (newline n ++ (quote k ++ s))) (.obj (dictOf kvs)) r
  last {n : Nat} {s r : PyStr} {v : Json} : R.value s v (newline n ++ codePoint ']' :: r) →
    R.elements s [v] r
  next {n : Nat} {s s' r : PyStr} {v : Json} {vs : List Json} : Opens s' →
    R.value s v (codePoint ',' :: (newline n ++ s')) → R.elements s' vs r →
    R.elements s (v :: vs) r
  lastMember {n : Nat} {k s r : PyStr} {v : Json} : Opens s →
    R.value s v (newline n ++ codePoint '\x7d' :: r) →
    R.members (quote k ++ (str ": " ++ s)) [(k, v)] r
  nextMember {n : Nat} {k k' s s' r : PyStr} {v : Json} {kvs : List (PyStr × Json)} : Opens s →
    R.value s v (codePoint ',' :: (newline n ++ (quote k' ++ s'))) →
    R.members (quote k' ++ s') kvs r → R.members (quote k ++ (str ": " ++ s)) ((k, v) :: kvs) r

section Indented
variable {R : Reader}

mutual

/-- **The indented text of a value is read as that value.** -/
theorem reads_dumpsIndent (hR : R.Lawful) (level : Nat) : ∀ {v : Json}, Shared v → ∀ {r : PyStr},
    Follows r → R.value (dumpsIndent level v ++ r) v r
  | .null, h, _, _ => h.elim
  | .bool _, h, _, _ => h.elim
  | .int n, h, _, hr => hR.scalar h hr
  | .float x, h, _, hr => by
    cases x <;> exact hR.scalar h hr
  | .str s, h, _, hr => hR.scalar h hr
  | .arr [], h, _, hr => hR.scalar h hr
  | .obj [], h, _, hr => hR.scalar h hr
  | .arr (v :: elems), h, r, _ => by
    have helems := reads_elemsIndent hR level h.2 h.1
      (fun hr => reads_dumpsIndent hR (level + 1) h.1 hr) r
    have hvalue := hR.arr (n := level + 1) ((opens_dumpsIndent h.1 _).append _) helems
    rw [dumpsIndent]
    simpa using hvalue
  | .obj ((k, v) :: fields), h, r, _ => by
    have hfields := reads_fieldsIndent hR level h.2.2 k h.2.1
      (fun hr => reads_dumpsIndent hR (level + 1) h.2.1 hr) r
    have hvalue := hR.obj (n := level + 1) hfields
    rw [dictOf_eq h.1] at hvalue
    rw [dumpsIndent]
    simpa using hvalue

theorem reads_elemsIndent (hR : R.Lawful) (level : Nat) : ∀ {elems : List Json},
    SharedElems elems → ∀ {v : Json}, Shared v →
    (∀ {r}, Follows r → R.value (dumpsIndent (level + 1) v ++ r) v r) → ∀ r,
    R.elements (dumpsIndent (level + 1) v ++ (elemsIndent level elems ++ r)) (v :: elems) r
  | [], _, v, _, hread, r => by
    refine hR.last (n := level) ?_
    have hvalue := hread (follows_newline level (codePoint ']' :: r))
    rw [elemsIndent]
    simpa using hvalue
  | w :: elems, h, v, _, hread, r => by
    have hrest := reads_elemsIndent hR level h.2 h.1
      (fun hr => reads_dumpsIndent hR (level + 1) h.1 hr) r
    have hvalue := hread (follows_comma (newline (level + 1) ++
      (dumpsIndent (level + 1) w ++ (elemsIndent level elems ++ r))))
    refine hR.next (n := level + 1) ((opens_dumpsIndent h.1 _).append _) ?_ hrest
    rw [elemsIndent]
    simpa using hvalue

theorem reads_fieldsIndent (hR : R.Lawful) (level : Nat) : ∀ {fields : List (PyStr × Json)},
    SharedFields fields → ∀ (k : PyStr) {v : Json}, Shared v →
    (∀ {r}, Follows r → R.value (dumpsIndent (level + 1) v ++ r) v r) → ∀ r,
    R.members (quote k ++ (str ": " ++ (dumpsIndent (level + 1) v ++
      (fieldsIndent level fields ++ r)))) ((k, v) :: fields) r
  | [], _, k, v, hv, hread, r => by
    refine hR.lastMember (n := level) ((opens_dumpsIndent hv _).append _) ?_
    have hvalue := hread (follows_newline level (codePoint '\x7d' :: r))
    rw [fieldsIndent]
    simpa using hvalue
  | (k', w) :: fields, h, k, v, hv, hread, r => by
    have hrest := reads_fieldsIndent hR level h.2 k' h.1
      (fun hr => reads_dumpsIndent hR (level + 1) h.1 hr) r
    have hvalue := hread (follows_comma (newline (level + 1) ++ (quote k' ++ (str ": " ++
      (dumpsIndent (level + 1) w ++ (fieldsIndent level fields ++ r))))))
    refine hR.nextMember (n := level + 1) ((opens_dumpsIndent hv _).append _) ?_ hrest
    rw [fieldsIndent]
    simpa using hvalue

end

end Indented

/-! ## JSON -/

section AsJson

/-- An indentation is blank. -/
theorem blank_newline (n : Nat) : ∀ p ∈ newline n, p = codePoint '\n' ∨ p = codePoint ' ' := by
  intro p hp
  rcases List.mem_cons.mp hp with rfl | hp
  · exact Or.inl rfl
  · exact Or.inr (List.eq_of_mem_replicate hp)

theorem skipSpace_newline {p : CodePoint} (hp : isJsonSpace p = false) (n : Nat) (s : PyStr) :
    skipSpace (newline n ++ p :: s) = p :: s := by
  unfold skipSpace
  rw [List.dropWhile_append_of_pos, List.dropWhile_cons_of_neg (by simp [hp])]
  intro q hq
  rcases blank_newline n q hq with rfl | rfl
  · rfl
  · rfl

theorem skipSpace_opens {s : PyStr} (h : Opens s) (n : Nat) : skipSpace (newline n ++ s) = s := by
  obtain ⟨p, t, rfl, hp⟩ := h
  refine skipSpace_newline ?_ n t
  rcases hp with hp | rfl | rfl | rfl | rfl
  · refine Bool.eq_false_iff.mpr fun hspace => ?_
    have hle := isJsonSpace_le hspace
    simp only [PyLiteral.isDigit, Bool.and_eq_true, decide_eq_true_iff] at hp
    omega
  all_goals rfl

def jsonReader (d : Dialect) : Reader where
  value s v r := Reads d s (.value v) r
  elements s vs r := Reads d s (.elements vs) r
  members s kvs r := Reads d s (.members kvs) r

/-- A member, in the grammar of JSON. -/
theorem key_text (k : PyStr) {s : PyStr} (h : Opens s) :
    ∃ rest, quote k ++ (str ": " ++ s) = codePoint '"' :: rest ∧
      scanString .char none [] rest = .ok (k, str ": " ++ s) ∧
      skipSpace (str ": " ++ s) = codePoint ':' :: (codePoint ' ' :: s) ∧
      skipSpace (codePoint ' ' :: s) = s :=
  ⟨(quote k).tail ++ (str ": " ++ s), rfl, scanString_quote k _, skipSpace_cons rfl _,
    h.begins.skipSpace⟩

theorem lawful_json {d : Dialect} (hd : ∀ m ∈ d.maxDigits, 4300 ≤ m) : (jsonReader d).Lawful where
  scalar {v r} hv hr := by
    have hends := hr.endsNumber
    cases v with
    | null => exact hv.elim
    | bool b => exact hv.elim
    | int n =>
      have hplain : Plain d (.int n) := fun m hm => hv.trans (hd m hm)
      exact .number (number_int hplain hends)
    | float x =>
      cases x with
      | finite neg q => exact .number (number_float hv hends)
      | inf neg => exact hv.elim
      | nan => exact hv.elim
    | str s => exact .str (scanString_quote s r)
    | arr elems =>
      cases elems with
      | nil => exact .emptyArr rfl
      | cons v elems => exact hv.elim
    | obj fields =>
      cases fields with
      | nil => exact .emptyObj rfl
      | cons kv fields => exact hv.elim
  arr hs h := .arr ((skipSpace_opens hs _).symm ▸ h)
  obj {n k s r kvs} h := by
    refine .obj ?_
    rw [show quote k ++ s = codePoint '"' :: ((quote k).tail ++ s) from rfl,
      skipSpace_newline rfl]
    exact h
  last h := .last h (skipSpace_newline rfl _ _)
  next hs' h hrest := .next h (skipSpace_cons rfl _) ((skipSpace_opens hs' _).symm ▸ hrest)
  lastMember {n k s r v} hs h := by
    obtain ⟨rest, heq, hkey, hcolon, hspace⟩ := key_text k hs
    rw [heq]
    exact .lastMember hkey hcolon (hspace.symm ▸ h) (skipSpace_newline rfl _ _)
  nextMember {n k k' s s' r v kvs} hs h hrest := by
    obtain ⟨rest, heq, hkey, hcolon, hspace⟩ := key_text k hs
    rw [heq]
    refine .nextMember hkey hcolon (hspace.symm ▸ h) (skipSpace_cons rfl _) ?_
    rw [show quote k' ++ s' = codePoint '"' :: ((quote k').tail ++ s') from rfl,
      skipSpace_newline rfl]
    exact hrest

/-- **The indented text is JSON for the value.** -/
theorem parse_dumpsIndent {d : Dialect} (hd : ∀ m ∈ d.maxDigits, 4300 ≤ m) {v : Json}
    (h : Shared v) : parse d (dumpsIndent 0 v) = .ok v := by
  have hreads := reads_dumpsIndent (lawful_json hd) 0 h (r := []) fun p hp => nomatch hp
  rw [List.append_nil] at hreads
  refine parse_eq_ok.mpr ⟨[], ?_, rfl⟩
  rw [(opens_dumpsIndent h 0).begins.skipSpace]
  exact hreads

end AsJson

/-! ## Python -/

section AsPython

/-- Neither blank nor the beginning of a comment. -/
def Solid (p : CodePoint) : Prop :=
  [0x20, 0x09, 0x0a, 0x0c, 0x0d].contains p.val = false ∧ p ≠ codePoint '#'

theorem skip_solid {p : CodePoint} (hp : Solid p) (s : PyStr) :
    PyLiteral.skip false (p :: s) = p :: s := by
  rw [PyLiteral.skip, hp.1, if_neg Bool.false_ne_true, if_neg hp.2]

theorem skip_newline {p : CodePoint} (hp : Solid p) (n : Nat) (s : PyStr) :
    PyLiteral.skip false (newline n ++ p :: s) = p :: s := by
  have hspaces : ∀ k,
      PyLiteral.skip false (List.replicate k (codePoint ' ') ++ p :: s) = p :: s := by
    intro k
    induction k with
    | zero => exact skip_solid hp s
    | succ k ih => exact ih
  exact hspaces (2 * n)

theorem IsOpening.solid {p : CodePoint} (hp : IsOpening p) : Solid p := by
  rcases hp with hp | rfl | rfl | rfl | rfl
  · simp only [PyLiteral.isDigit, Bool.and_eq_true, decide_eq_true_iff] at hp
    refine ⟨?_, ?_⟩
    · refine Bool.eq_false_iff.mpr fun hblank => ?_
      simp only [List.contains_cons, List.contains_nil, Bool.or_false, Bool.or_eq_true,
        beq_iff_eq] at hblank
      omega
    · rintro rfl
      exact absurd hp.1 (by decide)
  all_goals exact ⟨rfl, by decide⟩

theorem skip_opens {s : PyStr} (h : Opens s) (n : Nat) :
    PyLiteral.skip false (newline n ++ s) = s := by
  obtain ⟨p, t, rfl, hp⟩ := h
  exact skip_newline hp.solid n t

theorem skip_quote (n : Nat) (k s : PyStr) :
    PyLiteral.skip false (newline n ++ (quote k ++ s)) = quote k ++ s :=
  skip_newline ⟨rfl, by decide⟩ n _

theorem Follows.head_ne_quote {r : PyStr} (h : Follows r) : r.head? ≠ some (codePoint '"') := by
  intro hr
  rcases h _ hr with h | h
  · exact absurd h (by decide)
  · exact absurd h (by decide)

theorem Follows.not_nameChar {r : PyStr} (h : Follows r) :
    r.head?.any PyLiteral.isNameChar = false := by
  cases r with
  | nil => rfl
  | cons p r =>
    rcases h p rfl with rfl | rfl
    · rfl
    · rfl

/-- A number of JSON, where Python reads it. -/
theorem value_number {text : List Char} {kind : NumberKind} (hkind : numberKind text = some kind)
    {v : Json} {r : PyStr} (hread : Lib.number pythonJson (text.map codePoint ++ r) = .ok (v, r))
    (hr : Follows r) (fuel : Nat) :
    PyLiteral.value (fuel + 1) (text.map codePoint ++ r) = some (v, r) := by
  obtain ⟨p, t, htext, hp⟩ := opens_number hkind
  have hnumber : isNumberChar p = true := by
    obtain ⟨s, hs, -⟩ := Option.bind_eq_some_iff.mp hkind
    exact scanNumber_chars hs p (htext ▸ List.mem_cons_self)
  have hne {c : Char} (hc : isNumberChar (codePoint c) = false) : p ≠ codePoint c := by
    rintro rfl
    rw [hnumber] at hc
    cases hc
  have hfirst : (PyLiteral.isDigit p || p = codePoint '-') = true := by
    rcases hp with hp | rfl | rfl | rfl | rfl
    · rw [hp]
      rfl
    · rfl
    · exact absurd rfl (hne (c := '"') rfl)
    · exact absurd rfl (hne (c := '[') rfl)
    · exact absurd rfl (hne (c := '\x7b') rfl)
  rw [htext, List.cons_append] at hread ⊢
  rw [PyLiteral.value, if_neg (hne rfl), if_neg (hne rfl), if_neg (hne rfl), if_pos hfirst,
    PyLiteral.number, hread]
  dsimp only
  rw [hr.not_nameChar, if_neg Bool.false_ne_true]

theorem value_quote (s : PyStr) {r : PyStr} (hr : r.head? ≠ some (codePoint '"')) (fuel : Nat) :
    PyLiteral.value (fuel + 1) (quote s ++ r) = some (.str s, r) := by
  rw [show quote s ++ r = codePoint '"' :: ((quote s).tail ++ r) from rfl, PyLiteral.value,
    if_pos rfl, PyLiteral.string_quote s hr]
  rfl

/-- With enough fuel. -/
def pythonReader : Reader where
  value s v r := ∃ n, ∀ fuel ≥ n, PyLiteral.value fuel s = some (v, r)
  elements s vs r := ∃ n, ∀ fuel ≥ n, PyLiteral.elements fuel s = some (vs, r)
  members s kvs r := ∃ n, ∀ fuel ≥ n, PyLiteral.items fuel s = some (kvs, r)

/-- One step takes one unit. -/
theorem enough {P : Nat → Prop} (h : ∃ n, ∀ fuel ≥ n, P (fuel + 1)) : ∃ n, ∀ fuel ≥ n, P fuel := by
  obtain ⟨n, h⟩ := h
  refine ⟨n + 1, fun fuel hfuel => ?_⟩
  cases fuel with
  | zero => exact absurd hfuel (Nat.not_succ_le_zero n)
  | succ fuel => exact h fuel (Nat.le_of_succ_le_succ hfuel)

/-- A member up to its value. -/
theorem items_member (k : PyStr) {s r : PyStr} {v : Json} {fuel : Nat} (hs : Opens s)
    (h : PyLiteral.value (fuel + 1) s = some (v, r)) :
    PyLiteral.value (fuel + 1) (quote k ++ (str ": " ++ s)) = some (.str k, str ": " ++ s) ∧
    PyLiteral.skip false (str ": " ++ s) = codePoint ':' :: codePoint ' ' :: s ∧
    PyLiteral.value (fuel + 1) (PyLiteral.skip false (codePoint ' ' :: s)) = some (v, r) := by
  refine ⟨value_quote k ?_ fuel, skip_solid ⟨rfl, by decide⟩ _, ?_⟩
  · exact fun h => absurd (Option.some.inj h) (by decide)
  · obtain ⟨p, t, rfl, hp⟩ := hs
    exact (congrArg (PyLiteral.value (fuel + 1)) (skip_solid hp.solid t)).trans h

theorem lawful_python : pythonReader.Lawful where
  scalar {v r} hv hr := by
    refine enough ⟨0, fun fuel _ => ?_⟩
    have hends := hr.endsNumber
    cases v with
    | null => exact hv.elim
    | bool b => exact hv.elim
    | int n =>
      have hplain : Plain pythonJson (.int n) := fun m hm => Option.some.inj hm ▸ hv
      exact value_number (numberKind_intStr n) (number_int hplain hends) hr fuel
    | float x =>
      cases x with
      | finite neg q => exact value_number (numberKind_repr hv.1) (number_float hv hends) hr fuel
      | inf neg => exact hv.elim
      | nan => exact hv.elim
    | str s => exact value_quote s hr.head_ne_quote fuel
    | arr elems =>
      cases elems with
      | nil => rfl
      | cons v elems => exact hv.elim
    | obj fields =>
      cases fields with
      | nil => rfl
      | cons kv fields => exact hv.elim
  arr {n s r vs} hs h := by
    obtain ⟨m, h⟩ := h
    refine enough ⟨m, fun fuel hfuel => ?_⟩
    have hend : s.head? ≠ some (codePoint ']') := hs.begins.head_ne
    rw [PyLiteral.value, if_neg (by decide), if_pos rfl, skip_opens hs, if_neg hend, h fuel hfuel]
    rfl
  obj {n k s r kvs} h := by
    obtain ⟨m, h⟩ := h
    refine enough ⟨m, fun fuel hfuel => ?_⟩
    have hend : (quote k ++ s).head? ≠ some (codePoint '\x7d') := by
      rw [head_quote]
      decide
    rw [PyLiteral.value, if_neg (by decide), if_neg (by decide), if_pos rfl, skip_quote,
      if_neg hend, h fuel hfuel]
    rfl
  last {n s r v} h := by
    obtain ⟨m, h⟩ := h
    refine enough ⟨m, fun fuel hfuel => ?_⟩
    rw [PyLiteral.elements, h fuel hfuel, Option.bind_eq_bind, Option.bind_some]
    dsimp only
    rw [skip_newline ⟨rfl, by decide⟩]
    rfl
  next {n s s' r v vs} hs' h hrest := by
    obtain ⟨m, h⟩ := h
    obtain ⟨m', hrest⟩ := hrest
    -- fuel enough for the element and for the rest
    refine enough ⟨m + m', fun fuel hfuel => ?_⟩
    have hend : s'.head? ≠ some (codePoint ']') := hs'.begins.head_ne
    rw [PyLiteral.elements, h fuel (by omega), Option.bind_eq_bind, Option.bind_some]
    dsimp only
    rw [skip_solid ⟨rfl, by decide⟩]
    dsimp only
    rw [if_neg (by decide), if_pos rfl, skip_opens hs', if_neg hend, hrest fuel (by omega)]
    rfl
  lastMember {n k s r v} hs h := by
    obtain ⟨m, h⟩ := h
    refine enough (enough ⟨m, fun fuel hfuel => ?_⟩)
    obtain ⟨hkey, hcolon, hvalue⟩ := items_member k hs (h (fuel + 1) (Nat.le_succ_of_le hfuel))
    rw [PyLiteral.items, hkey, Option.bind_eq_bind, Option.bind_some]
    dsimp only
    rw [hcolon, List.head?_cons, if_neg (by decide), List.tail_cons, hvalue, Option.bind_some]
    dsimp only
    rw [skip_newline ⟨rfl, by decide⟩]
    rfl
  nextMember {n k k' s s' r v kvs} hs h hrest := by
    obtain ⟨m, h⟩ := h
    obtain ⟨m', hrest⟩ := hrest
    refine enough (enough ⟨m + m', fun fuel hfuel => ?_⟩)
    obtain ⟨hkey, hcolon, hvalue⟩ := items_member k hs (h (fuel + 1) (by omega))
    have hend : (quote k' ++ s').head? ≠ some (codePoint '\x7d') := by
      rw [head_quote]
      decide
    rw [PyLiteral.items, hkey, Option.bind_eq_bind, Option.bind_some]
    dsimp only
    rw [hcolon, List.head?_cons, if_neg (by decide), List.tail_cons, hvalue, Option.bind_some]
    dsimp only
    rw [skip_solid ⟨rfl, by decide⟩]
    dsimp only
    rw [if_neg (by decide), if_pos rfl, skip_quote, if_neg hend, hrest (fuel + 1) (by omega)]
    rfl

/-- **The indented text is a Python literal for the value**, where its line ends. -/
theorem value_dumpsIndent {v : Json} (h : Shared v) (r : PyStr) :
    ∃ n, ∀ fuel ≥ n, PyLiteral.value fuel (dumpsIndent 0 v ++ codePoint '\n' :: r) =
      some (v, codePoint '\n' :: r) :=
  reads_dumpsIndent lawful_python 0 h (follows_newline 0 r)

end AsPython

/-! ## The shell -/

section AsWord

/-- The safe characters stand for themselves. -/
theorem not_isOneOf {text : String}
    (h : text.toList.all (fun c => !isShellSafe (codePoint c)) = true)
    {p : CodePoint} (hp : isShellSafe p = true) : Shell.isOneOf text p = false := by
  refine Bool.eq_false_iff.mpr fun hone => ?_
  obtain ⟨q, hq, heq⟩ := List.any_eq_true.mp hone
  obtain ⟨c, hc, rfl⟩ := List.mem_map.mp hq
  have hunsafe := List.all_eq_true.mp h c hc
  rw [of_decide_eq_true heq, hp] at hunsafe
  cases hunsafe

theorem ordinary_of_safe {p : CodePoint} (hp : isShellSafe p = true) : Shell.Ordinary p :=
  ⟨not_isOneOf rfl hp, not_isOneOf rfl hp, not_isOneOf rfl hp, not_isOneOf rfl hp⟩

/-- Inside single quotes, which a single quote leaves and enters again. -/
theorem run_quoted (s : PyStr) (w : Shell.Word) (ws : List Shell.Word) :
    Shell.run ⟨.single, some w, ws⟩
      (s.flatMap fun p => if p = codePoint '\'' then str "'\"'\"'" else [p]) =
      some ⟨.single, some (w ++ Shell.literal s), ws⟩ := by
  induction s generalizing w with
  | nil =>
    rw [Shell.literal, List.map_nil, List.append_nil]
    rfl
  | cons p s ih =>
    rw [List.flatMap_cons, Shell.run_append]
    have hone : Shell.run ⟨.single, some w, ws⟩
        (if p = codePoint '\'' then str "'\"'\"'" else [p]) =
        some ⟨.single, some (w ++ [.char p]), ws⟩ := by
      by_cases hp : p = codePoint '\''
      · rw [if_pos hp, hp]
        rfl
      · have hstep : Shell.step ⟨.single, some w, ws⟩ p =
            some ⟨.single, some (w ++ [.char p]), ws⟩ := if_neg hp
        rw [if_neg hp, Shell.run_cons, hstep]
        rfl
    rw [hone, Option.bind_some, ih, List.append_assoc]
    rfl

/-- **What is quoted is one word**, in which nothing is expanded. -/
theorem run_shlexQuote (s : PyStr) (ws : List Shell.Word) :
    Shell.run ⟨.plain, none, ws⟩ (shlexQuote s) = some ⟨.plain, some (Shell.literal s), ws⟩ := by
  unfold shlexQuote
  split
  · rename_i hnil
    rw [hnil]
    rfl
  · rename_i hne
    split
    · rename_i hsafe
      obtain ⟨p, s, rfl⟩ := List.exists_cons_of_ne_nil hne
      rw [List.all_cons, Bool.and_eq_true, List.all_eq_true] at hsafe
      rw [Shell.run_cons, Shell.step_ordinary (ordinary_of_safe hsafe.1), Option.bind_some,
        Option.getD_none, Shell.run_ordinary fun q hq => ordinary_of_safe (hsafe.2 q hq)]
      rfl
    · rw [List.cons_append, Shell.run_cons]
      show (some (Shell.State.mk .single (some []) ws)).bind _ = _
      rw [Option.bind_some, Shell.run_append, run_quoted]
      rfl

end AsWord

/-! ## The snippets -/

section Snippets

theorem str_append (s t : String) : str (s ++ t) = str s ++ str t := by
  unfold str
  rw [String.toList_append, List.map_append]

/-- A text without surrogates is kept. -/
theorem str_ofText {s : PyStr} (h : SurrogateFree s) : str (ofText s) = s := by
  obtain ⟨t, rfl⟩ := exists_str_iff.mpr h
  unfold ofText str
  rw [chars_map, String.toList_ofList]

theorem surrogateFree_newline (n : Nat) : SurrogateFree (newline n) := by
  intro p hp
  rcases blank_newline n p hp with rfl | rfl
  · exact codePoint_valid '\n'
  · exact codePoint_valid ' '

mutual

theorem surrogateFree_dumpsIndent (level : Nat) : ∀ {v : Json}, Sendable v →
    SurrogateFree (dumpsIndent level v)
  | .arr (v :: elems), h => by
    rw [dumpsIndent]
    simp only [List.cons_append, surrogateFree_cons, surrogateFree_append]
    exact ⟨codePoint_valid '[', ⟨surrogateFree_newline _, surrogateFree_dumpsIndent _ h.1⟩,
      surrogateFree_elemsIndent level h.2⟩
  | .obj ((k, v) :: fields), h => by
    rw [dumpsIndent]
    simp only [List.cons_append, surrogateFree_cons, surrogateFree_append, quote_surrogateFree]
    exact ⟨codePoint_valid '\x7b', ⟨⟨⟨surrogateFree_newline _, h.1⟩, surrogateFree_str _⟩,
      surrogateFree_dumpsIndent _ h.2.1⟩, surrogateFree_fieldsIndent level h.2.2⟩
  | .null, h | .bool _, h | .int _, h | .float _, h | .str _, h | .arr [], h | .obj [], h => by
    rw [dumpsIndent, ← dumpsSep_default]
    · exact ((sendable_iff (surrogateFree_str _) (surrogateFree_str _) _).mp h).2
    all_goals simp

theorem surrogateFree_elemsIndent (level : Nat) : ∀ {elems : List Json}, SendableElems elems →
    SurrogateFree (elemsIndent level elems)
  | [], _ => by
    rw [elemsIndent, surrogateFree_append]
    exact ⟨surrogateFree_newline _, surrogateFree_str "]"⟩
  | v :: elems, h => by
    rw [elemsIndent]
    simp only [List.cons_append, surrogateFree_cons, surrogateFree_append]
    exact ⟨codePoint_valid ',', ⟨surrogateFree_newline _, surrogateFree_dumpsIndent _ h.1⟩,
      surrogateFree_elemsIndent level h.2⟩

theorem surrogateFree_fieldsIndent (level : Nat) : ∀ {fields : List (PyStr × Json)},
    SendableFields fields → SurrogateFree (fieldsIndent level fields)
  | [], _ => by
    rw [fieldsIndent, surrogateFree_append]
    exact ⟨surrogateFree_newline _, surrogateFree_str "\x7d"⟩
  | (k, v) :: fields, h => by
    rw [fieldsIndent]
    simp only [List.cons_append, surrogateFree_cons, surrogateFree_append, quote_surrogateFree]
    exact ⟨codePoint_valid ',', ⟨⟨⟨surrogateFree_newline _, h.1⟩, surrogateFree_str _⟩,
      surrogateFree_dumpsIndent _ h.2.1⟩, surrogateFree_fieldsIndent level h.2.2⟩

end

/-- A number of six digits has few enough for Python. -/
theorem digitCount_intStr {n : Nat} (hn : n < 10 ^ 6) : digitCount (intStr n) ≤ 4300 := by
  have hlength : (Nat.toDigits 10 n).length ≤ 6 :=
    (Nat.length_toDigits_le_iff (by decide) (by decide)).mpr hn
  unfold intStr digitCount
  rw [if_neg (Int.not_lt.mpr (Int.natCast_nonneg n))]
  exact List.countP_le_length.trans (hlength.trans (by decide))

/-- A chat request has texts and numbers only. -/
theorem shared_chat (model role content : String) (preferences : Preferences)
    (hcost : PyFloat.IsDouble preferences.maxCostUsd.nnabs) :
    Shared (GatewayRequest.mk model [⟨role, content⟩] preferences).json := by
  have hlatency : Scalar (.int preferences.latencyTargetMs) := by
    obtain ⟨-, hle⟩ := preferences.latencyTargetMs_bounds
    exact digitCount_intStr (hle.trans_lt (by decide))
  refine ⟨by simp, trivial, ⟨⟨?_, trivial, trivial, trivial⟩, trivial⟩, ⟨?_, ?_⟩, trivial⟩
  · simp
  · simp
  · exact ⟨trivial, trivial, hcost, hlatency, trivial⟩

theorem sendable_chat (model role content : String) (preferences : Preferences) :
    Sendable (GatewayRequest.mk model [⟨role, content⟩] preferences).json := by
  simp [GatewayRequest.json, Sendable, SendableFields, SendableElems, PyFloat.ofRat]

/-- The command line before its last word. -/
def curlWords : List Shell.Word :=
  [Shell.literal (str "curl"), Shell.literal (str "-X"), Shell.literal (str "POST"),
   .parameter (str "POLYGATE_URL:-http://localhost:8000") ::
     Shell.literal (str "/v1/chat/completions"),
   Shell.literal (str "-H"), Shell.literal (str "Content-Type: application/json"),
   Shell.literal (str "-d")]

theorem run_curl : Shell.run ⟨.plain, none, []⟩ (str ("curl -X POST " ++ polygateUrlPlaceholder ++
    "/v1/chat/completions " ++ "-H 'Content-Type: application/json' -d ")) =
      some ⟨.plain, none, curlWords⟩ := by
  decide +kernel

/-- The script before the literal. -/
def scriptBegin : String :=
  "import os\n\n" ++ "import requests\n\n" ++ "POLYGATE_URL = os.getenv(\"POLYGATE_URL\", \"" ++
    polygateUrlDefault ++ "\")\n\n" ++ "payload = "

/-- The lines that follow it. -/
def scriptRest : PyStr :=
  str "response = requests.post(\n" ++
    (str "    f\"\x7bPOLYGATE_URL\x7d/v1/chat/completions\", json=payload, timeout=30\n" ++
      (str ")\n" ++ (str "response.raise_for_status()\n" ++ str "print(response.json())")))

theorem afterTarget_script (rest : PyStr) : PyLiteral.afterTarget (str "payload" ++ str " = ") true
    (str scriptBegin ++ rest) = some rest := by
  rfl

/-- The argument of `-d`. -/
theorem surrogateFree_shlexQuote {s : PyStr} (h : SurrogateFree s) :
    SurrogateFree (shlexQuote s) := by
  unfold shlexQuote
  split
  · exact surrogateFree_str "''"
  · split
    · exact h
    · rw [surrogateFree_append]
      refine ⟨surrogateFree_cons.mpr ⟨codePoint_valid '\'', ?_⟩, surrogateFree_str "'"⟩
      intro p hp
      obtain ⟨q, hq, hp⟩ := List.mem_flatMap.mp hp
      split at hp
      · exact surrogateFree_str _ p hp
      · exact List.mem_singleton.mp hp ▸ h q hq

theorem normalize_cost (intent : AutomationIntent) :
    (normalize intent).1.preferences.maxCostUsd = intent.preferences.maxCostUsd := by
  unfold normalize
  split
  · rfl
  · rfl

/-- **The snippets denote the request.** The JSON text is read as the request; the command line ends
with one word, which is no file name for `curl` and is read as the request; and the script assigns
the request to `payload`. The costs are floats. -/
theorem snippets_denote (intent : AutomationIntent) (policyVersion : PolicyVersion)
    (previewId : String) (hcost : PyFloat.IsDouble intent.preferences.maxCostUsd.nnabs) :
    let preview := compilePreview intent policyVersion previewId
    let payload := preview.gatewayRequest.json
    (loads (str preview.snippets.json) = .ok payload ∧
      jsonParse (str preview.snippets.json) = some payload) ∧
    (∃ words argument,
      Shell.words (str preview.snippets.curl) = some (words ++ [Shell.literal argument]) ∧
      argument.head? ≠ some (codePoint '@') ∧
      loads argument = .ok payload ∧ jsonParse argument = some payload) ∧
    ∃ n, ∀ fuel ≥ n, PyLiteral.assigned fuel (str "payload") (str preview.snippets.python) =
      some payload := by
  intro preview payload
  have hcost' : PyFloat.IsDouble (normalize intent).1.preferences.maxCostUsd.nnabs := by
    rw [normalize_cost]
    exact hcost
  have hshared : Shared payload := shared_chat _ _ _ _ hcost'
  have hsendable : Sendable payload := sendable_chat _ _ _ _
  have hpython : ∀ m ∈ pythonJson.maxDigits, 4300 ≤ m := fun m hm => Option.some.inj hm ▸ le_rfl
  have hecma : ∀ m ∈ ecmaJson.maxDigits, 4300 ≤ m := fun m hm => by cases hm
  -- no surrogate is in the texts, so they survive the `String` of the snippet
  have hpretty : str (ofText (dumpsIndent 0 payload)) = dumpsIndent 0 payload :=
    str_ofText (surrogateFree_dumpsIndent 0 hsendable)
  refine ⟨?_, ?_, ?_⟩
  · show loads (str (ofText (dumpsIndent 0 payload))) = _ ∧
      jsonParse (str (ofText (dumpsIndent 0 payload))) = _
    rw [hpretty]
    exact ⟨parse_dumpsIndent hpython hshared,
      congrArg Except.toOption (parse_dumpsIndent hecma hshared)⟩
  -- the shell takes the quotes off, and curl is given the compact text
  · obtain ⟨compact, hcompact⟩ : ∃ compact, compact = dumpsSep (str ",") (str ":") payload :=
      ⟨_, rfl⟩
    have hfree : SurrogateFree compact := hcompact ▸
      ((sendable_iff (surrogateFree_str ",") (surrogateFree_str ":") payload).mp hsendable).2
    refine ⟨curlWords, compact, ?_, ?_, ?_, ?_⟩
    · show Shell.words (str (_ ++ ofText (shlexQuote (dumpsSep (str ",") (str ":") payload)))) = _
      rw [← hcompact, str_append, str_ofText (surrogateFree_shlexQuote hfree)]
      exact Shell.words_append run_curl (run_shlexQuote compact curlWords)
    · rw [hcompact]
      exact fun h => absurd (Option.some.inj h) (by decide)
    · rw [hcompact]
      exact parse_dumpsSep separators_compact (plain_of_shared hpython hshared)
    · rw [hcompact]
      exact congrArg Except.toOption
        (parse_dumpsSep separators_compact (plain_of_shared hecma hshared))
  -- the literal is followed by the rest of the script
  · obtain ⟨n, hn⟩ := value_dumpsIndent hshared scriptRest
    refine ⟨n, fun fuel hfuel => ?_⟩
    have hscript : str preview.snippets.python =
        str scriptBegin ++ (dumpsIndent 0 payload ++ codePoint '\n' :: scriptRest) := by
      show str (scriptBegin ++ ofText (dumpsIndent 0 payload) ++ "\n" ++ _ ++ _ ++ _ ++ _ ++ _) = _
      rw [scriptRest]
      simp only [str_append, hpretty, List.append_assoc]
      rfl
    rw [PyLiteral.assigned, hscript, afterTarget_script, Option.bind_eq_bind, Option.bind_some,
      hn fuel hfuel]
    rfl

/-- Something for each of the three grammars. -/
def quotedPrompt : String := "it's \"$(id)\" \\ \n \x00 😀"

theorem quotedPrompt_bounds : 1 ≤ quotedPrompt.length ∧ quotedPrompt.length ≤ 20000 := by decide

theorem employee_bounds : 1 ≤ "E-1".length ∧ "E-1".length ≤ 80 := by decide

def quotedIntent : AutomationIntent where
  employee := "E-1"
  department := .engineering
  scenario := .productionIncident
  urgency := .critical
  prompt := quotedPrompt
  preferences := exampleDraft.automation.scenarios.productionIncident.defaults
  employee_bounds := employee_bounds
  prompt_bounds := quotedPrompt_bounds

theorem snippets_denote_quoted :
    loads (str (compilePreview quotedIntent seedRecord "preview_1").snippets.json) =
      .ok (compilePreview quotedIntent seedRecord "preview_1").gatewayRequest.json ∧
    ∃ n, ∀ fuel ≥ n, PyLiteral.assigned fuel (str "payload")
      (str (compilePreview quotedIntent seedRecord "preview_1").snippets.python) =
        some (compilePreview quotedIntent seedRecord "preview_1").gatewayRequest.json := by
  obtain ⟨hjson, -, hpython⟩ := snippets_denote quotedIntent seedRecord "preview_1"
    (by decide +kernel)
  exact ⟨hjson.1, hpython⟩

end Snippets

end PolyGate.Automation
