import Mathlib.Algebra.Order.Field.Rat
import Mathlib.Data.List.DropRight
import Mathlib.Data.NNRat.Lemmas
import Mathlib.Tactic.FieldSimp
import Mathlib.Tactic.Ring
import PolyGate.Lib.Cut
import PolyGate.Lib.PyFloat

/-!
# `Lib/PyRepr.lean` — how Python writes numbers

`str` of an `int` and of a `float`. A float is written from its shortest decimal, in fixed
notation for exponents from -4 to 15 and in scientific notation otherwise. `repr_injective`: the
text says which float it is.
-/

namespace Lib

/-- The number that decimal digits say. -/
abbrev readDigits (ds : List Char) : Nat := Nat.ofDigitChars 10 ds 0

/-- `str(n)` -/
def intStr (n : Int) : List Char :=
  if n < 0 then '-' :: Nat.toDigits 10 n.natAbs else Nat.toDigits 10 n.natAbs

/-- The characters of digits. -/
def Digits (ds : List Char) : Prop := ∀ x ∈ ds, x.isDigit = true

theorem Digits.notMem {ds : List Char} (h : Digits ds) {x : Char} (hx : x.isDigit = false) :
    x ∉ ds := fun hmem => by
  rw [h x hmem] at hx
  cases hx

theorem digits_toDigits (n : Nat) : Digits (Nat.toDigits 10 n) := fun _ hx =>
  Nat.isDigit_of_mem_toDigits (by decide) (by decide) hx

theorem digits_append {ds ds' : List Char} :
    Digits (ds ++ ds') ↔ Digits ds ∧ Digits ds' := List.forall_mem_append

theorem digits_zeros (n : Nat) : Digits (List.replicate n '0') := fun x hx => by
  rw [List.eq_of_mem_replicate hx]
  rfl

@[simp] theorem readDigits_toDigits (n : Nat) : readDigits (Nat.toDigits 10 n) = n :=
  Nat.ofDigitChars_ten_toDigits

theorem readDigits_zeros_append (n : Nat) (ds : List Char) :
    readDigits (List.replicate n '0' ++ ds) = readDigits ds := by
  rw [readDigits, Nat.ofDigitChars_append, Nat.ofDigitChars_replicate_zero, Nat.mul_zero]

theorem readDigits_append_zeros (n : Nat) (ds : List Char) :
    readDigits (ds ++ List.replicate n '0') = 10 ^ n * readDigits ds := by
  rw [readDigits, Nat.ofDigitChars_append, Nat.ofDigitChars_replicate_zero]

/-- What a text of `intStr` says. -/
def readInt : List Char → Int
  | '-' :: ds => -readDigits ds
  | ds => readDigits ds

theorem readInt_intStr (n : Int) : readInt (intStr n) = n := by
  unfold intStr
  by_cases hn : n < 0
  · rw [if_pos hn, readInt, readDigits_toDigits]
    omega
  · rw [if_neg hn]
    obtain ⟨x, ds, hds⟩ := List.exists_cons_of_ne_nil
      (Nat.toDigits_ne_nil (n := n.natAbs) (b := 10))
    have hread := readDigits_toDigits n.natAbs
    have hx : x ≠ '-' := by
      rintro rfl
      exact (digits_toDigits n.natAbs).notMem (x := '-') rfl (hds ▸ List.mem_cons_self)
    rw [hds] at hread ⊢
    rw [readInt, hread]
    · omega
    · exact fun ds' h => hx (List.cons.inj h).1

theorem intStr_injective : Function.Injective intStr :=
  Function.LeftInverse.injective readInt_intStr

theorem notMem_intStr {c : Char} (hdigit : c.isDigit = false) (hne : c ≠ '-') (n : Int) :
    c ∉ intStr n := by
  unfold intStr
  split
  · intro h
    rcases List.mem_cons.mp h with h | h
    · exact hne h
    · exact (digits_toDigits _).notMem hdigit h
  · exact (digits_toDigits _).notMem hdigit

/-! ## Floats -/

namespace PyFloat

/-- How many decimal places a number has; `none` for a number that is no decimal. -/
def decimals (q : ℚ≥0) : Option Nat :=
  (List.range (q.den.log2 + 1)).find? fun k => q.den ∣ 10 ^ k

/-- `m / 10 ^ k` with `k` decimal places. -/
def fixed (m k : Nat) : List Char :=
  let ds := Nat.toDigits 10 m
  let padded := List.replicate (k + 1 - ds.length) '0' ++ ds
  padded.take (padded.length - k) ++ '.' :: padded.drop (padded.length - k)

/-- At least two digits. -/
def twoDigits (n : Nat) : List Char :=
  let ds := Nat.toDigits 10 n
  List.replicate (2 - ds.length) '0' ++ ds

/-- The digits with a point after the first, times a power of ten. -/
def scientific (ds : List Char) (exp : Int) : List Char :=
  let sig := ds.rdropWhile (· = '0')
  sig.take 1 ++ (if sig.tail = [] then [] else '.' :: sig.tail) ++
    'e' :: (if exp < 0 then '-' else '+') :: twoDigits exp.natAbs

/-- `repr`, less the sign. The magnitude of a float is a decimal; another number is written as a
fraction. -/
def magnitudeRepr (q : ℚ≥0) : List Char :=
  match decimals q with
  | none => Nat.toDigits 10 q.num ++ '/' :: Nat.toDigits 10 q.den
  | some k =>
    let m := q.num * (10 ^ k / q.den)
    let ds := Nat.toDigits 10 m
    let exp : Int := ds.length - 1 - k
    if -4 ≤ exp ∧ exp < 16 then
      if k = 0 then fixed (10 * m) 1 else fixed m k
    else scientific ds exp

/-- `repr(x)` -/
def repr : PyFloat → List Char
  | .finite neg m => if neg then '-' :: magnitudeRepr m else magnitudeRepr m
  | .inf neg => if neg then "-inf".toList else "inf".toList
  | .nan => "nan".toList

/-! ## Reading back -/

theorem ten_pow_ne (k : Nat) : (10 : ℚ≥0) ^ k ≠ 0 := pow_ne_zero k (by decide)

/-- Fixed notation: the digits of the number, with `k` of them after the point. -/
theorem fixed_eq (m k : Nat) : ∃ whole places, fixed m k = whole ++ '.' :: places ∧
    Digits (whole ++ places) ∧ whole ≠ [] ∧ places.length = k ∧
    readDigits (whole ++ places) = m := by
  let padded := List.replicate (k + 1 - (Nat.toDigits 10 m).length) '0' ++ Nat.toDigits 10 m
  have hlen : k + 1 ≤ padded.length := by
    simp only [padded, List.length_append, List.length_replicate]
    omega
  refine ⟨padded.take (padded.length - k), padded.drop (padded.length - k), rfl, ?_, ?_, ?_, ?_⟩
  · rw [List.take_append_drop]
    exact digits_append.mpr ⟨digits_zeros _, digits_toDigits m⟩
  · rw [← List.length_pos_iff, List.length_take]
    omega
  · rw [List.length_drop]
    omega
  · rw [List.take_append_drop, readDigits_zeros_append, readDigits_toDigits]

theorem twoDigits_spec (n : Nat) : Digits (twoDigits n) ∧ readDigits (twoDigits n) = n := by
  refine ⟨digits_append.mpr ⟨digits_zeros _, digits_toDigits n⟩, ?_⟩
  rw [twoDigits, readDigits_zeros_append, readDigits_toDigits]

/-- The significant digits of a number that is not zero. -/
theorem sig_eq {m : Nat} (hm : m ≠ 0) : ∃ h t z, Digits (h :: t) ∧
    (Nat.toDigits 10 m).rdropWhile (· = '0') = h :: t ∧
    Nat.toDigits 10 m = (h :: t) ++ List.replicate z '0' := by
  let ds := Nat.toDigits 10 m
  let zeros := (ds.reverse.takeWhile (· = '0')).reverse
  have hsplit : ds = ds.rdropWhile (· = '0') ++ zeros := by
    rw [List.rdropWhile, ← List.reverse_append, List.takeWhile_append_dropWhile,
      List.reverse_reverse]
  have hzeros : zeros = List.replicate zeros.length '0' := by
    refine List.eq_replicate_length.mpr fun x hx => ?_
    simpa using List.mem_takeWhile_imp (List.mem_reverse.mp hx)
  cases hsig : ds.rdropWhile (· = '0') with
  | nil =>
    -- nothing but zeros is zero
    rw [hsig, List.nil_append, hzeros] at hsplit
    have hread : readDigits ds = 0 := by
      rw [hsplit, readDigits, Nat.ofDigitChars_replicate_zero, Nat.mul_zero]
    exact absurd ((readDigits_toDigits m).symm.trans hread) hm
  | cons h t =>
    rw [hsig, hzeros] at hsplit
    have hdigits := digits_toDigits m
    rw [show Nat.toDigits 10 m = _ from hsplit] at hdigits
    exact ⟨h, t, zeros.length, (digits_append.mp hdigits).1, rfl, hsplit⟩

/-- What a text of `magnitudeRepr` says. -/
def readMagnitude (text : List Char) : ℚ≥0 :=
  if '/' ∈ text then readDigits (before '/' text) / readDigits (after '/' text)
  else
    let mantissa := before 'e' text
    let places := after '.' mantissa
    let n : ℚ≥0 := readDigits (before '.' mantissa ++ places) / 10 ^ places.length
    match after 'e' text with
    | '+' :: ds => n * 10 ^ readDigits ds
    | '-' :: ds => n / 10 ^ readDigits ds
    | _ => n

theorem readMagnitude_fixed (m k : Nat) : readMagnitude (fixed m k) = m / 10 ^ k := by
  obtain ⟨whole, places, htext, hdigits, -, hlen, hread⟩ := fixed_eq m k
  obtain ⟨hw, hp⟩ := digits_append.mp hdigits
  have hslash : '/' ∉ whole ++ '.' :: places := by
    simp [hw.notMem (x := '/') rfl, hp.notMem (x := '/') rfl]
  have he : 'e' ∉ whole ++ '.' :: places := by
    simp [hw.notMem (x := 'e') rfl, hp.notMem (x := 'e') rfl]
  have hpoint : '.' ∉ whole := hw.notMem rfl
  rw [htext, readMagnitude, if_neg hslash]
  simp only [before_of_notMem he, after_of_notMem he, before_cut hpoint, after_cut hpoint]
  rw [hread, hlen]

theorem readMagnitude_digits {ds : List Char} (hds : Digits ds) :
    readMagnitude ds = readDigits ds := by
  have hslash : '/' ∉ ds := hds.notMem rfl
  have he : 'e' ∉ ds := hds.notMem rfl
  have hpoint : '.' ∉ ds := hds.notMem rfl
  rw [readMagnitude, if_neg hslash]
  simp only [before_of_notMem he, after_of_notMem he, before_of_notMem hpoint,
    after_of_notMem hpoint, List.append_nil, List.length_nil, pow_zero, div_one]

/-- The text of significant digits and an exponent, whose digits are `ed`. -/
theorem readMagnitude_exp {h : Char} {t : List Char} (hdigits : Digits (h :: t)) (exp : Int)
    {ed : List Char} (hed : Digits ed ∧ readDigits ed = exp.natAbs) :
    readMagnitude (h :: (if t = [] then [] else '.' :: t) ++
      'e' :: (if exp < 0 then '-' else '+') :: ed) =
      if exp < 0 then (readDigits (h :: t) : ℚ≥0) / 10 ^ t.length / 10 ^ exp.natAbs
      else (readDigits (h :: t) : ℚ≥0) / 10 ^ t.length * 10 ^ exp.natAbs := by
  obtain ⟨hexp, hread⟩ := hed
  have hchar (x : Char) (hx : x.isDigit = false) : x ∉ h :: t := hdigits.notMem hx
  obtain ⟨mantissa, hm⟩ : ∃ l, l = h :: (if t = [] then [] else '.' :: t) := ⟨_, rfl⟩
  rw [← hm]
  have hwhole : before '.' mantissa = [h] ∧ after '.' mantissa = t := by
    have hpoint : '.' ∉ [h] := fun hmem =>
      hchar '.' rfl (List.mem_cons.mpr (Or.inl (by simpa using hmem)))
    by_cases ht : t = []
    · subst ht
      rw [hm]
      exact ⟨before_of_notMem hpoint, after_of_notMem hpoint⟩
    · have hcut : mantissa = [h] ++ '.' :: t := by simp [hm, ht]
      rw [hcut]
      exact ⟨before_cut hpoint, after_cut hpoint⟩
  have hmantissa (x : Char) (hx : x.isDigit = false) (hne : x ≠ '.') : x ∉ mantissa := by
    intro hmem
    by_cases ht : t = []
    · exact hchar x hx (by simpa [hm, ht] using hmem)
    · have : x = h ∨ x = '.' ∨ x ∈ t := by simpa [hm, ht] using hmem
      rcases this with rfl | rfl | hmem
      · exact hchar x hx List.mem_cons_self
      · exact hne rfl
      · exact hchar x hx (List.mem_cons_of_mem _ hmem)
  have hslash : '/' ∉ mantissa ++ 'e' :: (if exp < 0 then '-' else '+') :: ed := by
    have hsign : '/' ≠ (if exp < 0 then '-' else '+') := by split <;> decide
    simp [hmantissa '/' rfl (by decide), hsign, hexp.notMem (x := '/') rfl]
  rw [readMagnitude, if_neg hslash]
  simp only [before_cut (hmantissa 'e' rfl (by decide)), after_cut (hmantissa 'e' rfl (by decide)),
    hwhole]
  by_cases hneg : exp < 0
  · simp only [if_pos hneg, hread, List.cons_append, List.nil_append]
  · simp only [if_neg hneg, hread, List.cons_append, List.nil_append]

/-- The significant digits of a number over a power of ten, with the exponent that this gives. -/
theorem readMagnitude_significant {m : Nat} (hm : m ≠ 0) (k : Nat) {exp : Int}
    (hexp : ((Nat.toDigits 10 m).length : Int) - 1 - k = exp) {ed : List Char}
    (hed : Digits ed ∧ readDigits ed = exp.natAbs) :
    let sig := (Nat.toDigits 10 m).rdropWhile (· = '0')
    readMagnitude (sig.take 1 ++ (if sig.tail = [] then [] else '.' :: sig.tail) ++
      'e' :: (if exp < 0 then '-' else '+') :: ed) = m / 10 ^ k := by
  intro sig
  obtain ⟨h, t, z, hdigits, hsig, hds⟩ := sig_eq hm
  have hread : m = 10 ^ z * readDigits (h :: t) := by
    rw [← readDigits_append_zeros, ← hds, readDigits_toDigits]
  have hlen : (Nat.toDigits 10 m).length = t.length + 1 + z := by
    rw [hds, List.length_append, List.length_replicate, List.length_cons]
  simp only [sig, hsig]
  refine (readMagnitude_exp hdigits exp hed).trans ?_
  have hm' : (m : ℚ≥0) = 10 ^ z * readDigits (h :: t) := by exact_mod_cast hread
  rw [hm']
  -- the power of ten is the number of zeros less the number of places
  by_cases hneg : exp < 0
  · have hk : k = t.length + z + exp.natAbs := by omega
    rw [if_pos hneg, hk]
    field_simp
    ring
  · have hk : k + exp.natAbs = t.length + z := by omega
    have hpow : (10 : ℚ≥0) ^ k * 10 ^ exp.natAbs = 10 ^ t.length * 10 ^ z := by
      rw [← pow_add, ← pow_add, hk]
    rw [if_neg hneg, div_mul_eq_mul_div, div_eq_div_iff (ten_pow_ne _) (ten_pow_ne _)]
    calc (readDigits (h :: t) : ℚ≥0) * 10 ^ exp.natAbs * 10 ^ k
        = readDigits (h :: t) * (10 ^ k * 10 ^ exp.natAbs) := by ring
      _ = 10 ^ z * readDigits (h :: t) * 10 ^ t.length := by rw [hpow]; ring

theorem readMagnitude_scientific {m : Nat} (hm : m ≠ 0) (k : Nat) :
    readMagnitude (scientific (Nat.toDigits 10 m) ((Nat.toDigits 10 m).length - 1 - k)) =
      m / 10 ^ k := readMagnitude_significant hm k rfl (twoDigits_spec _)

/-- A number with `k` decimal places. -/
theorem eq_of_decimals {q : ℚ≥0} {k : Nat} (hk : decimals q = some k) :
    q = ((q.num * (10 ^ k / q.den) : Nat) : ℚ≥0) / 10 ^ k := by
  obtain ⟨c, hc⟩ : q.den ∣ 10 ^ k := by simpa using List.find?_some hk
  have hden : q.den ≠ 0 := q.den_ne_zero
  have hpow : (10 : ℚ≥0) ^ k = q.den * c := by exact_mod_cast hc
  have hc0 : (q.den * c : ℚ≥0) ≠ 0 := hpow ▸ ten_pow_ne k
  rw [hc, Nat.mul_div_cancel_left c (Nat.pos_of_ne_zero hden), hpow, Nat.cast_mul,
    mul_div_mul_right _ _ (right_ne_zero_of_mul hc0)]
  exact (NNRat.num_div_den q).symm

/-- The three ways a magnitude is written. -/
theorem magnitudeRepr_cases (q : ℚ≥0) :
    decimals q = none ∧
      magnitudeRepr q = Nat.toDigits 10 q.num ++ '/' :: Nat.toDigits 10 q.den ∨
    ∃ m k : Nat, q = m / 10 ^ k ∧ (0 < k ∧ magnitudeRepr q = fixed m k ∨ m ≠ 0 ∧
      magnitudeRepr q = scientific (Nat.toDigits 10 m) ((Nat.toDigits 10 m).length - 1 - k)) := by
  unfold magnitudeRepr
  cases hk : decimals q with
  | none => exact Or.inl ⟨rfl, rfl⟩
  | some k =>
    have hvalue := eq_of_decimals hk
    refine Or.inr ?_
    dsimp only
    generalize q.num * (10 ^ k / q.den) = m at hvalue ⊢
    split
    · split
      · rename_i hk0
        refine ⟨10 * m, 1, ?_, Or.inl ⟨Nat.one_pos, rfl⟩⟩
        rw [hk0, pow_zero, div_one] at hvalue
        rw [Nat.cast_mul, ← hvalue, pow_one]
        exact (mul_div_cancel_left₀ q (by decide)).symm
      · rename_i hk0
        exact ⟨m, k, hvalue, Or.inl ⟨Nat.pos_of_ne_zero hk0, rfl⟩⟩
    · rename_i hexp
      refine ⟨m, k, hvalue, Or.inr ⟨fun hm => hexp ?_, rfl⟩⟩
      -- zero is written in fixed notation
      have hq : q = 0 := by rw [hvalue, hm, Nat.cast_zero, zero_div]
      subst hq
      have hzero : decimals 0 = some 0 := by decide
      have hk0 : k = 0 := (Option.some.inj (hzero.symm.trans hk)).symm
      rw [hm, hk0]
      decide

/-- **The text says which magnitude it is.** -/
theorem readMagnitude_repr (q : ℚ≥0) : readMagnitude (magnitudeRepr q) = q := by
  rcases magnitudeRepr_cases q with ⟨-, h⟩ | ⟨m, k, hq, ⟨-, h⟩ | ⟨hm, h⟩⟩
  · have hnum : '/' ∉ Nat.toDigits 10 q.num := (digits_toDigits _).notMem rfl
    rw [h, readMagnitude, if_pos (by simp), before_cut hnum, after_cut hnum, readDigits_toDigits,
      readDigits_toDigits]
    exact NNRat.num_div_den q
  · rw [h, readMagnitude_fixed, ← hq]
  · rw [h, readMagnitude_scientific hm, ← hq]

/-! ## The text of a float -/

/-- The characters of a float besides digits. -/
def marks : List Char := ['.', 'e', '+', '-', '/', 'i', 'n', 'f', 'a']

theorem scientific_eq {m : Nat} (hm : m ≠ 0) (exp : Int) : ∃ h t,
    Digits (h :: t) ∧ scientific (Nat.toDigits 10 m) exp =
      h :: (if t = [] then [] else '.' :: t) ++
        'e' :: (if exp < 0 then '-' else '+') :: twoDigits exp.natAbs := by
  obtain ⟨h, t, -, hdigits, hsig, -⟩ := sig_eq hm
  refine ⟨h, t, hdigits, ?_⟩
  rw [scientific, hsig]
  rfl

/-- A magnitude begins with a digit, and holds digits and marks. -/
theorem magnitudeRepr_chars (q : ℚ≥0) : (∃ x text, magnitudeRepr q = x :: text ∧ x.isDigit = true) ∧
    ∀ x ∈ magnitudeRepr q, x.isDigit = true ∨ x ∈ marks := by
  rcases magnitudeRepr_cases q with ⟨-, h⟩ | ⟨m, k, -, ⟨-, h⟩ | ⟨hm, h⟩⟩
  -- no decimal: numerator and denominator
  · obtain ⟨x, ds, hds⟩ := List.exists_cons_of_ne_nil (Nat.toDigits_ne_nil (n := q.num) (b := 10))
    have hnum := digits_toDigits q.num
    refine ⟨⟨x, _, by rw [h, hds]; rfl, hnum x (hds ▸ List.mem_cons_self)⟩, fun y hy => ?_⟩
    rw [h] at hy
    rcases List.mem_append.mp hy with hy | hy
    · exact Or.inl (hnum y hy)
    · rcases List.mem_cons.mp hy with rfl | hy
      · exact Or.inr (by decide)
      · exact Or.inl (digits_toDigits _ y hy)
  · obtain ⟨whole, places, htext, hdigits, hne, -, -⟩ := fixed_eq m k
    obtain ⟨hw, hp⟩ := digits_append.mp hdigits
    obtain ⟨x, ds, rfl⟩ := List.exists_cons_of_ne_nil hne
    rw [h, htext]
    refine ⟨⟨x, _, rfl, hw x List.mem_cons_self⟩, fun y hy => ?_⟩
    rcases List.mem_append.mp hy with hy | hy
    · exact Or.inl (hw y hy)
    · rcases List.mem_cons.mp hy with rfl | hy
      · exact Or.inr (by decide)
      · exact Or.inl (hp y hy)
  -- with an exponent, which has its sign and two digits
  · generalize ((Nat.toDigits 10 m).length : Int) - 1 - k = exp at h
    obtain ⟨x, t, hdigits, htext⟩ := scientific_eq hm exp
    rw [h, htext]
    refine ⟨⟨x, _, rfl, hdigits x List.mem_cons_self⟩, fun y hy => ?_⟩
    have hsign : (if exp < 0 then '-' else '+') ∈ marks := by split <;> decide
    rcases List.mem_append.mp hy with hy | hy
    · rcases List.mem_cons.mp hy with rfl | hy
      · exact Or.inl (hdigits _ List.mem_cons_self)
      · split at hy
        · cases hy
        · rcases List.mem_cons.mp hy with rfl | hy
          · exact Or.inr (by decide)
          · exact Or.inl (hdigits y (List.mem_cons_of_mem _ hy))
    · rcases List.mem_cons.mp hy with rfl | hy
      · exact Or.inr (by decide)
      · rcases List.mem_cons.mp hy with rfl | hy
        · exact Or.inr hsign
        · exact Or.inl ((twoDigits_spec _).1 y hy)

/-- No other character is in the text of a float. -/
theorem notMem_repr {c : Char} (hdigit : c.isDigit = false) (hmark : c ∉ marks) (x : PyFloat) :
    c ∉ repr x := by
  have hword : ∀ word : List Char, (∀ y ∈ word, y ∈ marks) → c ∉ word :=
    fun word hsub h => hmark (hsub c h)
  cases x with
  | nan => exact hword _ (by simp [repr, marks])
  | inf neg => cases neg <;> exact hword _ (by simp [repr, marks])
  | finite neg m =>
    have hm : c ∉ magnitudeRepr m := fun h => by
      rcases (magnitudeRepr_chars m).2 c h with h | h
      · rw [h] at hdigit
        cases hdigit
      · exact hmark h
    cases neg with
    | false => exact hm
    | true =>
      intro h
      rcases List.mem_cons.mp h with rfl | h
      · exact hmark (by decide)
      · exact hm h

/-- What a text of `repr` says. -/
def readRepr : List Char → PyFloat
  | 'n' :: _ => .nan
  | 'i' :: _ => .inf false
  | '-' :: 'i' :: _ => .inf true
  | '-' :: text => .finite true (readMagnitude text)
  | text => .finite false (readMagnitude text)

theorem readRepr_repr (x : PyFloat) : readRepr (repr x) = x := by
  cases x with
  | nan => rfl
  | inf neg => cases neg <;> rfl
  | finite neg m =>
    obtain ⟨⟨h, text, heq, hdigit⟩, -⟩ := magnitudeRepr_chars m
    have hread := readMagnitude_repr m
    rw [heq] at hread
    cases neg with
    | true =>
      show readRepr ('-' :: magnitudeRepr m) = _
      rw [heq]
      unfold readRepr
      split <;> simp_all
    | false =>
      show readRepr (magnitudeRepr m) = _
      rw [heq]
      unfold readRepr
      split <;> simp_all

/-- **`repr` says which float it is.** -/
theorem repr_injective : Function.Injective repr := Function.LeftInverse.injective readRepr_repr

example : repr (.ofRat (1 / 100)) = "0.01".toList := by decide +kernel
example : repr (.ofRat 3) = "3.0".toList := by decide +kernel
example : repr (.ofRat (10 ^ 16)) = "1e+16".toList := by decide +kernel
example : repr (.ofRat (-1 / 80000)) = "-1.25e-05".toList := by decide +kernel

end PyFloat

end Lib
