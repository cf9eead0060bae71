import PolyGate.Lib.JsonText

/-!
# `Lib/JsonDumps.lean` — what `json.dumps` writes is read back

`json.dumps` with separators of one's own, and the round trip: `value_dumpsSep` says that a reader
standing before a written value takes just that value, whatever comes next. `Plain` are the values
for which this holds: the keys of a `dict` differ, the floats are doubles, and the integers are not
too long to be converted.
-/

namespace Lib

mutual

/-- `json.dumps(v, ensure_ascii=False, separators=(item, key))` -/
def dumpsSep (item key : PyStr) : Json → PyStr
  | .null => str "null"
  | .bool b => if b then str "true" else str "false"
  | .int n => (intStr n).map codePoint
  | .float x => dumpsFloat x
  | .str s => quote s
  | .arr [] => str "[]"
  | .arr (v :: elems) => codePoint '[' :: dumpsSep item key v ++ elemsSep item key elems
  | .obj [] => str "\x7b\x7d"
  | .obj ((k, v) :: fields) =>
    codePoint '\x7b' :: quote k ++ key ++ dumpsSep item key v ++ fieldsSep item key fields

def elemsSep (item key : PyStr) : List Json → PyStr
  | [] => [codePoint ']']
  | v :: elems => item ++ dumpsSep item key v ++ elemsSep item key elems

def fieldsSep (item key : PyStr) : List (PyStr × Json) → PyStr
  | [] => [codePoint '\x7d']
  | (k, v) :: fields => item ++ quote k ++ key ++ dumpsSep item key v ++ fieldsSep item key fields

end

mutual

/-- The separators that `json.dumps` has by itself. -/
theorem dumpsSep_default : ∀ v, dumpsSep (str ", ") (str ": ") v = dumps v
  | .null | .bool _ | .int _ | .float _ | .str _ => by simp only [dumpsSep, dumps]
  | .arr [] => by simp only [dumpsSep, dumps]
  | .arr (v :: elems) => by
    simp only [dumpsSep, dumps, dumpsSep_default v, elemsSep_default elems]
    rfl
  | .obj [] => by simp only [dumpsSep, dumps]
  | .obj ((k, v) :: fields) => by
    simp only [dumpsSep, dumps, dumpsSep_default v, fieldsSep_default fields]
    rfl

theorem elemsSep_default : ∀ elems, elemsSep (str ", ") (str ": ") elems = dumpsElems elems
  | [] => by
    simp only [elemsSep, dumpsElems]
    rfl
  | v :: elems => by
    simp only [elemsSep, dumpsElems, dumpsSep_default v, elemsSep_default elems]

theorem fieldsSep_default : ∀ fields, fieldsSep (str ", ") (str ": ") fields = dumpsFields fields
  | [] => by
    simp only [fieldsSep, dumpsFields]
    rfl
  | (k, v) :: fields => by
    simp only [fieldsSep, dumpsFields, dumpsSep_default v, fieldsSep_default fields]

end

mutual

/-- What is read back as it was written. -/
def Plain (d : Dialect) : Json → Prop
  | .int n => ∀ m ∈ d.maxDigits, digitCount (intStr n) ≤ m
  | .float x => match x with
    | .finite _ q => PyFloat.IsDouble q
    | .inf _ | .nan => d.constants = true
  | .arr elems => PlainElems d elems
  | .obj fields => (fields.map (·.1)).Nodup ∧ PlainFields d fields
  | _ => True

def PlainElems (d : Dialect) : List Json → Prop
  | [] => True
  | v :: elems => Plain d v ∧ PlainElems d elems

def PlainFields (d : Dialect) : List (PyStr × Json) → Prop
  | [] => True
  | (_, v) :: fields => Plain d v ∧ PlainFields d fields

end

/-! ## Strings -/

/-- A digit that is written is read as its value. -/
theorem hexValue?_hexDigit : ∀ d < 16, hexValue? (hexDigit d) = some d := by decide

/-- The two digits of a control character. -/
theorem scanString_control {n : Nat} (hn : n < 0x20) (read r : PyStr) :
    scanString .char none read
      (str "\\u00" ++ hexDigit (n / 16) :: hexDigit (n % 16) :: r) =
      scanString .char none (read ++ [Fin.ofNat 0x110000 n]) r := by
  have hread : unitOf [0, 0, n / 16, n % 16] = Fin.ofNat 0x110000 n := by
    refine congrArg (Fin.ofNat 0x110000) ?_
    show 16 * (16 * (16 * (16 * 0 + 0) + 0) + n / 16) + n % 16 = n
    omega
  have hhigh : isHigh (Fin.ofNat 0x110000 n) = false := by
    have hval : (Fin.ofNat 0x110000 n).val = n := Nat.mod_eq_of_lt (by omega)
    rw [isHigh, hval, decide_eq_false (by omega), Bool.false_and]
  have hdigits : scanString .char none read
      (str "\\u00" ++ hexDigit (n / 16) :: hexDigit (n % 16) :: r) =
      scanString (.hex [0, 0]) none read (hexDigit (n / 16) :: hexDigit (n % 16) :: r) := rfl
  rw [hdigits, scanString, hexValue?_hexDigit _ (by omega)]
  show scanString (.hex [0, 0, n / 16]) none read (hexDigit (n % 16) :: r) = _
  rw [scanString, hexValue?_hexDigit _ (by omega)]
  show scanString .char (if isHigh (unitOf [0, 0, n / 16, n % 16]) && true then _ else none)
    (read ++ [unitOf [0, 0, n / 16, n % 16]]) r = _
  rw [hread, hhigh]
  rfl

/-- The reader takes what is written for one code point as that code point, escaped or not. -/
theorem scanString_escape (p : CodePoint) (read r : PyStr) :
    scanString .char none read (escape p ++ r) = scanString .char none (read ++ [p]) r := by
  obtain ⟨n, hn⟩ := p
  unfold escape
  split
  all_goals try
    rename_i h
    cases h
    rfl
  rename_i hquote hslash _ _ _ _ _
  split
  · rename_i hlow
    have h := scanString_control hlow read r
    rw [show Fin.ofNat 0x110000 n = ⟨n, hn⟩ from Fin.ext (Nat.mod_eq_of_lt hn)] at h
    rw [List.append_assoc]
    exact h
  · rename_i hlow
    have hq : (⟨n, hn⟩ : CodePoint) ≠ codePoint '"' := fun h => hquote (congrArg Fin.val h)
    have hs : (⟨n, hn⟩ : CodePoint) ≠ codePoint '\\' := fun h => hslash (congrArg Fin.val h)
    rw [List.singleton_append, scanString, if_neg hq, if_neg hs, if_neg hlow]

/-- So it takes a string up to its closing quote. -/
theorem scanString_body (s : PyStr) : ∀ read r : PyStr,
    scanString .char none read (s.flatMap escape ++ codePoint '"' :: r) = .ok (read ++ s, r) := by
  induction s with
  | nil =>
    intro read r
    rw [List.append_nil]
    rfl
  | cons p s ih =>
    intro read r
    rw [List.flatMap_cons, List.append_assoc, scanString_escape, ih, List.append_assoc,
      List.singleton_append]

/-- After the opening quote. -/
theorem scanString_quote (s r : PyStr) :
    scanString .char none [] ((quote s).tail ++ r) = .ok (s, r) := by
  have h := scanString_body s [] r
  simpa [quote] using h

/-! ## Numbers -/

/-- The reader of a number may be stopped and go on. -/
theorem scanNumber_append (state : NumberState) (text text' : List Char) :
    scanNumber state (text ++ text') = (scanNumber state text).bind (scanNumber · text') := by
  induction text generalizing state with
  | nil => rfl
  | cons c text ih =>
    rw [List.cons_append, scanNumber, scanNumber, Option.bind_assoc]
    exact Option.bind_congr fun s _ => ih s

/-- Digits where the reader stays as it is. -/
theorem scanNumber_digits {state : NumberState} {ds : List Char} (hds : Digits ds)
    (hstay : ∀ c : Char, c.isDigit = true → state.next c = some state) :
    scanNumber state ds = some state := by
  induction ds with
  | nil => rfl
  | cons c ds ih =>
    rw [scanNumber, hstay c (hds c List.mem_cons_self), Option.bind_some]
    exact ih fun x hx => hds x (List.mem_cons_of_mem c hx)

/-- The first digit of a number that is not zero. -/
theorem toDigits_eq_cons {n : Nat} (hn : n ≠ 0) :
    ∃ h t, Nat.toDigits 10 n = h :: t ∧ h ≠ '0' ∧ Digits (h :: t) := by
  induction n using Nat.strongRecOn with
  | ind n ih =>
    by_cases hlt : n < 10
    · refine ⟨n.digitChar, [], Nat.toDigits_of_lt_base hlt, ?_, ?_⟩
      · have hall : ∀ m < 10, m ≠ 0 → m.digitChar ≠ '0' := by decide
        exact hall n hlt hn
      · rw [← Nat.toDigits_of_lt_base hlt]
        exact digits_toDigits n
    · obtain ⟨h, t, htext, hne, -⟩ := ih (n / 10) (by omega) (by omega)
      have happ : Nat.toDigits 10 n = h :: (t ++ [(n % 10).digitChar]) := by
        rw [Nat.toDigits_of_base_le (by decide) (by omega), htext, List.cons_append]
      exact ⟨h, _, happ, hne, happ ▸ digits_toDigits n⟩

/-- A first digit that is not zero begins a whole part, with a sign before it or without. -/
theorem first_eq {state : NumberState} (hstate : state = .start ∨ state = .minus) {h : Char}
    (hdigit : h.isDigit = true) (hne : h ≠ '0') : state.next h = some .whole := by
  have hminus : h ≠ '-' := by
    rintro rfl
    cases hdigit
  rcases hstate with rfl | rfl <;>
    simp [NumberState.next, NumberState.next.first, hminus, hne, hdigit]

/-- The whole part of a number: no zero before another digit. -/
def Whole (ds : List Char) : Prop := ds = ['0'] ∨ ∃ h t, ds = h :: t ∧ h ≠ '0' ∧ Digits (h :: t)

/-- No leading zero is written. -/
theorem whole_toDigits (n : Nat) : Whole (Nat.toDigits 10 n) := by
  by_cases hn : n = 0
  · exact Or.inl (hn ▸ Nat.toDigits_zero 10)
  · exact Or.inr (toDigits_eq_cons hn)

/-- A whole part, from the start or after a sign. -/
theorem Whole.scan {ds : List Char} (h : Whole ds) {state : NumberState}
    (hstate : state = .start ∨ state = .minus) :
    ∃ s, scanNumber state ds = some s ∧ (s = .zero ∨ s = .whole) := by
  rcases h with rfl | ⟨h, t, rfl, hne, hdigits⟩
  · refine ⟨.zero, ?_, Or.inl rfl⟩
    rcases hstate with rfl | rfl <;> decide
  · refine ⟨.whole, ?_, Or.inr rfl⟩
    rw [scanNumber, first_eq hstate (hdigits h List.mem_cons_self) hne, Option.bind_some]
    refine scanNumber_digits (fun x hx => hdigits x (List.mem_cons_of_mem h hx)) fun c hc => ?_
    simp [NumberState.next, hc]

/-- What is written for an integer is read as an integer. -/
theorem numberKind_intStr (n : Int) : numberKind (intStr n) = some .int := by
  have hkind {state : NumberState} (hstate : state = .start ∨ state = .minus) :
      (scanNumber state (Nat.toDigits 10 n.natAbs)).bind NumberState.kind = some .int := by
    obtain ⟨s, hs, hkind⟩ := (whole_toDigits n.natAbs).scan hstate
    rw [hs]
    rcases hkind with rfl | rfl <;> rfl
  unfold intStr numberKind
  split
  · exact hkind (Or.inr rfl)
  · exact hkind (Or.inl rfl)

/-- After the point there are digits. -/
theorem scanNumber_places {state : NumberState} (hstate : state = .zero ∨ state = .whole)
    {places : List Char} (hdigits : Digits places) (hne : places ≠ []) :
    scanNumber state ('.' :: places) = some .places := by
  obtain ⟨h, t, rfl⟩ := List.exists_cons_of_ne_nil hne
  have hpoint : state.next '.' = some .point := by rcases hstate with rfl | rfl <;> rfl
  have hfirst : NumberState.next .point h = some .places := by
    simp [NumberState.next, hdigits h List.mem_cons_self]
  rw [scanNumber, hpoint, Option.bind_some, scanNumber, hfirst, Option.bind_some]
  refine scanNumber_digits (fun x hx => hdigits x (List.mem_cons_of_mem h hx)) fun c hc => ?_
  simp [NumberState.next, hc]

/-- A fixed-point text is a whole part, a point and at least one digit. -/
theorem fixed_whole (m : Nat) {k : Nat} (hk : 0 < k) : ∃ whole places,
    PyFloat.fixed m k = whole ++ '.' :: places ∧ Whole whole ∧ Digits places ∧ places ≠ [] := by
  obtain ⟨ds, hds⟩ : ∃ ds, ds = Nat.toDigits 10 m := ⟨_, rfl⟩
  have hdigits : Digits ds := hds ▸ digits_toDigits m
  unfold PyFloat.fixed
  rw [← hds]
  dsimp only
  by_cases hlen : ds.length ≤ k
  · -- the point stands before every digit of the number
    obtain ⟨j, hj⟩ : ∃ j, k + 1 - ds.length = j + 1 := ⟨k - ds.length, by omega⟩
    have htake : (List.replicate (j + 1) '0' ++ ds).length - k = 1 := by
      simp only [List.length_append, List.length_replicate]
      omega
    have hplaces : (List.replicate j '0' ++ ds).length = k := by
      simp only [List.length_append, List.length_replicate]
      omega
    -- a zero is written before the point
    rw [hj, htake]
    refine ⟨['0'], List.replicate j '0' ++ ds, rfl, Or.inl rfl, ?_, ?_⟩
    · exact digits_append.mpr ⟨digits_zeros j, hdigits⟩
    · exact List.length_pos_iff.mp (hplaces ▸ hk)
  -- the point stands between the digits, and the first of them is not zero
  · have hm : m ≠ 0 := by
      rintro rfl
      rw [Nat.toDigits_zero] at hds
      rw [hds, List.length_singleton] at hlen
      omega
    obtain ⟨h, t, htext, hne, -⟩ := toDigits_eq_cons hm
    rw [← hds] at htext
    obtain ⟨j, hj⟩ : ∃ j, ds.length - k = j + 1 := ⟨ds.length - k - 1, by omega⟩
    have hpad : k + 1 - ds.length = 0 := by omega
    rw [hpad, List.replicate_zero, List.nil_append, hj]
    have hcut : ds.take (j + 1) = h :: t.take j := by rw [htext, List.take_succ_cons]
    refine ⟨ds.take (j + 1), ds.drop (j + 1), rfl, Or.inr ⟨h, t.take j, hcut, hne, ?_⟩, ?_, ?_⟩
    · exact hcut ▸ fun x hx => hdigits x (List.mem_of_mem_take hx)
    · exact fun x hx => hdigits x (List.mem_of_mem_drop hx)
    · rw [← List.length_pos_iff, List.length_drop]
      omega

/-- An exponent with its sign. -/
theorem scanNumber_exponent {state : NumberState} (hstate : state = .whole ∨ state = .places)
    (exp : Int) : scanNumber state
      ('e' :: (if exp < 0 then '-' else '+') :: PyFloat.twoDigits exp.natAbs) = some .exponent := by
  have he : state.next 'e' = some .e := by rcases hstate with rfl | rfl <;> rfl
  have hsign : NumberState.next .e (if exp < 0 then '-' else '+') = some .sign := by
    split <;> rfl
  have hdigits := (PyFloat.twoDigits_spec exp.natAbs).1
  have hne : PyFloat.twoDigits exp.natAbs ≠ [] :=
    List.append_ne_nil_of_right_ne_nil _ Nat.toDigits_ne_nil
  obtain ⟨h, t, htext⟩ := List.exists_cons_of_ne_nil hne
  rw [htext] at hdigits ⊢
  have hfirst : NumberState.next .sign h = some .exponent := by
    simp [NumberState.next, hdigits h List.mem_cons_self]
  rw [scanNumber, he, Option.bind_some, scanNumber, hsign, Option.bind_some, scanNumber, hfirst,
    Option.bind_some]
  refine scanNumber_digits (fun x hx => hdigits x (List.mem_cons_of_mem h hx)) fun c hc => ?_
  simp [NumberState.next, hc]

/-- The text of a float that is a decimal. -/
theorem scanNumber_magnitudeRepr {q : ℚ≥0} (hq : (PyFloat.decimals q).isSome)
    {state : NumberState} (hstate : state = .start ∨ state = .minus) :
    (scanNumber state (PyFloat.magnitudeRepr q)).bind NumberState.kind = some .float := by
  rcases PyFloat.magnitudeRepr_cases q with ⟨hnone, -⟩ | ⟨m, k, -, ⟨hk, htext⟩ | ⟨hm, htext⟩⟩
  · rw [hnone] at hq
    cases hq
  · obtain ⟨whole, places, heq, hwhole, hplaces, hne⟩ := fixed_whole m hk
    obtain ⟨s, hs, hkind⟩ := hwhole.scan hstate
    rw [htext, heq, scanNumber_append, hs, Option.bind_some,
      scanNumber_places hkind hplaces hne]
    rfl
  · obtain ⟨h, t, z, hdigits, hsig, hds⟩ := PyFloat.sig_eq hm
    have hne : h ≠ '0' := by
      obtain ⟨h', t', htoDigits, hne, -⟩ := toDigits_eq_cons hm
      rw [htoDigits, List.cons_append] at hds
      exact (List.cons.inj hds).1 ▸ hne
    have hfirst := first_eq hstate (hdigits h List.mem_cons_self) hne
    rw [htext, PyFloat.scientific, hsig, List.take_one, List.head?_cons, Option.toList_some,
      List.tail_cons, List.append_assoc,
      List.singleton_append, scanNumber, hfirst, Option.bind_some, scanNumber_append]
    -- one significant digit is written without a point
    by_cases ht : t = []
    · rw [if_pos ht]
      show ((some NumberState.whole).bind _).bind _ = _
      rw [Option.bind_some, scanNumber_exponent (Or.inl rfl)]
      rfl
    · have hplaces : scanNumber .whole ('.' :: t) = some .places :=
        scanNumber_places (Or.inr rfl) (fun x hx => hdigits x (List.mem_cons_of_mem h hx)) ht
      rw [if_neg ht, hplaces, Option.bind_some, scanNumber_exponent (Or.inr rfl)]
      rfl

/-- What is written for a finite float is read as a float, never as an integer: it has a point or an
exponent. -/
theorem numberKind_repr {neg : Bool} {q : ℚ≥0} (hq : (PyFloat.decimals q).isSome) :
    numberKind (PyFloat.repr (.finite neg q)) = some .float := by
  cases neg with
  | false => exact scanNumber_magnitudeRepr hq (Or.inl rfl)
  | true => exact scanNumber_magnitudeRepr hq (Or.inr rfl)

/-- A written exponent has its sign. -/
theorem after_magnitudeRepr {q : ℚ≥0} (hq : (PyFloat.decimals q).isSome) {c : Char}
    {ds : List Char} (h : after 'e' (PyFloat.magnitudeRepr q) = c :: ds) : c.isDigit = false := by
  rcases PyFloat.magnitudeRepr_cases q with ⟨hnone, -⟩ | ⟨m, k, -, ⟨-, htext⟩ | ⟨hm, htext⟩⟩
  · rw [hnone] at hq
    cases hq
  · obtain ⟨whole, places, heq, hdigits, -, -, -⟩ := PyFloat.fixed_eq m k
    obtain ⟨hw, hp⟩ := digits_append.mp hdigits
    have he : 'e' ∉ whole ++ '.' :: places := by
      simp [hw.notMem (x := 'e') rfl, hp.notMem (x := 'e') rfl]
    rw [htext, heq, after_of_notMem he] at h
    cases h
  · obtain ⟨x, t, hdigits, heq⟩ :=
      PyFloat.scientific_eq hm ((Nat.toDigits 10 m).length - 1 - k : Int)
    have he : 'e' ∉ x :: (if t = [] then [] else '.' :: t) := by
      have hnotMem := hdigits.notMem (x := 'e') rfl
      rw [List.mem_cons, not_or] at hnotMem
      intro hmem
      rcases List.mem_cons.mp hmem with hx | hmem
      · exact hnotMem.1 hx
      · split at hmem
        · cases hmem
        · exact hnotMem.2 (by simpa using hmem)
    rw [htext, heq, after_cut he] at h
    rw [← (List.cons.inj h).1]
    split <;> rfl

/-- So the sign that JavaScript adds to an exponent is there already. -/
theorem withSign_magnitudeRepr {q : ℚ≥0} (hq : (PyFloat.decimals q).isSome) :
    withSign (PyFloat.magnitudeRepr q) = PyFloat.magnitudeRepr q := by
  have hmap : (PyFloat.magnitudeRepr q).map (fun c => if c = 'E' then 'e' else c) =
      PyFloat.magnitudeRepr q := by
    have hE : 'E' ∉ PyFloat.magnitudeRepr q :=
      PyFloat.notMem_repr (c := 'E') rfl (by decide) (.finite false q)
    refine (List.map_congr_left fun c hc => if_neg ?_).trans (List.map_id' _)
    rintro rfl
    exact hE hc
  unfold withSign
  dsimp only
  rw [hmap]
  split
  · rename_i c ds hafter
    rw [after_magnitudeRepr hq hafter]
    rfl
  · rfl

/-- A double is read back from its text. -/
theorem readFloat_repr {neg : Bool} {q : ℚ≥0} (hq : PyFloat.IsDouble q) :
    readFloat (PyFloat.repr (.finite neg q)) = .finite neg q := by
  have hread : PyFloat.readMagnitude (withSign (PyFloat.magnitudeRepr q)) = q := by
    rw [withSign_magnitudeRepr hq.1, PyFloat.readMagnitude_repr]
  cases neg with
  | true =>
    show PyFloat.ofDecimal true _ = _
    rw [hread, hq.ofDecimal]
  | false =>
    show readFloat (PyFloat.magnitudeRepr q) = _
    obtain ⟨⟨x, text, htext, hdigit⟩, -⟩ := PyFloat.magnitudeRepr_chars q
    have hx : x ≠ '-' := by
      rintro rfl
      cases hdigit
    rw [htext] at hread ⊢
    rw [readFloat, hread, hq.ofDecimal]
    exact fun t h => hx (List.cons.inj h).1

/-! ### Numbers in a text -/

/-- No number goes on here. -/
def EndsNumber (r : PyStr) : Prop := ∀ p, r.head? = some p → isNumberChar p = false

/-- Each character of a number is one that its reader takes. -/
theorem next_isNumberChar {state s : NumberState} {c : Char} (h : state.next c = some s) :
    isNumberChar (codePoint c) = true := by
  have hchar : c.isDigit = true ∨ c ∈ ['+', '-', '.', 'E', 'e'] := by
    have hzero : c = '0' → c.isDigit = true := by
      rintro rfl
      rfl
    cases state <;>
      simp only [NumberState.next, NumberState.next.first, NumberState.next.fraction] at h <;>
      grind
  rcases hchar with hdigit | hmark
  · have hbounds : 48 ≤ c.toNat ∧ c.toNat ≤ 57 := by
      simpa [Char.isDigit, UInt32.le_iff_toNat_le] using hdigit
    simp [isNumberChar, codePoint, hbounds]
  · have hall : ['+', '-', '.', 'E', 'e'].all (fun c => isNumberChar (codePoint c)) = true := by
      decide
    exact List.all_eq_true.mp hall c hmark

theorem scanNumber_chars {text : List Char} {state s : NumberState}
    (h : scanNumber state text = some s) : ∀ p ∈ text.map codePoint, isNumberChar p = true := by
  induction text generalizing state with
  | nil => exact fun p hp => absurd hp List.not_mem_nil
  | cons c text ih =>
    obtain ⟨s', hnext, hrest⟩ := Option.bind_eq_some_iff.mp h
    intro p hp
    rcases List.mem_cons.mp hp with rfl | hp
    · exact next_isNumberChar hnext
    · exact ih hrest p hp

theorem chars_map (text : List Char) : chars (text.map codePoint) = text := by
  rw [chars, List.map_map]
  exact (List.map_congr_left fun c _ => Char.ofNat_toNat c).trans (List.map_id' text)

/-- The reader takes a written number as a whole. -/
theorem takeWhile_number {text : List Char} {kind : NumberKind} (h : numberKind text = some kind)
    {r : PyStr} (hr : EndsNumber r) :
    (text.map codePoint ++ r).takeWhile isNumberChar = text.map codePoint ∧
      (text.map codePoint ++ r).dropWhile isNumberChar = r := by
  obtain ⟨s, hs, -⟩ := Option.bind_eq_some_iff.mp h
  have hall := scanNumber_chars hs
  rw [List.takeWhile_append_of_pos hall, List.dropWhile_append_of_pos hall]
  cases r with
  | nil => exact ⟨List.append_nil _, rfl⟩
  | cons p r =>
    have hp := hr p rfl
    simp [hp]

/-- An integer before what is no number, if it is not too long. -/
theorem number_int {d : Dialect} {n : Int} (h : Plain d (.int n)) {r : PyStr} (hr : EndsNumber r) :
    number d ((intStr n).map codePoint ++ r) = .ok (.int n, r) := by
  have hkind := numberKind_intStr n
  obtain ⟨htake, hdrop⟩ := takeWhile_number hkind hr
  have hdigits : d.maxDigits.all (digitCount (intStr n) ≤ ·) = true := by
    rw [Option.all_eq_true]
    exact fun m hm => decide_eq_true (h m hm)
  unfold number
  dsimp only
  rw [htake, hdrop, chars_map, hkind]
  dsimp only
  rw [if_pos hdigits, readInt_intStr]

/-- A double before what is no number. -/
theorem number_float {d : Dialect} {neg : Bool} {q : ℚ≥0} (h : PyFloat.IsDouble q) {r : PyStr}
    (hr : EndsNumber r) :
    number d (dumpsFloat (.finite neg q) ++ r) = .ok (.float (.finite neg q), r) := by
  have hkind : numberKind (PyFloat.repr (.finite neg q)) = some .float := numberKind_repr h.1
  obtain ⟨htake, hdrop⟩ := takeWhile_number hkind hr
  unfold number dumpsFloat
  dsimp only
  rw [htake, hdrop, chars_map, hkind]
  dsimp only
  rw [readFloat_repr h]

/-! ## Words -/

/-- The characters that begin a word. -/
def initials : List CodePoint := (str "ntfNI-")

/-- No word begins with another character. -/
theorem word_none {d : Dialect} {p : CodePoint} (hp : p ∉ initials) (s : PyStr) :
    word d (p :: s) = none := by
  have hfirst : ∀ w ∈ words d, (w.1.head?.all (· ∈ initials) && w.1 ≠ []) = true := by
    cases hd : d.constants <;> unfold words <;> rw [hd] <;> decide
  unfold word
  rw [Option.map_eq_none_iff, List.find?_eq_none]
  intro w hw hstart
  have hw := hfirst w hw
  cases htext : w.1 with
  | nil =>
    rw [htext] at hw
    cases hw
  | cons c text =>
    rw [htext] at hw hstart
    rw [List.isPrefixOf_cons_cons, Bool.and_eq_true] at hstart
    rw [eq_of_beq hstart.1] at hw
    simp [hp] at hw

/-- A minus begins a word only before an `I`. -/
theorem word_minus {d : Dialect} {p : CodePoint} (hp : isNumberChar p = true) (s : PyStr) :
    word d (codePoint '-' :: p :: s) = none := by
  have hne : p ≠ codePoint 'I' := by
    rintro rfl
    cases hp
  have hfirst : ∀ w ∈ words d, w.1.head? ≠ some (codePoint '-') ∧ w.1 ≠ [] ∨
      w.1 = str "-I" ++ w.1.drop 2 := by
    cases hd : d.constants <;> unfold words <;> rw [hd] <;> decide
  unfold word
  rw [Option.map_eq_none_iff, List.find?_eq_none]
  intro w hw hstart
  rcases hfirst w hw with ⟨hhead, hnil⟩ | heq
  · obtain ⟨c, text, htext⟩ := List.exists_cons_of_ne_nil hnil
    rw [htext, List.isPrefixOf_cons_cons, Bool.and_eq_true] at hstart
    exact hhead (by rw [htext, eq_of_beq hstart.1, List.head?_cons])
  · rw [heq] at hstart
    have hsecond : (codePoint 'I' == p) = true := by
      have h := (Bool.and_eq_true_iff.mp hstart).2
      exact (Bool.and_eq_true_iff.mp h).1
    exact hne (eq_of_beq hsecond).symm

/-- No number is a word. -/
theorem word_number {d : Dialect} {text : List Char} {kind : NumberKind}
    (h : numberKind text = some kind) (r : PyStr) : word d (text.map codePoint ++ r) = none := by
  obtain ⟨s, hs, hkind⟩ := Option.bind_eq_some_iff.mp h
  cases text with
  | nil =>
    cases hs
    cases hkind
  | cons c text =>
    obtain ⟨s₁, hnext, hrest⟩ := Option.bind_eq_some_iff.mp hs
    have hdigit : c = '-' ∧ s₁ = .minus ∨ codePoint c ∉ initials := by
      by_cases hminus : c = '-'
      · subst hminus
        exact Or.inl ⟨rfl, (Option.some.inj hnext).symm⟩
      · refine Or.inr fun hmem => ?_
        obtain ⟨c', hc', hcc⟩ := List.mem_map.mp hmem
        rw [codePoint_injective hcc] at hc'
        have hall : "ntfNI-".toList.all (fun c =>
            decide (c = '-') || (NumberState.next .start c).isNone) = true := by decide
        rcases Bool.or_eq_true_iff.mp (List.all_eq_true.mp hall c hc') with h | h
        · exact hminus (of_decide_eq_true h)
        · rw [hnext] at h
          cases h
    rcases hdigit with ⟨rfl, rfl⟩ | hinitial
    · cases text with
      | nil =>
        cases hrest
        cases hkind
      | cons c' text =>
        obtain ⟨s₂, hnext', -⟩ := Option.bind_eq_some_iff.mp hrest
        exact word_minus (next_isNumberChar hnext') _
    · exact word_none hinitial _

/-! ## Values -/

/-- A separator: its character, and then only spaces. -/
def Separator (c : Char) (sep : PyStr) : Prop :=
  ∃ spaces, sep = codePoint c :: spaces ∧ ∀ p ∈ spaces, isJsonSpace p = true

/-- The text begins with a printable character, neither a space nor a closing bracket. -/
def Begins (s : PyStr) : Prop :=
  ∃ p t, s = p :: t ∧ (0x20 < p.val ∧ p.val < 0x7f) ∧ p ≠ codePoint ']'

theorem Begins.append {s : PyStr} (h : Begins s) (r : PyStr) : Begins (s ++ r) := by
  obtain ⟨p, t, rfl, hp⟩ := h
  exact ⟨p, t ++ r, rfl, hp⟩

/-- There is no space to skip. -/
theorem Begins.skipSpace {s : PyStr} (h : Begins s) : skipSpace s = s := by
  obtain ⟨p, t, rfl, hp⟩ := h
  refine List.dropWhile_cons_of_neg fun hspace => ?_
  have hsmall : ∀ n ∈ [0x20, 0x09, 0x0a, 0x0d], n ≤ 0x20 := by decide
  exact absurd (hsmall p.val (List.contains_iff_mem.mp hspace)) (Nat.not_le.mpr hp.1.1)

theorem Begins.head_ne {s : PyStr} (h : Begins s) : s.head? ≠ some (codePoint ']') := by
  obtain ⟨p, t, rfl, -, hp⟩ := h
  exact fun heq => hp (Option.some.inj heq)

/-- The spaces of a separator are skipped. -/
theorem skipSpace_spaces {spaces s : PyStr} (h : ∀ p ∈ spaces, isJsonSpace p = true)
    (hs : Begins s) : skipSpace (spaces ++ s) = s := by
  unfold skipSpace
  rw [List.dropWhile_append_of_pos h]
  exact hs.skipSpace

/-- Numbers begin with a digit or a minus. -/
theorem begins_number {text : List Char} {kind : NumberKind} (h : numberKind text = some kind) :
    Begins (text.map codePoint) := by
  obtain ⟨s, hs, hkind⟩ := Option.bind_eq_some_iff.mp h
  have hchars := scanNumber_chars hs
  cases text with
  | nil =>
    cases hs
    cases hkind
  | cons c text =>
    have hnumber := hchars (codePoint c) List.mem_cons_self
    refine ⟨codePoint c, text.map codePoint, rfl, ?_, ?_⟩
    rotate_left
    · intro heq
      rw [heq] at hnumber
      cases hnumber
    simp only [isNumberChar, List.contains_cons, List.contains_nil] at hnumber
    grind

/-- So does every value: the reader finds it where it stands, and no array ends there. -/
theorem begins_dumpsSep {d : Dialect} {item key : PyStr} {v : Json} (h : Plain d v) :
    Begins (dumpsSep item key v) := by
  cases v with
  | null => exact ⟨codePoint 'n', str "ull", by rw [dumpsSep]; rfl, by decide⟩
  | bool b =>
    cases b with
    | true => exact ⟨codePoint 't', str "rue", by rw [dumpsSep]; rfl, by decide⟩
    | false => exact ⟨codePoint 'f', str "alse", by rw [dumpsSep]; rfl, by decide⟩
  | int n =>
    rw [dumpsSep]
    exact begins_number (numberKind_intStr n)
  | float x =>
    rw [dumpsSep]
    cases x with
    | finite neg q => exact begins_number (numberKind_repr h.1)
    | inf neg =>
      cases neg with
      | true => exact ⟨codePoint '-', str "Infinity", rfl, by decide⟩
      | false => exact ⟨codePoint 'I', str "nfinity", rfl, by decide⟩
    | nan => exact ⟨codePoint 'N', str "aN", rfl, by decide⟩
  | str s => exact ⟨codePoint '"', _, by rw [dumpsSep]; rfl, by decide⟩
  | arr elems =>
    cases elems with
    | nil => exact ⟨codePoint '[', str "]", by rw [dumpsSep]; rfl, by decide⟩
    | cons v elems => exact ⟨codePoint '[', _, by rw [dumpsSep, List.cons_append], by decide⟩
  | obj fields =>
    cases fields with
    | nil => exact ⟨codePoint '\x7b', str "\x7d", by rw [dumpsSep]; rfl, by decide⟩
    | cons kv fields =>
      rw [dumpsSep, List.cons_append, List.cons_append, List.cons_append]
      exact ⟨codePoint '\x7b', _, rfl, by decide⟩

theorem begins_quote (k r : PyStr) : Begins (quote k ++ r) := ⟨_, _, rfl, by decide⟩

theorem head_quote (k r : PyStr) : (quote k ++ r).head? = some (codePoint '"') := rfl

/-- Standing before `v`, the reader takes `v`. -/
def ReadsBack (d : Dialect) (item key : PyStr) (v : Json) : Prop :=
  ∀ fuel r, EndsNumber r → (dumpsSep item key v).length < fuel →
    value d fuel (dumpsSep item key v ++ r) = .ok (v, r)

theorem endsNumber_cons {p : CodePoint} (hp : isNumberChar p = false) (r : PyStr) :
    EndsNumber (p :: r) := by
  intro q hq
  rw [← Option.some.inj hq]
  exact hp

theorem Separator.endsNumber {c : Char} {sep : PyStr} (h : Separator c sep)
    (hc : isNumberChar (codePoint c) = false) (r : PyStr) : EndsNumber (sep ++ r) := by
  obtain ⟨spaces, rfl, -⟩ := h
  exact endsNumber_cons hc _

/-- After an element a comma or a bracket follows, so a number ends there. -/
theorem endsNumber_elemsSep {item key : PyStr} (hitem : Separator ',' item) (elems : List Json)
    (r : PyStr) : EndsNumber (elemsSep item key elems ++ r) := by
  cases elems with
  | nil => exact endsNumber_cons (by decide) r
  | cons v elems =>
    rw [elemsSep, List.append_assoc, List.append_assoc]
    exact hitem.endsNumber (by decide) _

/-- After a member a comma or a brace. -/
theorem endsNumber_fieldsSep {item key : PyStr} (hitem : Separator ',' item)
    (fields : List (PyStr × Json)) (r : PyStr) :
    EndsNumber (fieldsSep item key fields ++ r) := by
  cases fields with
  | nil => exact endsNumber_cons (by decide) r
  | cons kv fields =>
    rw [fieldsSep, List.append_assoc, List.append_assoc, List.append_assoc, List.append_assoc]
    exact hitem.endsNumber (by decide) _

theorem setItem_new {items : Obj} {key : PyStr} (h : key ∉ items.map (·.1)) (v : Json) :
    setItem items key v = items ++ [(key, v)] := by
  refine if_neg fun hany => ?_
  obtain ⟨kv, hmem, hkey⟩ := List.any_eq_true.mp hany
  exact h (List.mem_map.mpr ⟨kv, hmem, of_decide_eq_true hkey⟩)

/-- With no key twice, every member is an item of the `dict`. -/
theorem dictOf_eq {members : List (PyStr × Json)} (h : (members.map (·.1)).Nodup) :
    dictOf members = members := by
  have hfold : ∀ (rest items : List (PyStr × Json)), ((items ++ rest).map (·.1)).Nodup →
      rest.foldl (fun items kv => setItem items kv.1 kv.2) items = items ++ rest := by
    intro rest
    induction rest with
    | nil => exact fun items _ => (List.append_nil items).symm
    | cons kv rest ih =>
      intro items hnodup
      rw [List.append_cons] at hnodup ⊢
      have hnew : kv.1 ∉ items.map (·.1) := by
        rw [List.map_append, List.map_append, List.append_assoc] at hnodup
        intro hmem
        exact (List.nodup_append.mp hnodup).2.2 _ hmem _ List.mem_cons_self rfl
      rw [List.foldl_cons, setItem_new hnew]
      exact ih _ hnodup
  exact hfold members [] h

section
variable {d : Dialect} {item key : PyStr}

/-- A word is taken at once. -/
theorem value_word {v : Json} {s r : PyStr} (h : word d s = some (v, r)) (fuel : Nat) :
    value d (fuel + 1) s = .ok (v, r) := by
  unfold value
  rw [h]

/-- After its quote a string is left to `scanString`. -/
theorem value_string (s : PyStr) (fuel : Nat) : value d (fuel + 1) (codePoint '"' :: s) = (do
    let (text, r) ← scanString .char none [] s
    return (.str text, r)) := by
  have hword : word d (codePoint '"' :: s) = none := word_none (by decide) _
  rw [value, hword]
  dsimp only
  rw [if_pos rfl]

/-- After its bracket an array that has elements is left to `elements`. -/
theorem value_bracket {fuel : Nat} {s : PyStr} (hs : Begins s) :
    value d (fuel + 1) (codePoint '[' :: s) = (do
      let (vs, r) ← elements d fuel s
      return (.arr vs, r)) := by
  have hword : word d (codePoint '[' :: s) = none := word_none (by decide) _
  rw [value, hword]
  dsimp only
  rw [if_neg (by decide), if_pos rfl, hs.skipSpace, if_neg hs.head_ne]

/-- After its brace an object that has members is left to `members`. -/
theorem value_brace {fuel : Nat} {s : PyStr} :
    value d (fuel + 1) (codePoint '\x7b' :: codePoint '"' :: s) = (do
      let (kvs, r) ← members d fuel (codePoint '"' :: s)
      return (.obj (dictOf kvs), r)) := by
  have hword : word d (codePoint '\x7b' :: codePoint '"' :: s) = none := word_none (by decide) _
  have hskip : skipSpace (codePoint '"' :: s) = codePoint '"' :: s :=
    Begins.skipSpace ⟨_, _, rfl, by decide⟩
  rw [value, hword]
  dsimp only
  rw [if_neg (by decide), if_neg (by decide), if_pos rfl, hskip, List.head?_cons,
    if_neg (by decide)]

/-- What `value` does with the text of a string, an array or an object. -/
theorem value_str (s : PyStr) (fuel : Nat) (r : PyStr) :
    value d (fuel + 1) (quote s ++ r) = .ok (.str s, r) := by
  have hquote : quote s ++ r = codePoint '"' :: ((quote s).tail ++ r) := rfl
  rw [hquote, value_string, scanString_quote]
  rfl

theorem value_arr {vs : List Json} {fuel : Nat} {s r : PyStr} (hs : Begins s)
    (h : elements d fuel s = .ok (vs, r)) :
    value d (fuel + 1) (codePoint '[' :: s) = .ok (.arr vs, r) := by
  rw [value_bracket hs, h]
  rfl

/-- The text of a member, and what follows it, is the text of an object after its brace. -/
theorem value_obj {kvs : List (PyStr × Json)} {fuel : Nat} (k : PyStr) {s r : PyStr}
    (h : members d fuel (quote k ++ s) = .ok (kvs, r)) :
    value d (fuel + 1) (codePoint '\x7b' :: (quote k ++ s)) = .ok (.obj (dictOf kvs), r) := by
  have hquote : quote k ++ s = codePoint '"' :: ((quote k).tail ++ s) := rfl
  rw [hquote] at h ⊢
  rw [value_brace, h]
  rfl

/-- A string literal that cannot be read spoils the value it begins. -/
theorem value_str_error {e : LoadExc} {s : PyStr} (h : scanString .char none [] s = .error e)
    (fuel : Nat) : value d (fuel + 1) (codePoint '"' :: s) = .error e := by
  rw [value_string, h]
  rfl

theorem value_arr_error {e : LoadExc} {fuel : Nat} {s : PyStr} (hs : Begins s)
    (h : elements d fuel s = .error e) : value d (fuel + 1) (codePoint '[' :: s) = .error e := by
  rw [value_bracket hs, h]
  rfl

theorem value_obj_error {e : LoadExc} {fuel : Nat} {s : PyStr}
    (h : members d fuel (codePoint '"' :: s) = .error e) :
    value d (fuel + 1) (codePoint '\x7b' :: codePoint '"' :: s) = .error e := by
  rw [value_brace, h]
  rfl

/-- An error goes through to the array, from any of its elements. -/
theorem elements_error {e : LoadExc} {fuel : Nat} {s : PyStr} (h : value d fuel s = .error e) :
    elements d (fuel + 1) s = .error e := by
  rw [elements, h]
  rfl

theorem elements_last {v : Json} {fuel : Nat} {s r : PyStr}
    (h : value d fuel s = .ok (v, codePoint ']' :: r)) :
    elements d (fuel + 1) s = .ok ([v], r) := by
  rw [elements, h]
  rfl

/-- After an element and a separator come the other elements. -/
theorem elements_comma {v : Json} {fuel : Nat} {s s' : PyStr} (hitem : Separator ',' item)
    (h : value d fuel s = .ok (v, item ++ s')) (hs : Begins s') :
    elements d (fuel + 1) s = (do
      let (vs, r) ← elements d fuel s'
      return (v :: vs, r)) := by
  obtain ⟨spaces, rfl, hspaces⟩ := hitem
  have hskip : skipSpace (codePoint ',' :: (spaces ++ s')) = codePoint ',' :: (spaces ++ s') :=
    Begins.skipSpace ⟨_, _, rfl, by decide⟩
  rw [elements, h]
  simp only [bind, Except.bind, List.cons_append, hskip]
  rw [if_neg (by decide), if_pos trivial, skipSpace_spaces hspaces hs]

theorem elements_next {v : Json} {vs : List Json} {fuel : Nat} {s s' r : PyStr}
    (hitem : Separator ',' item) (h : value d fuel s = .ok (v, item ++ s')) (hs : Begins s')
    (hrest : elements d fuel s' = .ok (vs, r)) :
    elements d (fuel + 1) s = .ok (v :: vs, r) := by
  rw [elements_comma hitem h hs, hrest]
  rfl

theorem elements_next_error {e : LoadExc} {v : Json} {fuel : Nat} {s s' : PyStr}
    (hitem : Separator ',' item) (h : value d fuel s = .ok (v, item ++ s')) (hs : Begins s')
    (hrest : elements d fuel s' = .error e) : elements d (fuel + 1) s = .error e := by
  rw [elements_comma hitem h hs, hrest]
  rfl

/-- And to the object, from a key or a value. -/
theorem members_key_error {e : LoadExc} {s : PyStr} (h : scanString .char none [] s = .error e)
    (fuel : Nat) : members d (fuel + 1) (codePoint '"' :: s) = .error e := by
  rw [members]
  simp only [List.head?_cons, ne_eq, not_true_eq_false, ↓reduceIte, List.tail_cons, h, bind,
    Except.bind]

/-- How `members` goes on after a member: to the end of the object, or to the other members. -/
def afterMember (d : Dialect) (fuel : Nat) (k : PyStr) (v : Json) (r : PyStr) :
    Except LoadExc (List (PyStr × Json) × PyStr) :=
  match skipSpace r with
  | p :: r' =>
    if p = codePoint '\x7d' then return ([(k, v)], r')
    else if p = codePoint ',' then do
      let (kvs, r'') ← members d fuel (skipSpace r')
      return ((k, v) :: kvs, r'')
    else .error .jsonDecodeError
  | [] => .error .jsonDecodeError

/-- A member: its key, its colon, its value, and what the value is followed by. -/
theorem members_colon {k : PyStr} {fuel : Nat} {s : PyStr} (hkey : Separator ':' key)
    (hs : Begins s) : members d (fuel + 1) (quote k ++ key ++ s) = (do
      let (v, r) ← value d fuel s
      afterMember d fuel k v r) := by
  obtain ⟨spaces, rfl, hspaces⟩ := hkey
  have hskip : skipSpace (codePoint ':' :: (spaces ++ s)) = codePoint ':' :: (spaces ++ s) :=
    Begins.skipSpace ⟨_, _, rfl, by decide⟩
  have hquote : quote k ++ codePoint ':' :: spaces ++ s =
      codePoint '"' :: ((quote k).tail ++ codePoint ':' :: (spaces ++ s)) := by
    rw [List.append_assoc]
    rfl
  rw [hquote, members]
  simp only [List.head?_cons, ne_eq, not_true_eq_false, ↓reduceIte, List.tail_cons,
    scanString_quote, bind, Except.bind, hskip]
  rw [skipSpace_spaces hspaces hs]
  rfl

theorem members_value_error {e : LoadExc} {k : PyStr} {fuel : Nat} {s : PyStr}
    (hkey : Separator ':' key) (hs : Begins s) (h : value d fuel s = .error e) :
    members d (fuel + 1) (quote k ++ key ++ s) = .error e := by
  rw [members_colon hkey hs, h]
  rfl

theorem members_last {k : PyStr} {v : Json} {fuel : Nat} {s r : PyStr} (hkey : Separator ':' key)
    (hs : Begins s) (h : value d fuel s = .ok (v, codePoint '\x7d' :: r)) :
    members d (fuel + 1) (quote k ++ key ++ s) = .ok ([(k, v)], r) := by
  rw [members_colon hkey hs, h]
  rfl

/-- After a member and a separator come the other members. -/
theorem members_comma {k : PyStr} {v : Json} {fuel : Nat} {s s' : PyStr}
    (hitem : Separator ',' item) (hkey : Separator ':' key) (hs : Begins s)
    (h : value d fuel s = .ok (v, item ++ s')) (hs' : Begins s') :
    members d (fuel + 1) (quote k ++ key ++ s) = (do
      let (kvs, r) ← members d fuel s'
      return ((k, v) :: kvs, r)) := by
  obtain ⟨spaces, rfl, hspaces⟩ := hitem
  have hskip : skipSpace (codePoint ',' :: (spaces ++ s')) = codePoint ',' :: (spaces ++ s') :=
    Begins.skipSpace ⟨_, _, rfl, by decide⟩
  rw [members_colon hkey hs, h]
  simp only [bind, Except.bind, afterMember, List.cons_append, hskip]
  rw [if_neg (by decide), if_pos trivial, skipSpace_spaces hspaces hs']

theorem members_next {k : PyStr} {v : Json} {kvs : List (PyStr × Json)} {fuel : Nat}
    {s s' r : PyStr} (hitem : Separator ',' item) (hkey : Separator ':' key) (hs : Begins s)
    (h : value d fuel s = .ok (v, item ++ s')) (hs' : Begins s')
    (hrest : members d fuel s' = .ok (kvs, r)) :
    members d (fuel + 1) (quote k ++ key ++ s) = .ok ((k, v) :: kvs, r) := by
  rw [members_comma hitem hkey hs h hs', hrest]
  rfl

theorem members_next_error {e : LoadExc} {k : PyStr} {v : Json} {fuel : Nat} {s s' : PyStr}
    (hitem : Separator ',' item) (hkey : Separator ':' key) (hs : Begins s)
    (h : value d fuel s = .ok (v, item ++ s')) (hs' : Begins s')
    (hrest : members d fuel s' = .error e) :
    members d (fuel + 1) (quote k ++ key ++ s) = .error e := by
  rw [members_comma hitem hkey hs h hs', hrest]
  rfl

/-- A value that takes one step of the reader. -/
theorem ReadsBack.of_step {v : Json} (h : ∀ fuel r, EndsNumber r →
    value d (fuel + 1) (dumpsSep item key v ++ r) = .ok (v, r)) : ReadsBack d item key v := by
  intro fuel r hr hfuel
  obtain ⟨fuel, rfl⟩ := Nat.exists_eq_succ_of_ne_zero (Nat.ne_of_gt (Nat.zero_lt_of_lt hfuel))
  exact h fuel r hr

/-- A number is no word and opens nothing, so `number` reads it. -/
theorem readsBack_number {text : List Char} {kind : NumberKind} (h : numberKind text = some kind)
    {v : Json} {r : PyStr} (hread : number d (text.map codePoint ++ r) = .ok (v, r)) (fuel : Nat) :
    value d (fuel + 1) (text.map codePoint ++ r) = .ok (v, r) := by
  obtain ⟨p, t, htext, -, -⟩ := begins_number h
  have hp : isNumberChar p = true := by
    obtain ⟨s, hs, -⟩ := Option.bind_eq_some_iff.mp h
    exact scanNumber_chars hs p (htext ▸ List.mem_cons_self)
  have hne (c : Char) (hc : isNumberChar (codePoint c) = false) : p ≠ codePoint c := by
    rintro rfl
    rw [hp] at hc
    cases hc
  have hword := word_number h (d := d) r
  rw [htext] at hread hword ⊢
  rw [List.cons_append] at hread hword ⊢
  rw [value, hword]
  dsimp only
  rw [if_neg (hne '"' (by decide)), if_neg (hne '[' (by decide)), if_neg (hne '\x7b' (by decide)),
    hread]

end

/-- The separators are a comma and a colon, with spaces after them. -/
structure Separators (item key : PyStr) : Prop where
  comma : Separator ',' item
  colon : Separator ':' key

theorem separators_compact : Separators (str ",") (str ":") where
  comma := ⟨[], rfl, fun _ h => absurd h List.not_mem_nil⟩
  colon := ⟨[], rfl, fun _ h => absurd h List.not_mem_nil⟩

section
variable {d : Dialect} {item key : PyStr}

mutual

/-- **What is written is read back.** -/
theorem value_dumpsSep (hsep : Separators item key) :
    ∀ {v : Json}, Plain d v → ReadsBack d item key v
  | .null, _ => .of_step fun fuel r _ => by
    rw [dumpsSep]
    rfl
  | .bool b, _ => .of_step fun fuel r _ => by
    rw [dumpsSep]
    cases b <;> rfl
  | .int n, h => .of_step fun fuel r hr => by
    rw [dumpsSep]
    exact readsBack_number (numberKind_intStr n) (number_int h hr) fuel
  | .float (.finite neg q), h => .of_step fun fuel r hr => by
    rw [dumpsSep]
    exact readsBack_number (numberKind_repr h.1) (number_float h hr) fuel
  | .float (.inf neg), h => .of_step fun fuel r _ => by
    have hconstants : d.constants = true := h
    rw [dumpsSep]
    refine value_word ?_ fuel
    rw [word, words, hconstants]
    cases neg <;> rfl
  | .float .nan, h => .of_step fun fuel r _ => by
    have hconstants : d.constants = true := h
    rw [dumpsSep]
    refine value_word ?_ fuel
    rw [word, words, hconstants]
    rfl
  | .str s, _ => .of_step fun fuel r _ => by
    rw [dumpsSep]
    exact value_str s fuel r
  | .arr [], _ => .of_step fun fuel r _ => by
    have hword : word d (codePoint '[' :: codePoint ']' :: r) = none := word_none (by decide) _
    rw [dumpsSep]
    show value d (fuel + 1) (codePoint '[' :: codePoint ']' :: r) = _
    rw [value, hword]
    rfl
  | .arr (v :: elems), h => by
    intro fuel r _ hfuel
    obtain ⟨fuel, rfl⟩ := Nat.exists_eq_succ_of_ne_zero (Nat.ne_of_gt (Nat.zero_lt_of_lt hfuel))
    rw [dumpsSep] at hfuel ⊢
    refine value_arr (((begins_dumpsSep h.1).append _).append _) ?_
    exact elements_elemsSep hsep h.2 (value_dumpsSep hsep h.1) fuel r
      (Nat.lt_of_succ_lt_succ hfuel)
  | .obj [], _ => .of_step fun fuel r _ => by
    have hword : word d (codePoint '\x7b' :: codePoint '\x7d' :: r) = none :=
      word_none (by decide) _
    rw [dumpsSep]
    show value d (fuel + 1) (codePoint '\x7b' :: codePoint '\x7d' :: r) = _
    rw [value, hword]
    rfl
  | .obj ((k, v) :: fields), h => by
    intro fuel r _ hfuel
    obtain ⟨fuel, rfl⟩ := Nat.exists_eq_succ_of_ne_zero (Nat.ne_of_gt (Nat.zero_lt_of_lt hfuel))
    rw [dumpsSep] at hfuel ⊢
    have hmembers := members_fieldsSep hsep h.2.2 k h.2.1 (value_dumpsSep hsep h.2.1) fuel r
      (Nat.lt_of_succ_lt_succ (by simpa using hfuel))
    have hvalue := value_obj k (by simpa using hmembers)
    rw [dictOf_eq h.1] at hvalue
    simpa using hvalue

theorem elements_elemsSep (hsep : Separators item key) : ∀ {elems : List Json},
    PlainElems d elems → ∀ {v : Json}, ReadsBack d item key v → ∀ fuel r,
    (dumpsSep item key v ++ elemsSep item key elems).length < fuel →
    elements d fuel (dumpsSep item key v ++ elemsSep item key elems ++ r) = .ok (v :: elems, r)
  | [], _, v, hread => by
    intro fuel r hfuel
    obtain ⟨fuel, rfl⟩ := Nat.exists_eq_succ_of_ne_zero (Nat.ne_of_gt (Nat.zero_lt_of_lt hfuel))
    rw [List.length_append, elemsSep, List.length_singleton] at hfuel
    refine elements_last ?_
    rw [List.append_assoc]
    exact hread fuel _ (endsNumber_elemsSep hsep.comma [] r) (by omega)
  | w :: elems, h, v, hread => by
    intro fuel r hfuel
    obtain ⟨fuel, rfl⟩ := Nat.exists_eq_succ_of_ne_zero (Nat.ne_of_gt (Nat.zero_lt_of_lt hfuel))
    have hvalue := hread fuel (elemsSep item key (w :: elems) ++ r)
      (endsNumber_elemsSep hsep.comma (w :: elems) r)
    rw [elemsSep] at hfuel hvalue ⊢
    have hitem : 0 < item.length := by
      obtain ⟨spaces, rfl, -⟩ := hsep.comma
      exact Nat.succ_pos _
    simp only [List.length_append] at hfuel
    have hrest := elements_elemsSep hsep h.2 (value_dumpsSep hsep h.1) fuel r
      (by rw [List.length_append]; omega)
    refine elements_next hsep.comma ?_ (((begins_dumpsSep h.1).append _).append r) hrest
    simpa using hvalue (by omega)

theorem members_fieldsSep (hsep : Separators item key) : ∀ {fields : List (PyStr × Json)},
    PlainFields d fields → ∀ (k : PyStr) {v : Json}, Plain d v → ReadsBack d item key v → ∀ fuel r,
    (quote k ++ key ++ dumpsSep item key v ++ fieldsSep item key fields).length < fuel →
    members d fuel (quote k ++ key ++ (dumpsSep item key v ++ fieldsSep item key fields ++ r)) =
      .ok ((k, v) :: fields, r)
  | [], _, k, v, hv, hread => by
    intro fuel r hfuel
    obtain ⟨fuel, rfl⟩ := Nat.exists_eq_succ_of_ne_zero (Nat.ne_of_gt (Nat.zero_lt_of_lt hfuel))
    rw [List.length_append, fieldsSep, List.length_singleton, List.length_append] at hfuel
    refine members_last hsep.colon (((begins_dumpsSep hv).append _).append r) ?_
    rw [List.append_assoc]
    exact hread fuel _ (endsNumber_fieldsSep hsep.comma [] r) (by omega)
  | (k', w) :: fields, h, k, v, hv, hread => by
    intro fuel r hfuel
    obtain ⟨fuel, rfl⟩ := Nat.exists_eq_succ_of_ne_zero (Nat.ne_of_gt (Nat.zero_lt_of_lt hfuel))
    have hvalue := hread fuel (fieldsSep item key ((k', w) :: fields) ++ r)
      (endsNumber_fieldsSep hsep.comma ((k', w) :: fields) r)
    rw [fieldsSep] at hfuel hvalue ⊢
    have hitem : 0 < item.length := by
      obtain ⟨spaces, rfl, -⟩ := hsep.comma
      exact Nat.succ_pos _
    simp only [List.length_append] at hfuel
    have hrest := members_fieldsSep hsep h.2 k' h.1 (value_dumpsSep hsep h.1) fuel r
      (by simp only [List.length_append]; omega)
    rw [List.append_assoc (quote k')] at hrest
    refine members_next hsep.comma hsep.colon (((begins_dumpsSep hv).append _).append r) ?_
      (begins_quote k' _) hrest
    simpa using hvalue (by omega)

end

/-- **`parse` undoes `dumps`.** -/
theorem parse_dumpsSep (hsep : Separators item key) {v : Json} (h : Plain d v) :
    parse d (dumpsSep item key v) = .ok v := by
  have hvalue := value_dumpsSep hsep h (2 * (dumpsSep item key v).length + 1) []
    (fun p hp => by cases hp) (by omega)
  rw [List.append_nil] at hvalue
  rw [parse, (begins_dumpsSep h).skipSpace, hvalue]
  rfl

end

end Lib
