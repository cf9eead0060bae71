import PolyGate.Lib.JsonDumps
import PolyGate.Lib.Lines

/-!
# `Lib/JsonCut.lean` — a written value that is cut at a line boundary

What `json.dumps` adds of its own is printable ASCII, so a written value has a property of code
points when its keys and strings have it (`forall_dumpsSep`). With `ensure_ascii=False` this leaves
the line boundaries U+0085, U+2028 and U+2029 in the text. What stands before such a boundary is
the beginning of a string literal, and is not read as anything (`value_cut`).
-/

namespace Lib

mutual

/-- Every key and every string satisfies `P`. -/
def EachText (P : PyStr → Prop) : Json → Prop
  | .str s => P s
  | .arr elems => EachTextElems P elems
  | .obj fields => EachTextFields P fields
  | _ => True

def EachTextElems (P : PyStr → Prop) : List Json → Prop
  | [] => True
  | v :: elems => EachText P v ∧ EachTextElems P elems

def EachTextFields (P : PyStr → Prop) : List (PyStr × Json) → Prop
  | [] => True
  | (k, v) :: fields => P k ∧ EachText P v ∧ EachTextFields P fields

end

mutual

/-- A stronger property of texts. -/
theorem EachText.imp {P P' : PyStr → Prop} (himp : ∀ s, P s → P' s) :
    ∀ {v : Json}, EachText P v → EachText P' v
  | .str s, h => himp s h
  | .arr elems, h => EachTextElems.imp himp elems h
  | .obj fields, h => EachTextFields.imp himp fields h
  | .null, h | .bool _, h | .int _, h | .float _, h => h

theorem EachTextElems.imp {P P' : PyStr → Prop} (himp : ∀ s, P s → P' s) :
    ∀ elems : List Json, EachTextElems P elems → EachTextElems P' elems
  | [], h => h
  | _ :: elems, h => ⟨EachText.imp himp h.1, EachTextElems.imp himp elems h.2⟩

theorem EachTextFields.imp {P P' : PyStr → Prop} (himp : ∀ s, P s → P' s) :
    ∀ fields : List (PyStr × Json), EachTextFields P fields → EachTextFields P' fields
  | [], h => h
  | _ :: fields, h => ⟨himp _ h.1, EachText.imp himp h.2.1, EachTextFields.imp himp fields h.2.2⟩

end

/-! ## The code points of a written value -/

/-- Printable ASCII. -/
def isPrintable (c : Char) : Bool := 0x20 ≤ c.toNat && c.toNat < 0x7f

theorem isPrintable_iff {c : Char} : isPrintable c = true ↔ 0x20 ≤ c.toNat ∧ c.toNat < 0x7f := by
  rw [isPrintable, Bool.and_eq_true, decide_eq_true_iff, decide_eq_true_iff]

theorem isPrintable_digit {c : Char} (h : c.isDigit = true) : isPrintable c = true := by
  have hbounds : 48 ≤ c.toNat ∧ c.toNat ≤ 57 := by
    simpa [Char.isDigit, UInt32.le_iff_toNat_le] using h
  rw [isPrintable_iff]
  omega

section
variable {Q : CodePoint → Prop} (hascii : ∀ p : CodePoint, 0x20 ≤ p.val → p.val < 0x7f → Q p)
include hascii

theorem forall_map_printable {cs : List Char} (h : cs.all isPrintable = true) :
    ∀ p ∈ cs.map codePoint, Q p := by
  intro p hp
  obtain ⟨c, hc, rfl⟩ := List.mem_map.mp hp
  obtain ⟨hlow, hhigh⟩ := isPrintable_iff.mp (List.all_eq_true.mp h c hc)
  exact hascii _ hlow hhigh

/-- The words and the brackets of JSON are ASCII. -/
theorem forall_str {s : String} (h : s.toList.all isPrintable = true) :
    ∀ p ∈ str s, Q p := forall_map_printable hascii h

theorem forall_digits {ds : List Char} (h : Digits ds) : ∀ p ∈ ds.map codePoint, Q p := by
  apply forall_map_printable hascii
  rw [List.all_eq_true]
  exact fun c hc => isPrintable_digit (h c hc)

/-- The text of an integer is ASCII. -/
theorem forall_intStr (n : Int) : ∀ p ∈ (intStr n).map codePoint, Q p := by
  unfold intStr
  split
  · rw [List.map_cons, List.forall_mem_cons]
    exact ⟨hascii _ (by decide) (by decide), forall_digits hascii (digits_toDigits _)⟩
  · exact forall_digits hascii (digits_toDigits _)

/-- So is the text of a float. -/
theorem forall_dumpsFloat (x : PyFloat) : ∀ p ∈ dumpsFloat x, Q p := by
  have hmagnitude (q : ℚ≥0) : ∀ p ∈ (PyFloat.magnitudeRepr q).map codePoint, Q p := by
    apply forall_map_printable hascii
    rw [List.all_eq_true]
    intro c hc
    rcases (PyFloat.magnitudeRepr_chars q).2 c hc with hdigit | hmark
    · exact isPrintable_digit hdigit
    · have hall : PyFloat.marks.all isPrintable = true := by decide
      exact List.all_eq_true.mp hall c hmark
  cases x with
  | finite neg q =>
    cases neg with
    | false => exact hmagnitude q
    | true =>
      show ∀ p ∈ codePoint '-' :: (PyFloat.magnitudeRepr q).map codePoint, Q p
      rw [List.forall_mem_cons]
      exact ⟨hascii _ (by decide) (by decide), hmagnitude q⟩
  | inf neg => cases neg <;> exact forall_str hascii (by decide)
  | nan => exact forall_str hascii (by decide)

/-- A control character is written in ASCII; another one is in the text itself. -/
theorem forall_escape {p : CodePoint} : (∀ q ∈ escape p, Q q) ↔ (0x20 ≤ p.val → Q p) := by
  unfold escape
  split
  all_goals try
    rename_i h
    refine iff_of_true (forall_str hascii (by decide)) fun hp => hascii p hp ?_
    rw [h]
    decide
  split
  · rename_i hlow
    refine iff_of_true (List.forall_mem_append.mpr ⟨forall_str hascii (by decide), ?_⟩)
      fun hp => absurd hlow (Nat.not_lt.mpr hp)
    have hdigit : ∀ d < 16, Q (hexDigit d) := by
      intro d hd
      have hall : ∀ d < 16, 0x20 ≤ (hexDigit d).val ∧ (hexDigit d).val < 0x7f := by decide
      exact hascii _ (hall d hd).1 (hall d hd).2
    simp only [List.forall_mem_cons]
    exact ⟨hdigit _ (by omega), hdigit _ (by omega), fun q hq => absurd hq List.not_mem_nil⟩
  · rename_i hlow
    have hp : 0x20 ≤ p.val := Nat.not_lt.mp hlow
    simp [hp]

/-- What is written for a string are its own code points from U+0020 on, and ASCII. -/
theorem forall_quote {s : PyStr} :
    (∀ q ∈ quote s, Q q) ↔ ∀ p ∈ s, 0x20 ≤ p.val → Q p := by
  have hmark : Q (codePoint '"') := hascii _ (by decide) (by decide)
  unfold quote
  rw [List.cons_append, List.forall_mem_cons, List.forall_mem_append]
  constructor
  · intro h p hp
    exact (forall_escape hascii).mp fun q hq => h.2.1 q (List.mem_flatMap.mpr ⟨p, hp, hq⟩)
  · intro h
    refine ⟨hmark, fun q hq => ?_, by simpa using hmark⟩
    obtain ⟨p, hp, hq⟩ := List.mem_flatMap.mp hq
    exact (forall_escape hascii).mpr (h p hp) q hq

variable {item key : PyStr} (hsep : ∀ p ∈ item ++ key, Q p)
include hsep

mutual

/-- A written value consists of ASCII and of the code points of its texts. -/
theorem forall_dumpsSep : ∀ v : Json, (∀ p ∈ dumpsSep item key v, Q p) ↔
    EachText (fun s => ∀ p ∈ s, 0x20 ≤ p.val → Q p) v
  | .null => by
    rw [dumpsSep]
    exact iff_of_true (forall_str hascii (by decide)) trivial
  | .bool b => by
    rw [dumpsSep]
    refine iff_of_true ?_ trivial
    cases b <;> exact forall_str hascii (by decide)
  | .int n => by
    rw [dumpsSep]
    exact iff_of_true (forall_intStr hascii n) trivial
  | .float x => by
    rw [dumpsSep]
    exact iff_of_true (forall_dumpsFloat hascii x) trivial
  | .str s => by
    rw [dumpsSep]
    exact forall_quote hascii
  | .arr [] => by
    rw [dumpsSep]
    exact iff_of_true (forall_str hascii (by decide)) trivial
  | .arr (v :: elems) => by
    have hmark : Q (codePoint '[') := hascii _ (by decide) (by decide)
    rw [dumpsSep, List.cons_append, List.forall_mem_cons, List.forall_mem_append,
      forall_dumpsSep v, forall_elemsSep elems]
    exact and_iff_right hmark
  | .obj [] => by
    rw [dumpsSep]
    exact iff_of_true (forall_str hascii (by decide)) trivial
  | .obj ((k, v) :: fields) => by
    have hmark : Q (codePoint '\x7b') := hascii _ (by decide) (by decide)
    have hkey := (List.forall_mem_append.mp hsep).2
    rw [dumpsSep, List.forall_mem_append, List.forall_mem_append, List.forall_mem_append,
      List.forall_mem_cons, forall_quote hascii, forall_dumpsSep v, forall_fieldsSep fields]
    show _ ↔ _ ∧ _ ∧ _
    tauto

theorem forall_elemsSep : ∀ elems : List Json, (∀ p ∈ elemsSep item key elems, Q p) ↔
    EachTextElems (fun s => ∀ p ∈ s, 0x20 ≤ p.val → Q p) elems
  | [] => by
    rw [elemsSep]
    exact iff_of_true (forall_str hascii (s := "]") (by decide)) trivial
  | v :: elems => by
    have hitem := (List.forall_mem_append.mp hsep).1
    rw [elemsSep, List.forall_mem_append, List.forall_mem_append, forall_dumpsSep v,
      forall_elemsSep elems]
    show _ ↔ _ ∧ _
    tauto

theorem forall_fieldsSep : ∀ fields : List (PyStr × Json),
    (∀ p ∈ fieldsSep item key fields, Q p) ↔
      EachTextFields (fun s => ∀ p ∈ s, 0x20 ≤ p.val → Q p) fields
  | [] => by
    rw [fieldsSep]
    exact iff_of_true (forall_str hascii (s := "\x7d") (by decide)) trivial
  | (k, v) :: fields => by
    obtain ⟨hitem, hkey⟩ := List.forall_mem_append.mp hsep
    rw [fieldsSep, List.forall_mem_append, List.forall_mem_append, List.forall_mem_append,
      List.forall_mem_append, forall_quote hascii, forall_dumpsSep v, forall_fieldsSep fields]
    show _ ↔ _ ∧ _ ∧ _
    tauto

end

end

/-! ## What is cut cannot be read -/

/-- Nothing, or a control character: no string literal goes on here. -/
def EndsString (w : PyStr) : Prop := ∀ p, w.head? = some p → p.val < 0x20

/-- A string literal that stops here has no closing quote. -/
theorem scanString_endsString {w : PyStr} (hw : EndsString w) (read : PyStr) :
    ∃ e, scanString .char none read w = .error e := by
  cases w with
  | nil => exact ⟨_, rfl⟩
  | cons p w =>
    have hp := hw p rfl
    have hquote : p ≠ codePoint '"' := by
      rintro rfl
      exact absurd hp (by decide)
    have hslash : p ≠ codePoint '\\' := by
      rintro rfl
      exact absurd hp (by decide)
    exact ⟨.jsonDecodeError, by rw [scanString, if_neg hquote, if_neg hslash, if_pos hp]⟩

/-- Printable ASCII holds no line boundary. -/
theorem printable_not_break {p : CodePoint} (h : 0x20 ≤ p.val) (h' : p.val < 0x7f) :
    isLineBreak p = false := by
  refine decide_eq_false fun hmem => ?_
  have hall : ∀ n ∈ lineBreaks, n < 0x20 ∨ 0x7f ≤ n := by decide
  rcases hall p.val hmem with h'' | h'' <;> omega

/-- Of the line boundaries only those that are written as they are can cut a string. -/
theorem escape_break {p : CodePoint} (hp : ¬ OneLine (escape p)) :
    escape p = [p] ∧ isLineBreak p = true := by
  have h : 0x20 ≤ p.val ∧ isLineBreak p = true := by
    have hiff := forall_escape (p := p) fun _ => printable_not_break
    have hnot := hiff.not.mp hp
    push Not at hnot
    simpa using hnot
  refine ⟨?_, h.2⟩
  obtain ⟨n, hn⟩ := p
  have hall : ∀ n ∈ lineBreaks, 0x20 ≤ n → n = 0x85 ∨ n = 0x2028 ∨ n = 0x2029 := by decide
  rcases hall n (of_decide_eq_true h.2) h.1 with rfl | rfl | rfl <;> rfl

/-- A string literal that is cut, from where its reader is. -/
theorem scanString_cut {w : PyStr} (hw : EndsString w) {s : PyStr}
    (hs : ¬ OneLine (s.flatMap escape ++ [codePoint '"'])) (read : PyStr) :
    ∃ e, scanString .char none read (firstLine (s.flatMap escape ++ [codePoint '"']) ++ w) =
      .error e := by
  induction s generalizing read with
  | nil => exact absurd (fun p hp => by rw [List.mem_singleton.mp hp]; decide) hs
  | cons p s ih =>
    rw [List.flatMap_cons, List.append_assoc] at hs ⊢
    by_cases hp : OneLine (escape p)
    · rw [firstLine_append hp, List.append_assoc, scanString_escape]
      exact ih (fun h => hs (oneLine_append.mpr ⟨hp, h⟩)) (read ++ [p])
    · -- the boundary is in the text itself
      have hbreak := escape_break hp
      rw [firstLine_append_of_not hp, hbreak.1, firstLine]
      simp only [List.takeWhile_cons, hbreak.2]
      exact scanString_endsString hw read

/-- The line goes on after what is no boundary. -/
theorem firstLine_cons {p : CodePoint} (hp : isLineBreak p = false) (s : PyStr) :
    firstLine (p :: s) = p :: firstLine s := by
  simp [firstLine, hp]

/-- A string literal that is cut at a boundary in it. -/
theorem firstLine_quote {w : PyStr} (hw : EndsString w) {s : PyStr} (hs : ¬ OneLine (quote s)) :
    ∃ t e, firstLine (quote s) ++ w = codePoint '"' :: t ∧
      scanString .char none [] t = .error e := by
  have hbody : ¬ OneLine (s.flatMap escape ++ [codePoint '"']) :=
    fun h => hs (List.forall_mem_cons.mpr ⟨by decide, h⟩)
  obtain ⟨e, he⟩ := scanString_cut hw hbody []
  refine ⟨_, e, ?_, he⟩
  rw [quote, List.cons_append, firstLine_cons (by decide), List.cons_append]

/-- A value begins on the first line of its text. -/
theorem Begins.firstLine {s : PyStr} (h : Begins s) : Begins (firstLine s) := by
  obtain ⟨p, t, rfl, hp, hne⟩ := h
  exact ⟨p, _, firstLine_cons (printable_not_break (Nat.le_of_lt hp.1) hp.2) t, hp, hne⟩

section
variable {d : Dialect} {item key w : PyStr}

/-- Cut at its first boundary, and with `w` after that, `v` is not read. -/
def CutFails (d : Dialect) (item key w : PyStr) (v : Json) : Prop :=
  ¬ OneLine (dumpsSep item key v) → ∀ fuel, 2 * (firstLine (dumpsSep item key v)).length < fuel →
    ∃ e, value d fuel (firstLine (dumpsSep item key v) ++ w) = .error e

/-- On one line there is nothing to cut. -/
theorem CutFails.of_oneLine {v : Json} (h : OneLine (dumpsSep item key v)) :
    CutFails d item key w v := fun hnot => absurd h hnot

/-- How the value is written, and what its cut is followed by. -/
structure Cutting (item key w : PyStr) : Prop where
  seps : Separators item key
  line : OneLine (item ++ key)
  ends : EndsString w

variable (hc : Cutting item key w)
include hc

mutual

/-- **A value that is cut is not read**: the boundary stands in a string, the reader comes as far as
that string, and finds it unfinished. -/
theorem value_cut : ∀ {v : Json}, Plain d v → CutFails d item key w v
  | .null, _ => .of_oneLine ((forall_dumpsSep (fun _ => printable_not_break) hc.line _).mpr trivial)
  | .bool b, _ =>
    .of_oneLine ((forall_dumpsSep (fun _ => printable_not_break) hc.line _).mpr trivial)
  | .int n, _ =>
    .of_oneLine ((forall_dumpsSep (fun _ => printable_not_break) hc.line _).mpr trivial)
  | .float x, _ =>
    .of_oneLine ((forall_dumpsSep (fun _ => printable_not_break) hc.line _).mpr trivial)
  | .arr [], _ =>
    .of_oneLine ((forall_dumpsSep (fun _ => printable_not_break) hc.line _).mpr trivial)
  | .obj [], _ =>
    .of_oneLine ((forall_dumpsSep (fun _ => printable_not_break) hc.line _).mpr trivial)
  | .str s, _ => by
    intro hnot fuel hfuel
    obtain ⟨fuel, rfl⟩ := Nat.exists_eq_succ_of_ne_zero (Nat.ne_of_gt (Nat.zero_lt_of_lt hfuel))
    rw [dumpsSep] at hnot ⊢
    obtain ⟨t, e, heq, hscan⟩ := firstLine_quote hc.ends hnot
    rw [heq]
    exact ⟨e, value_str_error hscan fuel⟩
  | .arr (v :: elems), h => by
    intro hnot fuel hfuel
    obtain ⟨fuel, rfl⟩ := Nat.exists_eq_succ_of_ne_zero (Nat.ne_of_gt (Nat.zero_lt_of_lt hfuel))
    rw [dumpsSep, List.cons_append] at hnot hfuel ⊢
    rw [firstLine_cons (by decide)] at hfuel ⊢
    have hrest : ¬ OneLine (dumpsSep item key v ++ elemsSep item key elems) :=
      fun h => hnot (List.forall_mem_cons.mpr ⟨by decide, h⟩)
    rw [List.length_cons] at hfuel
    -- the bracket is no boundary, so the cut is behind it
    obtain ⟨e, he⟩ := elements_cut h.2 h.1 (value_cut h.1) hrest fuel (by omega)
    exact ⟨e, value_arr_error (((begins_dumpsSep h.1).append _).firstLine.append w) he⟩
  | .obj ((k, v) :: fields), h => by
    intro hnot fuel hfuel
    obtain ⟨fuel, rfl⟩ := Nat.exists_eq_succ_of_ne_zero (Nat.ne_of_gt (Nat.zero_lt_of_lt hfuel))
    rw [dumpsSep, List.cons_append, List.cons_append, List.cons_append, List.append_assoc]
      at hnot hfuel ⊢
    rw [firstLine_cons (by decide)] at hfuel ⊢
    have hrest : ¬ OneLine (quote k ++ key ++ (dumpsSep item key v ++ fieldsSep item key fields)) :=
      fun h => hnot (List.forall_mem_cons.mpr ⟨by decide, h⟩)
    rw [List.length_cons] at hfuel
    obtain ⟨e, he⟩ := members_cut h.2.2 k h.2.1 (value_cut h.2.1) hrest fuel (by omega)
    have hhead : firstLine (quote k ++ key ++ (dumpsSep item key v ++ fieldsSep item key fields)) =
        codePoint '"' :: firstLine (k.flatMap escape ++ [codePoint '"'] ++ key ++
          (dumpsSep item key v ++ fieldsSep item key fields)) := by
      rw [quote, List.cons_append, List.cons_append, List.cons_append, firstLine_cons (by decide)]
    rw [hhead, List.cons_append] at he ⊢
    exact ⟨e, value_obj_error he⟩

/-- The cut is in the first element, or the reader goes past it to the others. -/
theorem elements_cut : ∀ {elems : List Json}, PlainElems d elems → ∀ {v : Json}, Plain d v →
    CutFails d item key w v → ¬ OneLine (dumpsSep item key v ++ elemsSep item key elems) →
    ∀ fuel, 2 * (firstLine (dumpsSep item key v ++ elemsSep item key elems)).length + 1 < fuel →
    ∃ e, elements d fuel (firstLine (dumpsSep item key v ++ elemsSep item key elems) ++ w) =
      .error e
  | elems, h, v, hv, hcut => by
    intro hnot fuel hfuel
    obtain ⟨fuel, rfl⟩ := Nat.exists_eq_succ_of_ne_zero (Nat.ne_of_gt (Nat.zero_lt_of_lt hfuel))
    by_cases hone : OneLine (dumpsSep item key v)
    · rw [firstLine_append hone] at hfuel ⊢
      match elems, h with
      | [], _ =>
        rw [elemsSep] at hnot
        refine absurd (oneLine_append.mpr ⟨hone, fun p hp => ?_⟩) hnot
        rw [List.mem_singleton.mp hp]
        decide
      | u :: elems, h =>
        have hitem := (oneLine_append.mp hc.line).1
        have htext : elemsSep item key (u :: elems) =
            item ++ (dumpsSep item key u ++ elemsSep item key elems) := by
          rw [elemsSep, List.append_assoc]
        rw [htext] at hnot hfuel ⊢
        rw [firstLine_append hitem] at hfuel ⊢
        have hrest : ¬ OneLine (dumpsSep item key u ++ elemsSep item key elems) :=
          fun h => hnot (oneLine_append.mpr ⟨hone, oneLine_append.mpr ⟨hitem, h⟩⟩)
        simp only [List.length_append] at hfuel
        have hpos : 0 < item.length := by
          obtain ⟨spaces, rfl, -⟩ := hc.seps.comma
          exact Nat.succ_pos _
        obtain ⟨e, he⟩ := elements_cut h.2 h.1 (value_cut h.1) hrest fuel (by omega)
        have hvalue := value_dumpsSep hc.seps hv fuel
          (item ++ (firstLine (dumpsSep item key u ++ elemsSep item key elems) ++ w))
          (hc.seps.comma.endsNumber (by decide) _) (by omega)
        refine ⟨e, elements_next_error hc.seps.comma (v := v) ?_
          (((begins_dumpsSep h.1).append _).firstLine.append w) he⟩
        simpa only [List.append_assoc] using hvalue
    · rw [firstLine_append_of_not hone] at hfuel ⊢
      obtain ⟨e, he⟩ := hcut hone fuel (by omega)
      exact ⟨e, elements_error he⟩

/-- The cut is in the first key, in its value, or the reader goes past both. -/
theorem members_cut : ∀ {fields : List (PyStr × Json)}, PlainFields d fields →
    ∀ (k : PyStr) {v : Json}, Plain d v → CutFails d item key w v →
    ¬ OneLine (quote k ++ key ++ (dumpsSep item key v ++ fieldsSep item key fields)) → ∀ fuel,
    2 * (firstLine (quote k ++ key ++ (dumpsSep item key v ++ fieldsSep item key fields))).length
      + 1 < fuel →
    ∃ e, members d fuel
      (firstLine (quote k ++ key ++ (dumpsSep item key v ++ fieldsSep item key fields)) ++ w) =
      .error e
  | fields, h, k, v, hv, hcut => by
    intro hnot fuel hfuel
    obtain ⟨fuel, rfl⟩ := Nat.exists_eq_succ_of_ne_zero (Nat.ne_of_gt (Nat.zero_lt_of_lt hfuel))
    obtain ⟨hitem, hkey⟩ := oneLine_append.mp hc.line
    by_cases hk : OneLine (quote k)
    · have hkk : OneLine (quote k ++ key) := oneLine_append.mpr ⟨hk, hkey⟩
      rw [firstLine_append hkk] at hfuel ⊢
      have hbegins (s : PyStr) : Begins (firstLine (dumpsSep item key v ++ s) ++ w) :=
        ((begins_dumpsSep hv).append s).firstLine.append w
      simp only [List.length_append] at hfuel
      by_cases hone : OneLine (dumpsSep item key v)
      · rw [firstLine_append hone] at hfuel ⊢
        match fields, h with
        | [], _ =>
          rw [fieldsSep] at hnot
          refine absurd (oneLine_append.mpr ⟨hkk, oneLine_append.mpr ⟨hone, fun p hp => ?_⟩⟩) hnot
          rw [List.mem_singleton.mp hp]
          decide
        | (k', u) :: fields, h =>
          have htext : fieldsSep item key ((k', u) :: fields) = item ++
              (quote k' ++ key ++ (dumpsSep item key u ++ fieldsSep item key fields)) := by
            rw [fieldsSep]
            simp only [List.append_assoc]
          rw [htext] at hnot hfuel ⊢
          rw [firstLine_append hitem] at hfuel ⊢
          have hrest : ¬ OneLine
              (quote k' ++ key ++ (dumpsSep item key u ++ fieldsSep item key fields)) := fun h =>
            hnot (oneLine_append.mpr
              ⟨hkk, oneLine_append.mpr ⟨hone, oneLine_append.mpr ⟨hitem, h⟩⟩⟩)
          simp only [List.length_append] at hfuel
          have hpos : 0 < item.length := by
            obtain ⟨spaces, rfl, -⟩ := hc.seps.comma
            exact Nat.succ_pos _
          obtain ⟨e, he⟩ := members_cut h.2 k' h.1 (value_cut h.1) hrest fuel
            (by simp only [List.append_assoc] at hfuel ⊢; omega)
          have hvalue := value_dumpsSep hc.seps hv fuel (item ++ (firstLine
            (quote k' ++ key ++ (dumpsSep item key u ++ fieldsSep item key fields)) ++ w))
            (hc.seps.comma.endsNumber (by decide) _) (by omega)
          have hquote : Begins (firstLine
              (quote k' ++ key ++ (dumpsSep item key u ++ fieldsSep item key fields)) ++ w) := by
            rw [List.append_assoc]
            exact (begins_quote k' _).firstLine.append w
          refine ⟨e, ?_⟩
          have hnext := members_next_error (k := k) hc.seps.comma hc.seps.colon
            (((begins_dumpsSep hv).append _)) hvalue hquote he
          simpa only [List.append_assoc] using hnext
      · rw [firstLine_append_of_not hone] at hfuel ⊢
        obtain ⟨e, he⟩ := hcut hone fuel (by omega)
        refine ⟨e, ?_⟩
        rw [List.append_assoc]
        refine members_value_error hc.seps.colon ?_ he
        simpa only [firstLine_append_of_not hone] using hbegins []
    · rw [List.append_assoc, firstLine_append_of_not hk] at hfuel ⊢
      obtain ⟨t, e, heq, hscan⟩ := firstLine_quote hc.ends hk
      rw [heq]
      exact ⟨e, members_key_error hscan fuel⟩

end

end

end Lib
