import Mathlib.Data.List.DropRight
import Mathlib.Tactic.IntervalCases
import PolyGate.Lib.Json
import PolyGate.Lib.PyRepr

/-!
# `Lib/PyStr.lean` — `str.strip`, `json.dumps` and UTF-8

`json.dumps(…, ensure_ascii=False)` escapes quotes, backslashes and control characters and leaves
every other code point as it is, a lone surrogate included; encoding such a text then fails. A
string literal ends where it ends (`quote_inj`), whatever follows.
-/

namespace Lib

/-- The code points for which `str.isspace` holds. -/
def spaces : List Nat :=
  [0x09, 0x0a, 0x0b, 0x0c, 0x0d, 0x1c, 0x1d, 0x1e, 0x1f, 0x20, 0x85, 0xa0, 0x1680, 0x2000, 0x2001,
   0x2002, 0x2003, 0x2004, 0x2005, 0x2006, 0x2007, 0x2008, 0x2009, 0x200a, 0x2028, 0x2029, 0x202f,
   0x205f, 0x3000]

def isSpace (p : CodePoint) : Bool := p.val ∈ spaces

/-- `s.strip()` -/
def strip (s : PyStr) : PyStr := (s.dropWhile isSpace).rdropWhile isSpace

/-- `s.encode("utf-8")`; `none` is a `UnicodeEncodeError`. -/
def encodeUtf8 (s : PyStr) : Option ByteArray := (PyStr.decode s).map String.toUTF8

/-! ## `json.dumps` -/

def hexDigit (n : Nat) : CodePoint := codePoint n.digitChar

/-- A character inside a string literal. -/
def escape (p : CodePoint) : PyStr :=
  match p.val with
  | 0x22 => str "\\\""
  | 0x5c => str "\\\\"
  | 0x0a => str "\\n"
  | 0x0d => str "\\r"
  | 0x09 => str "\\t"
  | 0x0c => str "\\f"
  | 0x08 => str "\\b"
  | n => if n < 0x20 then str "\\u00" ++ [hexDigit (n / 16), hexDigit (n % 16)] else [p]

def quote (s : PyStr) : PyStr := codePoint '"' :: s.flatMap escape ++ [codePoint '"']

def dumpsFloat (x : PyFloat) : PyStr :=
  match x with
  | .finite _ _ => x.repr.map codePoint
  | .inf neg => if neg then str "-Infinity" else str "Infinity"
  | .nan => str "NaN"

mutual

/-- `json.dumps(v, ensure_ascii=False)` -/
def dumps : Json → PyStr
  | .null => str "null"
  | .bool b => if b then str "true" else str "false"
  | .int n => (intStr n).map codePoint
  | .float x => dumpsFloat x
  | .str s => quote s
  | .arr [] => str "[]"
  | .arr (v :: elems) => str "[" ++ dumps v ++ dumpsElems elems
  | .obj [] => str "\x7b\x7d"
  | .obj ((k, v) :: fields) => str "\x7b" ++ quote k ++ str ": " ++ dumps v ++ dumpsFields fields

/-- The elements that follow the first, and the bracket. -/
def dumpsElems : List Json → PyStr
  | [] => str "]"
  | v :: elems => str ", " ++ dumps v ++ dumpsElems elems

def dumpsFields : List (PyStr × Json) → PyStr
  | [] => str "\x7d"
  | (k, v) :: fields => str ", " ++ quote k ++ str ": " ++ dumps v ++ dumpsFields fields

end

/-! ## Where a string literal ends -/

def hexValue (p : CodePoint) : Nat := if p.val < 58 then p.val - 48 else p.val - 87

/-- The next character of a string literal, and what follows it. -/
def unescape : PyStr → Option (Nat × PyStr)
  | [] => none
  | p :: rest =>
    if p.val = 0x22 then none
    else if p.val = 0x5c then
      match rest with
      | [] => none
      | e :: rest => match e.val with
        | 0x6e => some (0x0a, rest)
        | 0x72 => some (0x0d, rest)
        | 0x74 => some (0x09, rest)
        | 0x66 => some (0x0c, rest)
        | 0x62 => some (0x08, rest)
        | 0x75 => match rest with
          | _ :: _ :: h :: l :: rest => some (16 * hexValue h + hexValue l, rest)
          | _ => none
        | n => some (n, rest)
    else some (p.val, rest)

theorem hexValue_hexDigit : ∀ d < 16, hexValue (hexDigit d) = d := by decide

theorem unescape_escape (p : CodePoint) (rest : PyStr) :
    unescape (escape p ++ rest) = some (p.val, rest) := by
  unfold escape
  split
  all_goals try (rename_i h; rw [h]; rfl)
  rename_i hquote hslash _ _ _ _ _
  split
  · -- a control character, by its two hexadecimal digits
    have hread :
        16 * hexValue (hexDigit (p.val / 16)) + hexValue (hexDigit (p.val % 16)) = p.val := by
      rw [hexValue_hexDigit _ (by omega), hexValue_hexDigit _ (by omega)]
      omega
    refine Eq.trans ?_ (congrArg (fun n => some (n, rest)) hread)
    rfl
  · show unescape (p :: rest) = _
    have hq : ¬p.val = 0x22 := hquote
    have hs : ¬p.val = 0x5c := hslash
    simp [unescape, hq, hs]

theorem escape_inj {p p' : CodePoint} {r r' : PyStr} (h : escape p ++ r = escape p' ++ r') :
    p = p' ∧ r = r' := by
  have h' := congrArg unescape h
  rw [unescape_escape, unescape_escape] at h'
  obtain ⟨hp, hr⟩ := Prod.mk.inj (Option.some.inj h')
  exact ⟨Fin.ext hp, hr⟩

/-- No character is written as the closing quote. -/
theorem escape_ne_quote {p : CodePoint} {r r' : PyStr} :
    escape p ++ r ≠ codePoint '"' :: r' := by
  intro h
  have h' := congrArg unescape h
  rw [unescape_escape] at h'
  cases h'

/-- **A string literal says where it ends.** -/
theorem quote_inj {s s' r r' : PyStr} (h : quote s ++ r = quote s' ++ r') : s = s' ∧ r = r' := by
  have hbody : ∀ s s' : PyStr, s.flatMap escape ++ codePoint '"' :: r =
      s'.flatMap escape ++ codePoint '"' :: r' → s = s' ∧ r = r' := by
    intro s
    induction s with
    | nil =>
      intro s' h
      cases s' with
      | nil => exact ⟨rfl, (List.cons.inj h).2⟩
      | cons p' s' =>
        rw [List.flatMap_cons, List.append_assoc] at h
        exact absurd h.symm escape_ne_quote
    | cons p s ih =>
      intro s' h
      rw [List.flatMap_cons, List.append_assoc] at h
      cases s' with
      | nil => exact absurd h escape_ne_quote
      | cons p' s' =>
        rw [List.flatMap_cons, List.append_assoc] at h
        obtain ⟨rfl, hrest⟩ := escape_inj h
        obtain ⟨rfl, hr⟩ := ih s' hrest
        exact ⟨rfl, hr⟩
  have h' : s.flatMap escape ++ [codePoint '"'] ++ r = s'.flatMap escape ++ [codePoint '"'] ++ r' :=
    (List.cons.inj h).2
  rw [List.append_assoc, List.append_assoc] at h'
  exact hbody s s' h'

/-! ## What can be encoded -/

/-- No surrogates. -/
def SurrogateFree (s : PyStr) : Prop := ∀ p ∈ s, p.val.isValidChar

theorem surrogateFree_append {s t : PyStr} :
    SurrogateFree (s ++ t) ↔ SurrogateFree s ∧ SurrogateFree t :=
  List.forall_mem_append

theorem surrogateFree_cons {p : CodePoint} {s : PyStr} :
    SurrogateFree (p :: s) ↔ p.val.isValidChar ∧ SurrogateFree s := List.forall_mem_cons

@[simp] theorem surrogateFree_map (cs : List Char) : SurrogateFree (cs.map codePoint) := by
  intro p hp
  obtain ⟨c, -, rfl⟩ := List.mem_map.mp hp
  exact c.valid

@[simp] theorem surrogateFree_str (s : String) : SurrogateFree (str s) := surrogateFree_map s.toList

theorem toChar?_eq_some {p : CodePoint} {c : Char} : p.toChar? = some c ↔ p = codePoint c := by
  constructor
  · intro h
    by_cases hvalid : p.val.isValidChar
    · have hchar : p.toChar? = some (Char.ofNatAux p.val hvalid) := dif_pos hvalid
      cases hchar.symm.trans h
      rfl
    · cases (show p.toChar? = none from dif_neg hvalid).symm.trans h
  · rintro rfl
    exact toChar?_codePoint c

theorem decode_eq_some {s : PyStr} {t : String} : PyStr.decode s = some t ↔ s = str t := by
  constructor
  · have h : ∀ (s : PyStr) (cs : List Char), s.mapM CodePoint.toChar? = some cs →
        s = cs.map codePoint := by
      intro s
      induction s with
      | nil =>
        intro cs h
        cases h
        rfl
      | cons p s ih =>
        intro cs h
        rw [List.mapM_cons] at h
        obtain ⟨c, hc, h⟩ := Option.bind_eq_some_iff.mp h
        obtain ⟨cs', hcs, h⟩ := Option.bind_eq_some_iff.mp h
        cases h
        rw [toChar?_eq_some.mp hc, ih cs' hcs]
        rfl
    intro ht
    obtain ⟨cs, hcs, rfl⟩ := Option.map_eq_some_iff.mp ht
    rw [h s cs hcs, str, String.toList_ofList]
  · rintro rfl
    exact decode_str t

theorem exists_str_iff {s : PyStr} : (∃ t, s = str t) ↔ SurrogateFree s := by
  constructor
  · rintro ⟨t, rfl⟩
    exact surrogateFree_str t
  · intro h
    have hchars : ∃ cs : List Char, s = cs.map codePoint := by
      induction s with
      | nil => exact ⟨[], rfl⟩
      | cons p s ih =>
        obtain ⟨hp, hs⟩ := surrogateFree_cons.mp h
        obtain ⟨cs, rfl⟩ := ih hs
        exact ⟨Char.ofNatAux p.val hp :: cs, rfl⟩
    obtain ⟨cs, rfl⟩ := hchars
    exact ⟨String.ofList cs, by rw [str, String.toList_ofList]⟩

/-- Encoding succeeds exactly without surrogates, and then says what was encoded. -/
theorem encodeUtf8_isSome {s : PyStr} : (∃ b, encodeUtf8 s = some b) ↔ SurrogateFree s := by
  unfold encodeUtf8
  simp only [Option.map_eq_some_iff, decode_eq_some]
  rw [← exists_str_iff]
  exact ⟨fun ⟨_, t, ht, _⟩ => ⟨t, ht⟩, fun ⟨t, ht⟩ => ⟨_, t, ht, rfl⟩⟩

theorem encodeUtf8_inj {s s' : PyStr} {b : ByteArray} (h : encodeUtf8 s = some b)
    (h' : encodeUtf8 s' = some b) : s = s' := by
  obtain ⟨t, ht, rfl⟩ := Option.map_eq_some_iff.mp h
  obtain ⟨t', ht', hb⟩ := Option.map_eq_some_iff.mp h'
  rw [decode_eq_some.mp ht, decode_eq_some.mp ht', String.toByteArray_inj.mp hb]

theorem escape_surrogateFree {p : CodePoint} : SurrogateFree (escape p) ↔ p.val.isValidChar := by
  unfold escape
  split
  all_goals try
    rename_i h
    exact iff_of_true (surrogateFree_str _) (by rw [h]; decide)
  split
  · rename_i hlow
    refine iff_of_true (surrogateFree_append.mpr ⟨surrogateFree_str _, ?_⟩) (Or.inl (by omega))
    exact surrogateFree_map [Nat.digitChar (p.val / 16), Nat.digitChar (p.val % 16)]
  · exact ⟨fun h => h p List.mem_cons_self, fun h q hq => List.mem_singleton.mp hq ▸ h⟩

theorem quote_surrogateFree {s : PyStr} : SurrogateFree (quote s) ↔ SurrogateFree s := by
  have hquote : (codePoint '"').val.isValidChar := by decide
  have hbody : SurrogateFree (s.flatMap escape) ↔ SurrogateFree s := by
    constructor
    · intro h p hp
      exact escape_surrogateFree.mp fun q hq => h q (List.mem_flatMap.mpr ⟨p, hp, hq⟩)
    · intro h q hq
      obtain ⟨p, hp, hq⟩ := List.mem_flatMap.mp hq
      exact escape_surrogateFree.mpr (h p hp) q hq
  unfold quote
  rw [List.cons_append, surrogateFree_cons, surrogateFree_append, hbody]
  simp [SurrogateFree, hquote]

/-- Whitespace can be encoded, so stripping it makes no difference. -/
theorem strip_surrogateFree {s : PyStr} : SurrogateFree (strip s) ↔ SurrogateFree s := by
  have hspace : ∀ p : CodePoint, isSpace p = true → p.val.isValidChar := by
    intro p hp
    have hall : ∀ n ∈ spaces, n.isValidChar := by decide
    exact hall p.val (of_decide_eq_true hp)
  constructor
  · intro h p hp
    rw [← List.takeWhile_append_dropWhile (p := isSpace) (l := s)] at hp
    rcases List.mem_append.mp hp with hp | hp
    · exact hspace p (List.mem_takeWhile_imp hp)
    · rw [← List.rdropWhile_append_rtakeWhile (p := isSpace) (l := s.dropWhile isSpace)] at hp
      rcases List.mem_append.mp hp with hp | hp
      · exact h p hp
      · exact hspace p (List.mem_rtakeWhile_imp hp)
  · intro h p hp
    exact h p (List.dropWhile_subset _ ((List.rdropWhile_prefix _ _).subset hp))

end Lib
