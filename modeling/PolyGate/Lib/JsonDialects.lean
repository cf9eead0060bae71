import PolyGate.Lib.JsonRead

/-!
# `Lib/JsonDialects.lean` — one text, two readers

What `json.loads` reads, `JSON.parse` reads as the same value, or not at all: not when one of the
words `NaN`, `Infinity` and `-Infinity` stands outside the string literals
(`jsonParse_of_loads`). Two more differences come from what is done before reading. A text may be
stripped of more spaces than JSON has (`parse_iff_strip`), and lines may be joined with empty ones
among them, which no reader notices (`parse_joined`).
-/

namespace Lib

/-! ## Constants -/

/-- Where a reader is that only looks for the string literals. -/
inductive Quoting
  | outside
  | inside
  | escaped

/-- No `N` and no `I` outside the string literals, so that no constant can stand there. -/
def constantFree : Quoting → PyStr → Bool
  | _, [] => true
  | .outside, p :: s =>
    if p = codePoint '"' then constantFree .inside s
    else p ≠ codePoint 'N' && p ≠ codePoint 'I' && constantFree .outside s
  | .inside, p :: s =>
    if p = codePoint '"' then constantFree .outside s
    else constantFree (if p = codePoint '\\' then .escaped else .inside) s
  | .escaped, _ :: s => constantFree .inside s

/-- Nothing that matters outside the string literals. -/
def IsPlain (p : CodePoint) : Prop :=
  p ≠ codePoint '"' ∧ p ≠ codePoint 'N' ∧ p ≠ codePoint 'I'

instance (p : CodePoint) : Decidable (IsPlain p) := inferInstanceAs (Decidable (_ ∧ _))

theorem constantFree_cons {p : CodePoint} (hp : IsPlain p) (s : PyStr) :
    constantFree .outside (p :: s) = constantFree .outside s := by
  obtain ⟨hquote, hn, hi⟩ := hp
  simp [constantFree, hquote, hn, hi]

theorem constantFree_append {w : PyStr} (hw : ∀ p ∈ w, IsPlain p) (s : PyStr) :
    constantFree .outside (w ++ s) = constantFree .outside s := by
  induction w with
  | nil => rfl
  | cons p w ih =>
    obtain ⟨hp, hw⟩ := List.forall_mem_cons.mp hw
    rw [List.cons_append, constantFree_cons hp, ih hw]

theorem isPlain_of_isJsonSpace {p : CodePoint} (h : isJsonSpace p = true) : IsPlain p := by
  have hle := isJsonSpace_le h
  refine ⟨?_, ?_, ?_⟩
  · rintro rfl
    exact absurd hle (by decide)
  · rintro rfl
    exact absurd hle (by decide)
  · rintro rfl
    exact absurd hle (by decide)

theorem isPlain_of_isNumberChar {p : CodePoint} (h : isNumberChar p = true) : IsPlain p := by
  refine ⟨?_, ?_, ?_⟩
  · rintro rfl
    cases h
  · rintro rfl
    cases h
  · rintro rfl
    cases h

theorem constantFree_skipSpace (s : PyStr) :
    constantFree .outside (skipSpace s) = constantFree .outside s := by
  conv => rhs; rw [← List.takeWhile_append_dropWhile (p := isJsonSpace) (l := s)]
  exact (constantFree_append
    (fun p hp => isPlain_of_isJsonSpace (List.mem_takeWhile_imp hp)) _).symm

theorem constantFree_mark {s r : PyStr} {p : CodePoint} (h : skipSpace s = p :: r)
    (hp : IsPlain p) : constantFree .outside s = constantFree .outside r := by
  rw [← constantFree_skipSpace, h, constantFree_cons hp]

/-- Where the reader of a string literal is, for one that only looks for its end. -/
def Scan.quoting : Scan → Quoting
  | .escaped => .escaped
  | .char | .hex _ => .inside

theorem constantFree_hex {p : CodePoint} {n : Nat} (h : hexValue? p = some n) (s : PyStr) :
    constantFree .inside (p :: s) = constantFree .inside s := by
  have hquote : p ≠ codePoint '"' := by
    rintro rfl
    cases h
  have hbackslash : p ≠ codePoint '\\' := by
    rintro rfl
    cases h
  simp [constantFree, hquote, hbackslash]

/-- After a string literal the reader is outside again. -/
theorem constantFree_scanString {scan : Scan} {high : Option CodePoint} {read s text r : PyStr}
    (h : scanString scan high read s = .ok (text, r)) :
    constantFree scan.quoting s = constantFree .outside r := by
  induction s generalizing scan high read with
  | nil => cases scan <;> cases h
  | cons p s ih =>
    cases scan with
    | char =>
      unfold scanString at h
      split at h
      · rename_i hp
        cases h
        simp [Scan.quoting, constantFree, hp]
      · rename_i hquote
        split at h
        · rename_i hp
          show constantFree .inside (p :: s) = _
          rw [constantFree, if_neg hquote, if_pos hp]
          exact ih h
        · rename_i hbackslash
          split at h
          · cases h
          · show constantFree .inside (p :: s) = _
            rw [constantFree, if_neg hquote, if_neg hbackslash]
            exact ih h
    | escaped =>
      unfold scanString at h
      split at h
      · exact ih h
      · split at h
        · exact ih h
        · cases h
    -- hexadecimal digits are neither a quote nor a backslash
    | hex digits =>
      unfold scanString at h
      split at h
      · cases h
      · rename_i hp
        split at h
        · rw [← ih h]
          exact constantFree_hex hp s
        · rw [← ih h]
          exact constantFree_hex hp s

theorem constantFree_word {w : PyStr} {v : Json} (hw : (w, v) ∈ words ecmaJson) :
    ∀ p ∈ w, IsPlain p := by
  have hall : ∀ w ∈ words ecmaJson, w.1.all (fun p => decide (IsPlain p)) = true := by decide
  intro p hp
  exact of_decide_eq_true (List.all_eq_true.mp (hall _ hw) p hp)

/-- The words that only Python reads. -/
theorem word_constant {d : Dialect} {w : PyStr} {v : Json} (hw : (w, v) ∈ words d)
    (hecma : (w, v) ∉ words ecmaJson) (s : PyStr) : constantFree .outside (w ++ s) = false := by
  have hmem : w ∈ [str "NaN", str "Infinity", str "-Infinity"] := by
    unfold words at hw hecma
    rcases List.mem_append.mp hw with hbase | hconstant
    · exact absurd (List.mem_append_left _ hbase) hecma
    · split at hconstant
      · have hkeys := List.mem_map_of_mem (f := Prod.fst) hconstant
        exact hkeys
      · cases hconstant
  have hall : ∀ w ∈ [str "NaN", str "Infinity", str "-Infinity"], ∀ s : PyStr,
      constantFree .outside (w ++ s) = false := by
    intro w hw s
    rcases List.mem_cons.mp hw with rfl | hw
    · rfl
    · rcases List.mem_cons.mp hw with rfl | hw
      · rfl
      · rw [List.mem_singleton.mp hw]
        rfl
  exact hall w hmem s

/-- `JSON.parse` reads over no constant. -/
theorem Reads.constantFree_eq {s r : PyStr} {item : Item} (h : Reads ecmaJson s item r) :
    constantFree .outside s = constantFree .outside r := by
  -- a quote, then a string literal
  have hliteral {s text r : PyStr} (h : scanString .char none [] s = .ok (text, r)) :
      constantFree .outside (codePoint '"' :: s) = constantFree .outside r := by
    rw [constantFree, if_pos rfl]
    exact constantFree_scanString h
  induction h with
  | word hword =>
    obtain ⟨w, hw, rfl⟩ := word_eq_some hword
    exact constantFree_append (constantFree_word hw) _
  | number hnumber =>
    obtain ⟨text, kind, hkind, rfl, -⟩ := number_eq_ok hnumber
    obtain ⟨state, hstate, -⟩ := Option.bind_eq_some_iff.mp hkind
    exact constantFree_append
      (fun p hp => isPlain_of_isNumberChar (scanNumber_chars hstate p hp)) _
  | str hscan => exact hliteral hscan
  | emptyArr hend | emptyObj hend =>
    rw [constantFree_cons (by decide), constantFree_mark hend (by decide)]
  | arr _ ih | obj _ ih => rw [constantFree_cons (by decide), ← constantFree_skipSpace, ih]
  | last _ hend ih => rw [ih, constantFree_mark hend (by decide)]
  | next _ hcomma _ ih ih' =>
    rw [ih, constantFree_mark hcomma (by decide), ← constantFree_skipSpace, ih']
  | lastMember hkey hcolon _ hend ih =>
    rw [hliteral hkey, constantFree_mark hcolon (by decide), ← constantFree_skipSpace, ih,
      constantFree_mark hend (by decide)]
  | nextMember hkey hcolon _ hcomma _ ih ih' =>
    rw [hliteral hkey, constantFree_mark hcolon (by decide), ← constantFree_skipSpace, ih,
      constantFree_mark hcomma (by decide), ← constantFree_skipSpace, ih']

/-- Without a constant in it, `JSON.parse` reads what any of the readers reads. -/
theorem Reads.toEcma {d : Dialect} {s r : PyStr} {item : Item} (h : Reads d s item r)
    (hfree : constantFree .outside s = true) : Reads ecmaJson s item r := by
  -- what has been read by `JSON.parse` may be left out
  have hrest {s r : PyStr} {item : Item} (h : Reads ecmaJson s item r)
      (hfree : constantFree .outside s = true) : constantFree .outside r = true :=
    h.constantFree_eq ▸ hfree
  have hskip {s r : PyStr} {p : CodePoint} (h : skipSpace s = p :: r) (hp : IsPlain p)
      (hfree : constantFree .outside s = true) : constantFree .outside (skipSpace r) = true := by
    rw [constantFree_skipSpace, ← constantFree_mark h hp]
    exact hfree
  have hkeys {s text r : PyStr} (h : scanString .char none [] s = .ok (text, r))
      (hfree : constantFree .outside (codePoint '"' :: s) = true) :
      constantFree .outside r = true := hrest (.str h) hfree
  induction h with
  | @word s r v hword =>
    obtain ⟨w, hw, rfl⟩ := word_eq_some hword
    by_cases hecma : (w, v) ∈ words ecmaJson
    · exact .word (word_of_mem hecma r)
    · rw [word_constant hw hecma] at hfree
      cases hfree
  | @number s r v hnumber =>
    -- the constants do not matter to a number
    have hnumber : Lib.number ⟨false, d.maxDigits⟩ s = .ok (v, r) := hnumber
    have hwithin : Dialect.Within ⟨false, d.maxDigits⟩ ecmaJson := ⟨id, fun _ _ => rfl⟩
    obtain ⟨_, hecma, rfl⟩ := keeps_eq.number hwithin rfl hnumber
    exact .number hecma
  | str hscan => exact .str hscan
  | emptyArr hend => exact .emptyArr hend
  | emptyObj hend => exact .emptyObj hend
  | arr _ ih =>
    rw [constantFree_cons (by decide), ← constantFree_skipSpace] at hfree
    exact .arr (ih hfree)
  | obj _ ih =>
    rw [constantFree_cons (by decide), ← constantFree_skipSpace] at hfree
    exact .obj (ih hfree)
  | last _ hend ih => exact .last (ih hfree) hend
  | next _ hcomma _ ih ih' =>
    exact .next (ih hfree) hcomma (ih' (hskip hcomma (by decide) (hrest (ih hfree) hfree)))
  | lastMember hkey hcolon _ hend ih =>
    exact .lastMember hkey hcolon (ih (hskip hcolon (by decide) (hkeys hkey hfree))) hend
  | nextMember hkey hcolon _ hcomma _ ih ih' =>
    have hvalue := hskip hcolon (by decide) (hkeys hkey hfree)
    exact .nextMember hkey hcolon (ih hvalue) hcomma
      (ih' (hskip hcomma (by decide) (hrest (ih hvalue) hvalue)))

/-- The reader of all that either reads. -/
def anyJson : Dialect := ⟨true, none⟩

theorem within_any (d : Dialect) : d.Within anyJson := ⟨fun _ => rfl, fun _ _ => rfl⟩

theorem parse_within {d d' : Dialect} (hd : d.Within d') {s : PyStr} {v : Json}
    (h : parse d s = .ok v) : parse d' s = .ok v := by
  obtain ⟨r, hreads, hend⟩ := parse_eq_ok.mp h
  exact parse_eq_ok.mpr ⟨r, hreads.within hd, hend⟩

theorem jsonParse_eq_some {s : PyStr} {v : Json} :
    jsonParse s = some v ↔ parse ecmaJson s = .ok v := by
  unfold jsonParse
  cases parse ecmaJson s with
  | error e =>
    constructor
    · intro h
      cases h
    · intro h
      cases h
  | ok v' =>
    constructor
    · intro h
      exact congrArg _ (Option.some.inj h)
    · intro h
      exact congrArg _ (Except.ok.inj h)

/-- Two readers of a text read the same. -/
theorem parse_unique {d d' : Dialect} {s : PyStr} {v v' : Json} (h : parse d s = .ok v)
    (h' : parse d' s = .ok v') : v = v' := by
  have hany := parse_within (within_any d) h
  rw [parse_within (within_any d') h'] at hany
  exact (Except.ok.inj hany).symm

/-- **What is read by `json.loads` is read by `JSON.parse` unless there is a constant in it.** -/
theorem jsonParse_of_loads {s : PyStr} {v : Json} (h : loads s = .ok v) :
    jsonParse s = some v ↔ constantFree .outside s = true := by
  obtain ⟨r, hreads, hend⟩ := parse_eq_ok.mp h
  rw [jsonParse_eq_some]
  constructor
  · intro hecma
    obtain ⟨r', hreads', hend'⟩ := parse_eq_ok.mp hecma
    have hnil : constantFree .outside (skipSpace r') = true := by
      rw [hend']
      rfl
    rw [← constantFree_skipSpace, hreads'.constantFree_eq, ← constantFree_skipSpace]
    exact hnil
  · intro hfree
    rw [← constantFree_skipSpace] at hfree
    exact parse_eq_ok.mpr ⟨r, hreads.toEcma hfree, hend⟩

/-! ## Spaces -/

/-- Only spaces of JSON at the ends. -/
def JsonPadded (s : PyStr) : Prop :=
  (∀ p ∈ s.takeWhile isSpace, isJsonSpace p = true) ∧
    ∀ p ∈ s.rtakeWhile isSpace, isJsonSpace p = true

instance (s : PyStr) : Decidable (JsonPadded s) :=
  decidable_of_iff ((s.takeWhile isSpace).all isJsonSpace = true ∧
    (s.rtakeWhile isSpace).all isJsonSpace = true)
    (and_congr List.all_eq_true List.all_eq_true)

theorem rtakeWhile_append {a b : PyStr} {q : CodePoint} (hq : isSpace q = false)
    (hb : ∀ p ∈ b, isSpace p = true) : (a ++ q :: b).rtakeWhile isSpace = b := by
  have hback : ∀ p ∈ b.reverse, isSpace p = true := fun p hmem => hb p (List.mem_reverse.mp hmem)
  rw [List.rtakeWhile, List.reverse_append, List.reverse_cons, List.append_assoc,
    List.takeWhile_append_of_pos hback, List.singleton_append,
    List.takeWhile_cons_of_neg (by rw [hq]; decide), List.append_nil, List.reverse_reverse]

/-- What is read has only the spaces of JSON around it. -/
theorem jsonPadded_of_parse {d : Dialect} {s : PyStr} {v : Json} (h : parse d s = .ok v) :
    JsonPadded s := by
  obtain ⟨r, hreads, hend⟩ := parse_eq_ok.mp h
  obtain ⟨u, q, heq, hq⟩ := hreads.endsAt
  obtain ⟨p, t, hpt, hp⟩ := hreads.starts
  have hspaces : ∀ p ∈ s.takeWhile isJsonSpace, isSpace p = true :=
    fun p hmem => isSpace_of_isJsonSpace (List.mem_takeWhile_imp hmem)
  have hs : s = s.takeWhile isJsonSpace ++ skipSpace s := List.takeWhile_append_dropWhile.symm
  have hr := isJsonSpace_of_skipSpace hend
  constructor
  · have hleft : s.takeWhile isSpace = s.takeWhile isJsonSpace := by
      conv => lhs; rw [hs]
      rw [List.takeWhile_append_of_pos hspaces, hpt,
        List.takeWhile_cons_of_neg (by rw [not_isSpace hp.bounds]; decide), List.append_nil]
    rw [hleft]
    exact fun p hmem => List.mem_takeWhile_imp hmem
  · have hright : s.rtakeWhile isSpace = r := by
      conv => lhs; rw [hs, heq, ← List.append_assoc]
      exact rtakeWhile_append hq fun p hmem => isSpace_of_isJsonSpace (hr p hmem)
    rw [hright]
    exact hr

/-- A text, the spaces at its ends and what is between them. -/
theorem strip_split (s : PyStr) :
    ∃ b, s = s.takeWhile isSpace ++ strip s ++ b ∧ ∀ p ∈ b, p ∈ s.rtakeWhile isSpace := by
  refine ⟨(s.dropWhile isSpace).rtakeWhile isSpace, ?_, fun p hp => ?_⟩
  · rw [strip, List.append_assoc, List.rdropWhile_append_rtakeWhile,
      List.takeWhile_append_dropWhile]
  · have hs : s.reverse = (s.dropWhile isSpace).reverse ++ (s.takeWhile isSpace).reverse := by
      rw [← List.reverse_append, List.takeWhile_append_dropWhile]
    rw [List.rtakeWhile, List.mem_reverse] at hp ⊢
    rw [hs, List.takeWhile_append]
    split
    · exact List.mem_append_left _ ((List.takeWhile_sublist _).subset hp)
    · exact hp

/-- **A text is read when the stripped text is and only spaces of JSON were stripped.** -/
theorem parse_iff_strip {d : Dialect} {s : PyStr} {v : Json} :
    parse d s = .ok v ↔ parse d (strip s) = .ok v ∧ JsonPadded s := by
  constructor
  · intro h
    exact ⟨parse_strip h, jsonPadded_of_parse h⟩
  · rintro ⟨h, hleft, hright⟩
    obtain ⟨r, hreads, hend⟩ := parse_eq_ok.mp h
    obtain ⟨b, hs, hb⟩ := strip_split s
    have hb : ∀ p ∈ b, isJsonSpace p = true := fun p hp => hright p (hb p hp)
    have hnumber : EndsNumber b := fun p hp => Bool.eq_false_iff.mpr fun hnumber => by
      have hspace := hb p (List.mem_of_mem_head? hp)
      rw [Starts.not_space (Or.inl hnumber)] at hspace
      cases hspace
    have hskip : skipSpace s = skipSpace (strip s) ++ b := by
      obtain ⟨p, t, hpt, -⟩ := hreads.starts
      unfold skipSpace at hpt ⊢
      conv => lhs; rw [hs]
      rw [List.append_assoc, List.dropWhile_append_of_pos hleft, List.dropWhile_append, hpt]
      rfl
    have hrest : skipSpace (r ++ b) = [] := by
      refine List.dropWhile_eq_nil_iff.mpr fun p hp => ?_
      rcases List.mem_append.mp hp with hp | hp
      · exact isJsonSpace_of_skipSpace hend p hp
      · exact hb p hp
    refine parse_eq_ok.mpr ⟨r ++ b, ?_, hrest⟩
    rw [hskip]
    exact hreads.append hnumber

/-! ## Empty lines -/

/-- The lines of the first list, with empty ones among them. -/
inductive Blanked : List PyStr → List PyStr → Prop
  | nil : Blanked [] []
  | line {lines lines' : List PyStr} (l : PyStr) (h : Blanked lines lines') :
      Blanked (l :: lines) (l :: lines')
  | blank {lines lines' : List PyStr} (h : Blanked lines lines') : Blanked lines ([] :: lines')

theorem Blanked.append {lines lines' more more' : List PyStr} (h : Blanked lines lines')
    (h' : Blanked more more') : Blanked (lines ++ more) (lines' ++ more') := by
  induction h with
  | nil => exact h'
  | line l _ ih => exact .line l ih
  | blank _ ih => exact .blank ih

/-- One more line feed, at an end of the text or beside another one. -/
inductive AddsLf : PyStr → PyStr → Prop
  | none (s : PyStr) : AddsLf s s
  | first (s : PyStr) : AddsLf s (lf :: s)
  | last (s : PyStr) : AddsLf s (s ++ [lf])
  | beside (a b : PyStr) : AddsLf (a ++ lf :: b) (a ++ lf :: lf :: b)

theorem intercalate_append {lines lines' : List PyStr} (h : lines ≠ []) (h' : lines' ≠ []) :
    [lf].intercalate (lines ++ lines') =
      [lf].intercalate lines ++ lf :: [lf].intercalate lines' := by
  induction lines with
  | nil => exact absurd rfl h
  | cons l lines ih =>
    cases lines with
    | nil =>
      cases lines' with
      | nil => exact absurd rfl h'
      | cons l' lines' => simp [List.intercalate_cons_cons]
    | cons l₂ lines =>
      rw [List.cons_append, List.cons_append, List.intercalate_cons_cons, ← List.cons_append,
        ih (List.cons_ne_nil _ _), List.intercalate_cons_cons]
      simp

/-- An empty line among joined ones. -/
theorem addsLf_blank (before after : List PyStr) :
    AddsLf ([lf].intercalate (before ++ after)) ([lf].intercalate (before ++ [] :: after)) := by
  cases before with
  | nil =>
    cases after with
    | nil => exact .none []
    | cons l after => exact .first _
  | cons l before =>
    rw [intercalate_append (List.cons_ne_nil l before) (List.cons_ne_nil [] after)]
    cases after with
    | nil =>
      rw [List.append_nil]
      exact .last _
    | cons l' after =>
      rw [intercalate_append (List.cons_ne_nil l before) (List.cons_ne_nil l' after)]
      exact .beside _ _

/-- What one line feed does not change, the empty lines do not change. -/
theorem Blanked.iff {P : PyStr → Prop} (hP : ∀ {s t : PyStr}, AddsLf s t → (P s ↔ P t))
    {lines lines' : List PyStr} (h : Blanked lines lines') :
    P ([lf].intercalate lines) ↔ P ([lf].intercalate lines') := by
  have hall (before : List PyStr) :
      P ([lf].intercalate (before ++ lines)) ↔ P ([lf].intercalate (before ++ lines')) := by
    induction h generalizing before with
    | nil => exact Iff.rfl
    | line l h ih =>
      have hline := ih (before ++ [l])
      rw [List.append_assoc, List.append_assoc] at hline
      exact hline
    | blank h ih => exact (ih before).trans (hP (addsLf_blank before _))
  exact hall []

/-- A line feed beside another one, or the same text. -/
def Doubled (s t : PyStr) : Prop :=
  s = t ∨ ∃ a b, s = a ++ lf :: b ∧ t = a ++ lf :: lf :: b

theorem skipSpace_lf (s : PyStr) : skipSpace (lf :: s) = skipSpace s := rfl

theorem Doubled.skipSpace {s t : PyStr} (h : Doubled s t) :
    Doubled (skipSpace s) (skipSpace t) := by
  obtain rfl | ⟨a, b, rfl, rfl⟩ := h
  · exact Or.inl rfl
  · unfold Lib.skipSpace
    rw [List.dropWhile_append, List.dropWhile_append]
    split
    · exact Or.inl rfl
    · exact Or.inr ⟨_, b, rfl, rfl⟩

theorem Doubled.head? {s t : PyStr} (h : Doubled s t) : s.head? = t.head? := by
  obtain rfl | ⟨a, b, rfl, rfl⟩ := h
  · rfl
  · cases a <;> rfl

theorem Doubled.skipSpace_nil {s t : PyStr} (h : Doubled s t) :
    Lib.skipSpace s = [] ↔ Lib.skipSpace t = [] := by
  rw [← List.head?_eq_none_iff, h.skipSpace.head?, List.head?_eq_none_iff]

theorem keeps_doubled : Keeps Doubled where
  cons {p s t} h hp _ := by
    obtain rfl | ⟨a, b, heq, rfl⟩ := h
    · exact ⟨s, rfl, Or.inl rfl⟩
    · cases a with
      | nil => exact absurd (List.cons.inj heq).1 hp
      | cons q a =>
        obtain ⟨rfl, rfl⟩ := List.cons.inj heq
        exact ⟨_, rfl, Or.inr ⟨a, b, rfl, rfl⟩⟩
  skipSpace h _ := h.skipSpace
  endsNumber h hs := fun p hp => hs p (h.head?.trans hp)

theorem keeps_undoubled : Keeps fun s t => Doubled t s where
  cons {p s t} h hp _ := by
    obtain rfl | ⟨a, b, rfl, heq⟩ := h
    · exact ⟨s, rfl, Or.inl rfl⟩
    · cases a with
      | nil => exact absurd (List.cons.inj heq).1 hp
      | cons q a =>
        obtain ⟨rfl, rfl⟩ := List.cons.inj heq
        exact ⟨_, rfl, Or.inr ⟨a, b, rfl, rfl⟩⟩
  skipSpace h _ := h.skipSpace
  endsNumber h hs := fun p hp => hs p (h.head?.symm.trans hp)

/-- A change that the reader does not notice does not change what is read. -/
theorem Keeps.parse {R : PyStr → PyStr → Prop} (hR : Keeps R)
    (hnil : ∀ {s t : PyStr}, R s t → Lib.skipSpace s = [] → Lib.skipSpace t = [])
    {d : Dialect} {s t : PyStr} {v : Json} (hst : R s t) (h : Lib.parse d s = .ok v) :
    Lib.parse d t = .ok v := by
  obtain ⟨r, hreads, hend⟩ := parse_eq_ok.mp h
  obtain ⟨p, u, hu, -⟩ := hreads.starts
  have hskip : R (Lib.skipSpace s) (Lib.skipSpace t) :=
    hR.skipSpace hst (by rw [hu]; exact List.cons_ne_nil p u)
  obtain ⟨r', hreads', hr⟩ := hR.reads (.refl d) hreads hskip
  exact parse_eq_ok.mpr ⟨r', hreads', hnil hr hend⟩

theorem skipSpace_append_lf {s : PyStr} : skipSpace (s ++ [lf]) = [] ↔ skipSpace s = [] := by
  unfold skipSpace
  simp only [List.dropWhile_eq_nil_iff, List.forall_mem_append, List.forall_mem_singleton]
  exact and_iff_left rfl

theorem parse_addsLf {d : Dialect} {v : Json} {s t : PyStr} (h : AddsLf s t) :
    parse d s = .ok v ↔ parse d t = .ok v := by
  cases h with
  | none => exact Iff.rfl
  | first => rw [parse_eq_ok, parse_eq_ok, skipSpace_lf]
  | last =>
    have hnumber : EndsNumber [lf] := fun p hp => by
      cases hp
      rfl
    constructor
    · exact (keeps_append hnumber).parse (fun h hs => by rw [h, skipSpace_append_lf, hs]) rfl
    · exact (keeps_spaces rfl).parse (fun h hs => by rwa [h, skipSpace_append_lf] at hs) rfl
  | beside a b =>
    have hdoubled : Doubled (a ++ lf :: b) (a ++ lf :: lf :: b) := Or.inr ⟨a, b, rfl, rfl⟩
    constructor
    · exact keeps_doubled.parse (fun h hs => h.skipSpace_nil.mp hs) hdoubled
    · exact keeps_undoubled.parse (fun h hs => h.skipSpace_nil.mpr hs) hdoubled

/-- **Empty lines among the lines of a text do not change what is read.** -/
theorem parse_joined {d : Dialect} {v : Json} {lines lines' : List PyStr}
    (h : Blanked lines lines') :
    parse d ([lf].intercalate lines) = .ok v ↔ parse d ([lf].intercalate lines') = .ok v :=
  h.iff parse_addsLf

/-! ## A mark between spaces -/

/-- The mark `m`, and nothing else but what `P` takes away. -/
def Around (P : CodePoint → Bool) (m s : PyStr) : Prop :=
  ∃ a b, s = a ++ m ++ b ∧ (∀ p ∈ a, P p = true) ∧ ∀ p ∈ b, P p = true

/-- What is left of a text without `P` at its ends. -/
theorem around_of_eq {P : CodePoint → Bool} {m s : PyStr}
    (h : (s.dropWhile P).rdropWhile P = m) : Around P m s := by
  refine ⟨s.takeWhile P, (s.dropWhile P).rtakeWhile P, ?_, fun p hp => List.mem_takeWhile_imp hp,
    fun p hp => List.mem_rtakeWhile_imp hp⟩
  rw [← h, List.append_assoc, List.rdropWhile_append_rtakeWhile, List.takeWhile_append_dropWhile]

theorem eq_of_around {P : CodePoint → Bool} {m s : PyStr} (h : Around P m s)
    (hstart : ∃ p t, m = p :: t ∧ P p = false) (hend : ∃ t p, m = t ++ [p] ∧ P p = false) :
    (s.dropWhile P).rdropWhile P = m := by
  obtain ⟨a, b, rfl, ha, hb⟩ := h
  obtain ⟨p, t, hpt, hp⟩ := hstart
  obtain ⟨u, q, huq, hq⟩ := hend
  have hback : ∀ p ∈ b.reverse, P p = true := fun p hmem => hb p (List.mem_reverse.mp hmem)
  have hleft : (a ++ m ++ b).dropWhile P = m ++ b := by
    rw [List.append_assoc, List.dropWhile_append_of_pos ha, hpt, List.cons_append,
      List.dropWhile_cons_of_neg (by rw [hp]; decide)]
  rw [hleft, List.rdropWhile, List.reverse_append, List.dropWhile_append_of_pos hback, huq,
    List.reverse_append, List.reverse_singleton, List.singleton_append,
    List.dropWhile_cons_of_neg (by rw [hq]; decide), List.reverse_cons, List.reverse_reverse]

section Around
variable {P : CodePoint → Bool} {m : PyStr}

/-- A line feed stands on one side of the mark. -/
theorem around_lf (hP : P lf = true) (hne : m ≠ []) (hm : lf ∉ m) {x y : PyStr} :
    Around P m (x ++ lf :: y) ↔
      ((∀ p ∈ x, P p = true) ∧ Around P m y) ∨ (Around P m x ∧ ∀ p ∈ y, P p = true) := by
  constructor
  · rintro ⟨a, b, heq, ha, hb⟩
    -- the line feed is in `a`, or what is left of `x` ends in it
    have hlast {u : PyStr} (hu : x ++ [lf] = a ++ u) :
        u = [] ∨ ∃ u', u = u' ++ [lf] ∧ x = a ++ u' := by
      rcases List.eq_nil_or_concat u with rfl | ⟨u', q, rfl⟩
      · exact Or.inl rfl
      · rw [List.concat_eq_append, ← List.append_assoc] at hu
        obtain ⟨rfl, hq⟩ := List.append_inj' hu rfl
        cases hq
        exact Or.inr ⟨u', by rw [List.concat_eq_append], rfl⟩
    have heq : (x ++ [lf]) ++ y = a ++ (m ++ b) := by simpa using heq
    rcases List.append_eq_append_iff.mp heq with ⟨u, rfl, rfl⟩ | ⟨u, hx, hu⟩
    · refine Or.inl ⟨fun p hp => ha p (by simp [hp]), u, b, (List.append_assoc _ _ _).symm, ?_, hb⟩
      exact fun p hp => ha p (by simp [hp])
    · rcases List.append_eq_append_iff.mp hu with ⟨w, rfl, rfl⟩ | ⟨w, rfl, rfl⟩
      · -- the mark ends before the line feed, since it has none
        rcases hlast hx with hnil | ⟨w', hw, rfl⟩
        · exact absurd (List.append_eq_nil_iff.mp hnil).1 hne
        · rcases List.eq_nil_or_concat w with rfl | ⟨w₁, q, rfl⟩
          · rw [List.append_nil] at hw
            exact absurd (by simp [hw]) hm
          · rw [List.concat_eq_append, ← List.append_assoc] at hw
            obtain ⟨rfl, -⟩ := List.append_inj' hw rfl
            refine Or.inr ⟨⟨a, w₁, (List.append_assoc _ _ _).symm, ha, fun p hp => ?_⟩,
              fun p hp => ?_⟩
            · exact hb p (by simp [hp])
            · exact hb p (by simp [hp])
      · rcases hlast hx with rfl | ⟨u', rfl, -⟩
        · rw [List.append_nil] at hx
          subst hx
          exact Or.inl ⟨fun p hp => ha p (by simp [hp]), [], b, by simp, List.forall_mem_nil _, hb⟩
        · exact absurd (by simp) hm
  · rintro (⟨hx, a, b, rfl, ha, hb⟩ | ⟨⟨a, b, rfl, ha, hb⟩, hy⟩)
    · refine ⟨x ++ lf :: a, b, by simp, fun p hp => ?_, hb⟩
      rcases List.mem_append.mp hp with hp | hp
      · exact hx p hp
      · rcases List.mem_cons.mp hp with rfl | hp
        · exact hP
        · exact ha p hp
    · refine ⟨a, b ++ lf :: y, by simp, ha, fun p hp => ?_⟩
      rcases List.mem_append.mp hp with hp | hp
      · exact hb p hp
      · rcases List.mem_cons.mp hp with rfl | hp
        · exact hP
        · exact hy p hp

theorem not_around_nil (hne : m ≠ []) : ¬ Around P m [] := by
  rintro ⟨a, b, heq, -, -⟩
  have hnil := List.append_eq_nil_iff.mp (List.append_eq_nil_iff.mp heq.symm).1
  exact hne hnil.2

theorem around_addsLf (hP : P lf = true) (hne : m ≠ []) (hm : lf ∉ m) {s t : PyStr}
    (h : AddsLf s t) : Around P m s ↔ Around P m t := by
  have hfirst (s : PyStr) : Around P m (lf :: s) ↔ Around P m s := by
    have hsplit := around_lf hP hne hm (x := []) (y := s)
    simpa [not_around_nil hne] using hsplit
  cases h with
  | none => exact Iff.rfl
  | first => exact (hfirst s).symm
  | last =>
    rw [around_lf hP hne hm]
    simp [not_around_nil hne]
  | beside a b =>
    rw [around_lf hP hne hm, around_lf hP hne hm, hfirst]
    simp [hP]

/-- Nor do they change what stands between the spaces. -/
theorem around_joined (hP : P lf = true) (hne : m ≠ []) (hm : lf ∉ m) {lines lines' : List PyStr}
    (h : Blanked lines lines') :
    Around P m ([lf].intercalate lines) ↔ Around P m ([lf].intercalate lines') :=
  h.iff (around_addsLf hP hne hm)

end Around

end Lib
